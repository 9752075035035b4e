import GridStyle.Files.Disk

/-!
# Trees of Files

What is at a location of a tree after an entry was put somewhere. Locations are seen as nodes: a
directory, or a file with its text (`Entry.node?`). Putting an entry that holds nothing where no
directory was changes the node there and no other one (`node?_put`).

Of two entries that are put at one location the later counts, an entry that is put where it was
changes nothing, and texts of different files are written in any order (`put_comm`).
-/

namespace GridStyle.Entry

/-! ### Names in a directory -/

section Place

variable {name other : String} {entries : List (String × Entry)}

theorem lookup_cons_entry (other first : String) (e : Entry) (entries : List (String × Entry)) :
    ((first, e) :: entries).lookup other =
      if other = first then some e else entries.lookup other := by
  by_cases h : other = first
  · simp [h]
  · rw [List.lookup_cons, beq_eq_false_iff_ne.2 h, if_neg h]

/-- Of different names each is found. -/
theorem lookup_of_mem {e : Entry} (hdistinct : (entries.map Prod.fst).Nodup)
    (he : (name, e) ∈ entries) : entries.lookup name = some e := by
  induction entries with
  | nil => simp at he
  | cons entry entries ih =>
    rw [List.map_cons, List.nodup_cons] at hdistinct
    rw [List.mem_cons] at he
    obtain rfl | he := he
    · rw [lookup_cons_entry, if_pos rfl]
    · obtain ⟨first, e'⟩ := entry
      have hne : name ≠ first := by
        rintro rfl
        exact hdistinct.1 (List.mem_map.2 ⟨_, he, rfl⟩)
      rw [lookup_cons_entry, if_neg hne, ih hdistinct.2 he]

theorem lookup_place (name other : String) (new : Entry) (entries : List (String × Entry)) :
    (place name new entries).lookup other =
      if other = name then some new else entries.lookup other := by
  induction entries with
  | nil => rw [place, lookup_cons_entry]
  | cons entry entries ih =>
    obtain ⟨first, e⟩ := entry
    by_cases hfirst : first = name
    · rw [place, if_pos hfirst, lookup_cons_entry, lookup_cons_entry, hfirst]
      split <;> rfl
    · rw [place, if_neg hfirst, lookup_cons_entry, lookup_cons_entry, ih]
      -- The first entry is found or passed over, and it is not the one that was placed.
      by_cases h : other = first
      · rw [if_pos h, if_pos h, if_neg (h ▸ hfirst)]
      · rw [if_neg h, if_neg h]

theorem place_place (name : String) (new newer : Entry) (entries : List (String × Entry)) :
    place name newer (place name new entries) = place name newer entries := by
  induction entries with
  | nil => simp [place]
  | cons entry entries ih =>
    obtain ⟨first, e⟩ := entry
    by_cases h : first = name
    · simp [place, h]
    · simp [place, h, ih]

theorem place_eq_self {e : Entry} (h : entries.lookup name = some e) :
    place name e entries = entries := by
  induction entries with
  | nil => simp at h
  | cons entry entries ih =>
    obtain ⟨first, e'⟩ := entry
    rw [lookup_cons_entry] at h
    by_cases hfirst : first = name
    · rw [if_pos hfirst.symm, Option.some.injEq] at h
      rw [place, if_pos hfirst, hfirst, h]
    · rw [if_neg fun heq => hfirst heq.symm] at h
      rw [place, if_neg hfirst, ih h]

/-- Names that a directory has already are given new entries in any order. -/
theorem place_comm {new new' : Entry} (hne : name ≠ other)
    (hname : (entries.lookup name).isSome) (hother : (entries.lookup other).isSome) :
    place name new (place other new' entries) = place other new' (place name new entries) := by
  induction entries with
  | nil => simp at hname
  | cons entry entries ih =>
    obtain ⟨first, e⟩ := entry
    by_cases hfirst : first = name
    · subst hfirst
      simp [place, hne]
    · by_cases hsecond : first = other
      · subst hsecond
        simp [place, hne.symm]
      · rw [lookup_cons_entry, if_neg fun heq => hfirst heq.symm] at hname
        rw [lookup_cons_entry, if_neg fun heq => hsecond heq.symm] at hother
        simp [place, hfirst, hsecond, ih hname hother]

end Place

/-! ### Locations in a tree -/

/-- What a location shows by itself. -/
inductive Node where
  /-- A directory. -/
  | directory
  /-- A file with its text. -/
  | file (text : Option String)
  deriving DecidableEq, Repr

/-- The text of a file. -/
def Node.text? : Node → Option String
  | directory => none
  | file text => text

/-- An entry without what is below it. -/
def node : Entry → Node
  | .file text => .file text
  | .directory _ => .directory

/-- The node at a location below. -/
def node? (e : Entry) (location : List String) : Option Node := (e.at? location).map node

/-- One step down from a directory. -/
theorem at?_cons (entries : List (String × Entry)) (name : String) (rest : List String) :
    (directory entries).at? (name :: rest) =
      (entries.lookup name).bind fun child => child.at? rest := by
  rw [at?, child?, Entry.entries]

theorem node?_cons (entries : List (String × Entry)) (name : String) (rest : List String) :
    (directory entries).node? (name :: rest) =
      (entries.lookup name).bind fun child => child.node? rest := by
  rw [node?, at?_cons]
  cases entries.lookup name <;> rfl

/-- What is below an entry is below one of those it holds. -/
theorem exists_child_of_at? {e found : Entry} {name : String} {rest : List String}
    (h : e.at? (name :: rest) = some found) :
    ∃ entries child, e = .directory entries ∧ entries.lookup name = some child ∧
      child.at? rest = some found := by
  cases e with
  | file => simp [at?, child?, entries] at h
  | directory entries =>
    rw [at?_cons, Option.bind_eq_some_iff] at h
    obtain ⟨child, hchild, hrest⟩ := h
    exact ⟨entries, child, rfl, hchild, hrest⟩

theorem exists_child_of_node? {e : Entry} {node : Node} {name : String} {rest : List String}
    (h : e.node? (name :: rest) = some node) :
    ∃ entries child, e = .directory entries ∧ entries.lookup name = some child ∧
      child.node? rest = some node := by
  obtain ⟨found, hfound, hnode⟩ := Option.map_eq_some_iff.1 h
  obtain ⟨entries, child, rfl, hchild, hrest⟩ := exists_child_of_at? hfound
  exact ⟨entries, child, rfl, hchild, Option.map_eq_some_iff.2 ⟨found, hrest, hnode⟩⟩

theorem at?_append (e : Entry) (location rest : List String) :
    e.at? (location ++ rest) = (e.at? location).bind fun child => child.at? rest := by
  induction location generalizing e with
  | nil => rfl
  | cons name location ih =>
    rw [List.cons_append, at?, at?]
    cases e.child? name with
    | none => rfl
    | some child => exact ih child

theorem isDirectory_iff {e : Entry} : e.isDirectory = true ↔ ∃ entries, e = .directory entries := by
  cases e <;> simp [isDirectory]

theorem node_eq_directory_iff {e : Entry} : e.node = .directory ↔ e.isDirectory = true := by
  cases e <;> simp [node, isDirectory]

theorem node?_eq_file_iff {e : Entry} {location : List String} {text : Option String} :
    e.node? location = some (.file text) ↔ e.at? location = some (.file text) := by
  rw [node?, Option.map_eq_some_iff]
  constructor
  · rintro ⟨found, hfound, hnode⟩
    cases found with
    | file => simp_all [node]
    | directory => simp [node] at hnode
  · intro h
    exact ⟨_, h, rfl⟩

/-- Nothing is below what is not a directory. -/
theorem node?_below {e : Entry} (h : e.entries = []) (name : String) (rest : List String) :
    e.node? (name :: rest) = none := by
  rw [Option.eq_none_iff_forall_ne_some]
  intro node hnode
  obtain ⟨entries, child, rfl, hchild, -⟩ := exists_child_of_node? hnode
  rw [show entries = [] from h] at hchild
  simp at hchild

/-- The directory of a location that shows something. -/
theorem node?_dropLast {e : Entry} {location : List String} {name : String}
    (h : e.node? (location ++ [name]) ≠ none) : e.node? location = some .directory := by
  rw [node?, at?_append] at h
  rw [node?]
  cases hfound : e.at? location with
  | none => simp [hfound] at h
  | some found =>
    cases found with
    | file => simp [hfound, at?, child?, entries] at h
    | directory => rfl

/-! ### Putting entries -/

/-- Putting an entry into a directory that has the first name of the location. -/
theorem put_cons {entries : List (String × Entry)} {name : String} {child : Entry}
    (h : entries.lookup name = some child) (new : Entry) (rest : List String) :
    (directory entries).put new (name :: rest) =
      .directory (place name (child.put new rest) entries) := by
  cases rest with
  | nil => rw [put, put]
  | cons next rest =>
    rw [put]
    simp only [h]

/-- In a directory an entry that holds nothing gets a name that no directory had. Then its name
shows the entry, and all other locations show what they showed. -/
theorem node?_place {entries : List (String × Entry)} {new : Entry} {name : String}
    (hfree : (directory entries).node? [name] ≠ some .directory) (hnew : new.entries = [])
    (m : List String) :
    (directory (place name new entries)).node? m =
      if m = [name] then some new.node else (directory entries).node? m := by
  match m with
  | [] => rfl
  | other :: rest =>
    rw [node?_cons, node?_cons, lookup_place]
    by_cases hother : other = name
    · subst hother
      rw [if_pos rfl, Option.bind_some]
      match rest with
      | [] => rw [if_pos rfl]; rfl
      | next :: rest =>
        -- Nothing is below the new entry, and nothing was below the one it replaces.
        rw [if_neg (by simp), node?_below hnew]
        rw [node?_cons] at hfree
        cases hold : entries.lookup other with
        | none => rfl
        | some old =>
          rw [hold] at hfree
          have hempty : old.entries = [] := by
            cases old with
            | file => rfl
            | directory => exact absurd rfl hfree
          rw [Option.bind_some, node?_below hempty]
    · rw [if_neg hother, if_neg]
      intro heq
      exact hother (List.cons.inj heq).1

/-- An entry that holds nothing is put into a directory, where no directory was. Then its location
shows the entry, and all other locations show what they showed. -/
theorem node?_put {e new : Entry} {location : List String} {name : String}
    (hdirectory : e.node? location = some .directory)
    (hfree : e.node? (location ++ [name]) ≠ some .directory) (hnew : new.entries = [])
    (m : List String) :
    (e.put new (location ++ [name])).node? m =
      if m = location ++ [name] then some new.node else e.node? m := by
  induction location generalizing e m with
  | nil =>
    obtain ⟨entries, rfl⟩ :=
      isDirectory_iff.1 (node_eq_directory_iff.1 (Option.some.inj hdirectory))
    rw [List.nil_append] at hfree ⊢
    rw [put]
    exact node?_place hfree hnew m
  | cons first location ih =>
    obtain ⟨entries, child, rfl, hchild, hbelow⟩ := exists_child_of_node? hdirectory
    rw [List.cons_append, node?_cons, hchild, Option.bind_some] at hfree
    rw [List.cons_append, put_cons hchild]
    match m with
    | [] => rfl
    | other :: rest =>
      rw [node?_cons, node?_cons, lookup_place]
      -- Only below the first name of the location anything is new.
      by_cases hother : other = first
      · subst hother
        rw [if_pos rfl, hchild, Option.bind_some, Option.bind_some, ih hbelow hfree]
        simp only [List.cons.injEq, true_and]
      · rw [if_neg hother, if_neg]
        intro heq
        exact hother (List.cons.inj heq).1

/-- Of two entries that are put at one location the later counts. -/
theorem put_put (e new newer : Entry) (location : List String) :
    (e.put new location).put newer location = e.put newer location := by
  induction location generalizing e with
  | nil => rw [put, put]
  | cons name rest ih =>
    cases e with
    | file => rw [put, put]
    | directory entries =>
      cases rest with
      | nil => rw [put, put, put, place_place]
      | cons next rest =>
        cases hchild : entries.lookup name with
        | none => simp [put, hchild]
        | some child =>
          have hplaced : (place name (child.put new (next :: rest)) entries).lookup name =
              some (child.put new (next :: rest)) := by
            rw [lookup_place, if_pos rfl]
          rw [put_cons hchild, put_cons hplaced, put_cons hchild, ih, place_place]

/-- Putting an entry where it is changes nothing. -/
theorem put_eq_self {e found : Entry} {location : List String}
    (h : e.at? location = some found) : e.put found location = e := by
  induction location generalizing e with
  | nil => exact (Option.some.inj h).symm
  | cons name rest ih =>
    obtain ⟨entries, child, rfl, hchild, hrest⟩ := exists_child_of_at? h
    rw [put_cons hchild, ih hrest, place_eq_self hchild]

/-- Files that are there already are written in any order. -/
theorem put_comm {e new new' : Entry} {location location' : List String}
    {text text' : Option String} (hne : location ≠ location')
    (h : e.at? location = some (.file text)) (h' : e.at? location' = some (.file text')) :
    (e.put new location).put new' location' = (e.put new' location').put new location := by
  induction location generalizing e location' with
  | nil =>
    -- The tree is a file, so it has no other location.
    cases location' with
    | nil => exact absurd rfl hne
    | cons name' rest' =>
      obtain ⟨entries, -, rfl, -⟩ := exists_child_of_at? h'
      exact absurd (Option.some.inj h) nofun
  | cons name rest ih =>
    obtain ⟨entries, child, rfl, hchild, hrest⟩ := exists_child_of_at? h
    cases location' with
    | nil => exact absurd (Option.some.inj h') nofun
    | cons name' rest' =>
      rw [at?_cons, Option.bind_eq_some_iff] at h'
      obtain ⟨child', hchild', hrest'⟩ := h'
      have hplaced : ∀ new : Entry, (place name new entries).lookup name = some new := by
        intro new
        rw [lookup_place, if_pos rfl]
      rw [put_cons hchild, put_cons hchild']
      -- Below one name the files are of one tree; else either entry is placed beside the other.
      by_cases hname : name = name'
      · subst hname
        rw [hchild, Option.some.injEq] at hchild'
        subst hchild'
        rw [put_cons (hplaced _), put_cons (hplaced _), place_place, place_place,
          ih (fun heq => hne (by rw [heq])) hrest hrest']
      · have hother : (place name (child.put new rest) entries).lookup name' = some child' := by
          rw [lookup_place, if_neg fun heq => hname heq.symm, hchild']
        have hfirst : (place name' (child'.put new' rest') entries).lookup name = some child := by
          rw [lookup_place, if_neg hname, hchild]
        rw [put_cons hother, put_cons hfirst,
          place_comm (fun heq => hname heq.symm) (by simp [hchild']) (by simp [hchild])]

end GridStyle.Entry
