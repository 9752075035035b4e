import GridStyle.Proofs.TokenTree
import GridStyle.Token.Reader
import GridStyle.Token.Writer

/-!
# Writing and Reading Token Trees

Reading what was written gives the same tokens back, for trees of any shape and depth. Written trees
do not show the identities of pseudo blocks, and a reader numbers the blocks anew, so what comes
back is the tree with its blocks numbered from zero. A tree that was read is numbered like that
already, so it comes back as it is (`written_tokens_read`).

A value is read with its size as a bound of the recursion. Every lemma on a reader is about all
bounds that are not below the size of what is read.
-/

namespace GridStyle

open Json5 (Value)

namespace Json5.Value

/-- A record behind its kind: where no member is called `type`, the kind and the members come back.
-/
theorem tagged_object (kind : String) {members : List (String × Value)}
    (h : ∀ m ∈ members, m.1 ≠ "type") :
    (object (("type", text kind) :: members)).tagged = some (kind, object members) := by
  have hkind : members.filter (fun m => m.1 == "type") = [] := by
    rw [List.filter_eq_nil_iff]
    intro m hm
    simpa using h m hm
  have hrest : members.filter (fun m => m.1 != "type") = members := by
    rw [List.filter_eq_self]
    intro m hm
    simpa using h m hm
  simp [tagged, member?, hkind, hrest]

/-- A bound on the size of a value is not zero. -/
theorem exists_of_size_le {value : Value} {bound : Nat} (h : value.size ≤ bound) :
    ∃ n, bound = n + 1 :=
  Nat.exists_eq_succ_of_ne_zero (Nat.ne_of_gt (Nat.lt_of_lt_of_le value.size_pos h))

end Json5.Value

namespace Token

section Lists

variable {α : Type} (read : Value → Option α)

@[simp]
theorem readList_none : readList read none = some [] := rfl

@[simp]
theorem readList_array (items : List Value) :
    readList read (some (.array items)) = items.mapM read := rfl

end Lists

/-! ### Values of rules -/

-- The induction is on the nodes; the bound goes down with the size of the value.
mutual

theorem readNode_toValue : ∀ (node : ValueNode) (fuel : Nat), node.toValue.size ≤ fuel →
    readNode fuel node.toValue = some node
  | .text value, fuel, h => by
    obtain ⟨fuel, rfl⟩ := Value.exists_of_size_le h
    rw [ValueNode.toValue, readNode, Value.tagged_object _ (by simp)]
    simp [Value.fields, Value.objectFields, Value.member?, Value.text?]
  | .call name arguments position, fuel, h => by
    obtain ⟨fuel, rfl⟩ := Value.exists_of_size_le h
    have harguments : Value.sizeItems (argumentValues arguments) ≤ fuel := by
      simp only [ValueNode.toValue, Value.size, Value.sizeMembers] at h
      omega
    rw [ValueNode.toValue, readNode, Value.tagged_object _ (by simp)]
    simp [Value.fields, Value.objectFields, Value.member?, Value.text?,
      mapM_readArgument arguments fuel harguments, Value.natural?]

theorem readArgument_toValue : ∀ (argument : Argument) (fuel : Nat),
    argument.toValue.size ≤ fuel → readArgument fuel argument.toValue = some argument
  | ⟨cluster, nodes⟩, fuel, h => by
    obtain ⟨fuel, rfl⟩ := Value.exists_of_size_le h
    have hnodes : Value.sizeItems (nodeValues nodes) ≤ fuel := by
      simp only [Argument.toValue, Value.size, Value.sizeMembers] at h
      omega
    rw [Argument.toValue, readArgument]
    simp [Value.objectFields, Value.member?, Value.bool?, mapM_readNode nodes fuel hnodes]

theorem mapM_readArgument : ∀ (arguments : List Argument) (fuel : Nat),
    Value.sizeItems (argumentValues arguments) ≤ fuel →
    (argumentValues arguments).mapM (readArgument fuel) = some arguments
  | [], fuel, h => rfl
  | argument :: arguments, fuel, h => by
    rw [argumentValues, Value.sizeItems] at h
    rw [argumentValues, List.mapM_cons, readArgument_toValue argument fuel (by omega),
      mapM_readArgument arguments fuel (by omega)]
    rfl

theorem mapM_readNode : ∀ (nodes : List ValueNode) (fuel : Nat),
    Value.sizeItems (nodeValues nodes) ≤ fuel →
    (nodeValues nodes).mapM (readNode fuel) = some nodes
  | [], fuel, h => rfl
  | node :: nodes, fuel, h => by
    rw [nodeValues, Value.sizeItems] at h
    rw [nodeValues, List.mapM_cons, readNode_toValue node fuel (by omega),
      mapM_readNode nodes fuel (by omega)]
    rfl

end

theorem readList_groupValues (groups : List ValueGroup) (fuel : Nat)
    (h : (groupValues groups).size ≤ fuel) :
    readList (readGroup fuel) (some (groupValues groups)) = some groups := by
  rw [groupValues, Value.size] at h
  rw [groupValues, readList_array]
  induction groups with
  | nil => rfl
  | cons group groups ih =>
    rw [List.map_cons, Value.sizeItems, Value.size] at h
    have hgroup : readGroup fuel (.array (nodeValues group)) = some group := by
      rw [readGroup, readList_array]
      exact mapM_readNode group fuel (by omega)
    rw [List.map_cons, List.mapM_cons, hgroup, ih (by omega)]
    rfl

/-! ### Tokens

A reader gives a pseudo block the number zero. So what is read from a written token is not the token
itself, but one that cannot be told from it once the blocks are numbered. -/

theorem type_not_mem_ruleMembers : ∀ declaration : Rule, ∀ m ∈ ruleMembers declaration,
    m.1 ≠ "type"
  | ⟨_, _, []⟩ => by simp [ruleMembers]
  | ⟨_, _, _ :: _⟩ => by simp [ruleMembers]

-- The induction is on the tokens again. What holds of a read token is its numbering from any start,
-- as the blocks in front of it decide where it starts.
mutual

theorem exists_readToken : ∀ (token : Token) (fuel : Nat), token.toValue.size ≤ fuel →
    ∃ read, readToken fuel token.toValue = some read ∧
      ∀ next, numberToken next read = numberToken next token
  | .rule declaration, fuel, h => by
    obtain ⟨fuel, rfl⟩ := Value.exists_of_size_le h
    simp only [Token.toValue, Value.size, Value.sizeMembers] at h
    obtain ⟨read, hread, hnumber⟩ := exists_readRule declaration fuel
      (by rw [Value.size]; omega)
    refine ⟨.rule read, ?_, fun next => by rw [numberToken, numberToken, hnumber]⟩
    rw [Token.toValue, readToken,
      Value.tagged_object _ (type_not_mem_ruleMembers declaration)]
    simp [hread]
  | .pseudo id selector styles, fuel, h => by
    obtain ⟨fuel, rfl⟩ := Value.exists_of_size_le h
    simp only [Token.toValue, Value.size, Value.sizeMembers] at h
    obtain ⟨read, hread, hnumber⟩ := exists_mapM_readRule styles fuel (by omega)
    -- The number of the block is not written, and numbering gives it a new one.
    refine ⟨.pseudo 0 selector read, ?_, fun next => by rw [numberToken, numberToken, hnumber]⟩
    rw [Token.toValue, readToken, Value.tagged_object _ (by simp)]
    simp [Value.fields, Value.objectFields, Value.member?, Value.text?,
      hread]
  | .condition name arguments styles, fuel, h => by
    obtain ⟨fuel, rfl⟩ := Value.exists_of_size_le h
    simp only [Token.toValue, Value.size, Value.sizeMembers] at h
    obtain ⟨read, hread, hnumber⟩ := exists_mapM_readToken styles fuel (by omega)
    refine ⟨.condition name arguments read, ?_,
      fun next => by rw [numberToken, numberToken, hnumber]⟩
    rw [Token.toValue, readToken, Value.tagged_object _ (by simp)]
    simp [Value.fields, Value.objectFields, Value.member?, Value.text?,
      hread, mapM_readArgument arguments fuel (by omega)]
  | .keyframes name steps, fuel, h => by
    obtain ⟨fuel, rfl⟩ := Value.exists_of_size_le h
    simp only [Token.toValue, Value.size, Value.sizeMembers] at h
    obtain ⟨read, hread, hnumber⟩ := exists_mapM_readStep steps fuel (by omega)
    refine ⟨.keyframes name read, ?_, fun next => by rw [numberToken, numberToken, hnumber]⟩
    rw [Token.toValue, readToken, Value.tagged_object _ (by simp)]
    simp [Value.fields, Value.objectFields, Value.member?, Value.text?,
      hread]

theorem exists_mapM_readToken : ∀ (tokens : List Token) (fuel : Nat),
    Value.sizeItems (tokenValues tokens) ≤ fuel →
    ∃ read, (tokenValues tokens).mapM (readToken fuel) = some read ∧
      ∀ next, number next read = number next tokens
  | [], fuel, h => ⟨[], rfl, fun _ => rfl⟩
  | token :: rest, fuel, h => by
    rw [tokenValues, Value.sizeItems] at h
    obtain ⟨first, hfirst, hnumber⟩ := exists_readToken token fuel (by omega)
    obtain ⟨others, hothers, hnumbers⟩ := exists_mapM_readToken rest fuel (by omega)
    refine ⟨first :: others, ?_, fun next => by
      rw [number_cons, number_cons, hnumber, hnumbers]⟩
    rw [tokenValues, List.mapM_cons, hfirst, hothers]
    rfl

theorem exists_readRule : ∀ (declaration : RuleOf Token) (fuel : Nat),
    (Value.object (ruleMembers declaration)).size ≤ fuel →
    ∃ read, readRule fuel (.object (ruleMembers declaration)) = some read ∧
      ∀ next, numberRule next read = numberRule next declaration
  | ⟨property, value, []⟩, fuel, h => by
    obtain ⟨fuel, rfl⟩ := Value.exists_of_size_le h
    simp only [ruleMembers, Value.size, Value.sizeMembers] at h
    refine ⟨⟨property, value, []⟩, ?_, fun _ => rfl⟩
    rw [ruleMembers, readRule]
    simp [Value.fields, Value.objectFields, Value.member?, Value.text?,
      readList_groupValues value fuel (by omega)]
  | ⟨property, value, token :: tokens⟩, fuel, h => by
    obtain ⟨fuel, rfl⟩ := Value.exists_of_size_le h
    simp only [ruleMembers, Value.size, Value.sizeMembers, Value.sizeItems] at h
    obtain ⟨first, hfirst, hnumber⟩ := exists_readToken token fuel (by omega)
    obtain ⟨others, hothers, hnumbers⟩ := exists_mapM_readToken tokens fuel (by omega)
    refine ⟨⟨property, value, first :: others⟩, ?_, fun next => by
      rw [numberRule, numberRule, number_cons, number_cons, hnumber, hnumbers]⟩
    rw [ruleMembers, readRule]
    simp [Value.fields, Value.objectFields, Value.member?, Value.text?,
      readList_groupValues value fuel (by omega), hfirst, hothers]

theorem exists_mapM_readRule : ∀ (styles : List (RuleOf Token)) (fuel : Nat),
    Value.sizeItems (ruleValues styles) ≤ fuel →
    ∃ read, (ruleValues styles).mapM (readRule fuel) = some read ∧
      ∀ next, numberRules next read = numberRules next styles
  | [], fuel, h => ⟨[], rfl, fun _ => rfl⟩
  | declaration :: rest, fuel, h => by
    rw [ruleValues, Value.sizeItems] at h
    obtain ⟨first, hfirst, hnumber⟩ := exists_readRule declaration fuel (by omega)
    obtain ⟨others, hothers, hnumbers⟩ := exists_mapM_readRule rest fuel (by omega)
    refine ⟨first :: others, ?_, fun next => by
      rw [numberRules_cons, numberRules_cons, hnumber, hnumbers]⟩
    rw [ruleValues, List.mapM_cons, hfirst, hothers]
    rfl

theorem exists_readStep : ∀ (step : StepOf Token) (fuel : Nat), (stepValue step).size ≤ fuel →
    ∃ read, readStep fuel (stepValue step) = some read ∧
      ∀ next, numberStep next read = numberStep next step
  | ⟨name, styles⟩, fuel, h => by
    obtain ⟨fuel, rfl⟩ := Value.exists_of_size_le h
    simp only [stepValue, Value.size, Value.sizeMembers] at h
    obtain ⟨read, hread, hnumber⟩ := exists_mapM_readRule styles fuel (by omega)
    refine ⟨⟨name, read⟩, ?_, fun next => by rw [numberStep, numberStep, hnumber]⟩
    rw [stepValue, readStep]
    simp [Value.fields, Value.objectFields, Value.member?, Value.text?,
      hread]

theorem exists_mapM_readStep : ∀ (steps : List (StepOf Token)) (fuel : Nat),
    Value.sizeItems (stepValues steps) ≤ fuel →
    ∃ read, (stepValues steps).mapM (readStep fuel) = some read ∧
      ∀ next, numberSteps next read = numberSteps next steps
  | [], fuel, h => ⟨[], rfl, fun _ => rfl⟩
  | step :: rest, fuel, h => by
    rw [stepValues, Value.sizeItems] at h
    obtain ⟨first, hfirst, hnumber⟩ := exists_readStep step fuel (by omega)
    obtain ⟨others, hothers, hnumbers⟩ := exists_mapM_readStep rest fuel (by omega)
    refine ⟨first :: others, ?_, fun next => by
      rw [numberSteps_cons, numberSteps_cons, hnumber, hnumbers]⟩
    rw [stepValues, List.mapM_cons, hfirst, hothers]
    rfl

end

/-! ### Numbers -/

mutual

/-- Of two numberings the second counts. -/
theorem number_number (next before : Nat) : ∀ tokens : List Token,
    number next (number before tokens).1 = number next tokens
  | [] => rfl
  | token :: rest => by
    rw [number_cons, number_cons, number_cons, numberToken_numberToken, number_number]

theorem numberToken_numberToken (next before : Nat) : ∀ token : Token,
    numberToken next (numberToken before token).1 = numberToken next token
  | .rule declaration => by
    rw [numberToken, numberToken, numberToken, numberRule_numberRule]
  | .pseudo _ _ styles => by
    rw [numberToken, numberToken, numberToken, numberRules_numberRules]
  | .condition _ _ styles => by rw [numberToken, numberToken, numberToken, number_number]
  | .keyframes _ steps => by
    rw [numberToken, numberToken, numberToken, numberSteps_numberSteps]

theorem numberRule_numberRule (next before : Nat) : ∀ declaration : RuleOf Token,
    numberRule next (numberRule before declaration).1 = numberRule next declaration
  | ⟨_, _, styles⟩ => by rw [numberRule, numberRule, numberRule, number_number]

theorem numberRules_numberRules (next before : Nat) : ∀ styles : List (RuleOf Token),
    numberRules next (numberRules before styles).1 = numberRules next styles
  | [] => rfl
  | declaration :: rest => by
    rw [numberRules_cons, numberRules_cons, numberRules_cons, numberRule_numberRule,
      numberRules_numberRules]

theorem numberStep_numberStep (next before : Nat) : ∀ step : StepOf Token,
    numberStep next (numberStep before step).1 = numberStep next step
  | ⟨_, styles⟩ => by rw [numberStep, numberStep, numberStep, numberRules_numberRules]

theorem numberSteps_numberSteps (next before : Nat) : ∀ steps : List (StepOf Token),
    numberSteps next (numberSteps before steps).1 = numberSteps next steps
  | [] => rfl
  | step :: rest => by
    rw [numberSteps_cons, numberSteps_cons, numberSteps_cons, numberStep_numberStep,
      numberSteps_numberSteps]

end

mutual

/-- Written trees do not show how they are numbered. -/
theorem tokenValues_number (next : Nat) : ∀ tokens : List Token,
    tokenValues (number next tokens).1 = tokenValues tokens
  | [] => rfl
  | token :: rest => by
    rw [number_cons, tokenValues, tokenValues, toValue_numberToken, tokenValues_number]

theorem toValue_numberToken (next : Nat) : ∀ token : Token,
    (numberToken next token).1.toValue = token.toValue
  | .rule declaration => by
    rw [numberToken, Token.toValue, Token.toValue, ruleMembers_numberRule]
  | .pseudo _ _ styles => by
    rw [numberToken, Token.toValue, Token.toValue, ruleValues_numberRules]
  | .condition _ _ styles => by rw [numberToken, Token.toValue, Token.toValue, tokenValues_number]
  | .keyframes _ steps => by
    rw [numberToken, Token.toValue, Token.toValue, stepValues_numberSteps]

theorem ruleMembers_numberRule (next : Nat) : ∀ declaration : RuleOf Token,
    ruleMembers (numberRule next declaration).1 = ruleMembers declaration
  | ⟨_, _, []⟩ => rfl
  | ⟨_, _, token :: rest⟩ => by
    rw [numberRule, number_cons, ruleMembers, ruleMembers, toValue_numberToken,
      tokenValues_number]

theorem ruleValues_numberRules (next : Nat) : ∀ styles : List (RuleOf Token),
    ruleValues (numberRules next styles).1 = ruleValues styles
  | [] => rfl
  | declaration :: rest => by
    rw [numberRules_cons, ruleValues, ruleValues, ruleMembers_numberRule, ruleValues_numberRules]

theorem stepValue_numberStep (next : Nat) : ∀ step : StepOf Token,
    stepValue (numberStep next step).1 = stepValue step
  | ⟨_, styles⟩ => by rw [numberStep, stepValue, stepValue, ruleValues_numberRules]

theorem stepValues_numberSteps (next : Nat) : ∀ steps : List (StepOf Token),
    stepValues (numberSteps next steps).1 = stepValues steps
  | [] => rfl
  | step :: rest => by
    rw [numberSteps_cons, stepValues, stepValues, stepValue_numberStep, stepValues_numberSteps]

end

end Token

namespace TokenDocument

/-- Reading the list of written tokens gives the tokens, but for their numbers. -/
theorem exists_readTokens (tokens : List Token) :
    ∃ read, Token.readTokens (.array (tokenValues tokens)) = some read ∧
      Token.number 0 read = Token.number 0 tokens := by
  have hsize : Value.sizeItems (tokenValues tokens) ≤ (Value.array (tokenValues tokens)).size := by
    rw [Value.size]
    omega
  obtain ⟨read, hread, hnumber⟩ := Token.exists_mapM_readToken tokens _ hsize
  exact ⟨read, hread, hnumber 0⟩

/-- The tokens of a document are numbered from zero. -/
theorem number_tokens {value : Value} {document : TokenDocument}
    (h : ofValue? value = some document) :
    (Token.number 0 document.tokens).1 = document.tokens := by
  have hof : ∀ tokens grid,
      (Token.number 0 (ofTokens tokens grid).tokens).1 = (ofTokens tokens grid).tokens := by
    intro tokens grid
    rw [ofTokens, Token.number_number]
  unfold ofValue? at h
  split at h
  · split at h
    · simp only [bind, Option.bind_eq_some_iff, pure, Option.some.injEq] at h
      obtain ⟨grid, -, tokens, -, rfl⟩ := h
      exact hof tokens grid
    · exact absurd h (Option.some_ne_none _).symm
  · obtain ⟨tokens, -, rfl⟩ := Option.map_eq_some_iff.1 h
    exact hof tokens none

/-- The value of a text that is a document. -/
theorem exists_ofValue_of_parse {source : String} {document : TokenDocument}
    (h : parse source = .ok document) : ∃ value, ofValue? value = some document := by
  unfold parse at h
  split at h
  · cases h
  · cases h
  · next value _ =>
    split at h
    · next hvalue =>
      rw [Except.ok.injEq] at h
      exact ⟨value, h ▸ hvalue⟩
    · cases h

/-- Written `tokens` are read as the tokens `read`: as a list, and as the tokens of an object,
whatever grid that declares and whatever else it has. -/
structure ReadAs (tokens read : List Token) : Prop where
  /-- The list of written tokens is a document that declares no grid. -/
  list : ofValue? (.array (tokenValues tokens)) = some ⟨read, none⟩
  /-- An object with written tokens is a document with the grid that it declares. -/
  object : ∀ members grid declared, Value.objectFields ["grid", "tokens"] members =
    some [grid, some (.array (tokenValues tokens))] → readGrid grid = some declared →
    ofValue? (.object members) = some ⟨read, declared⟩

/-- Written tokens are read with their blocks numbered from zero. -/
theorem readAs_number (tokens : List Token) : ReadAs tokens (Token.number 0 tokens).1 := by
  obtain ⟨read, hread, hnumber⟩ := exists_readTokens tokens
  constructor
  · rw [ofValue?, hread, Option.map_some, ofTokens, hnumber]
    intro members
    exact Value.noConfusion
  · intro members grid declared hfields hgrid
    rw [ofValue?, hfields]
    simp only [bind, Option.bind, pure, hgrid, hread, ofTokens, hnumber]

end TokenDocument

/-- Writing tokens and reading them gives the same tokens. For tokens of any shape this is so up to
the numbers of their pseudo blocks, which are not written, so that the blocks are numbered from
zero. For the tokens of a document that was loaded from a text, however that was spelled, it is so
exactly. -/
theorem written_tokens_read :
    (∀ tokens, TokenDocument.ReadAs tokens (Token.number 0 tokens).1 ∧
      tokenValues (Token.number 0 tokens).1 = tokenValues tokens) ∧
    ∀ source document, TokenDocument.parse source = .ok document →
      TokenDocument.ReadAs document.tokens document.tokens := by
  refine ⟨fun tokens => ⟨TokenDocument.readAs_number tokens, Token.tokenValues_number 0 tokens⟩, ?_⟩
  intro source document h
  obtain ⟨value, hvalue⟩ := TokenDocument.exists_ofValue_of_parse h
  have hread := TokenDocument.readAs_number document.tokens
  rw [TokenDocument.number_tokens hvalue] at hread
  exact hread

/-- A block in a loose spelling: its rule has no kind and its call a bare argument and no position,
and a field is unknown. -/
def looseSpelling : String :=
  "[\x7btype:'pseudo',selector:':host',styles:[\x7bproperty:'--n',value:[[\x7btype:'func'," ++
  "name:'@p',arguments:[[]]\x7d]],seen:1\x7d]\x7d]"

/-- The block is loaded. Written again it is read as it is, also in an object that declares a
grid. -/
theorem written_tokens_read_loose : ∃ document,
    TokenDocument.parse looseSpelling = .ok document ∧ document.tokens.length = 1 ∧
    TokenDocument.ofValue? (.array (tokenValues document.tokens)) =
      some ⟨document.tokens, none⟩ ∧
    TokenDocument.ofValue? (.object [("tokens", .array (tokenValues document.tokens)),
      ("grid", .text "3x2"), ("author", .null)]) =
        some ⟨document.tokens, some (GridSize.ofText "3x2")⟩ := by
  have hlength : ((TokenDocument.parse looseSpelling).toOption.map fun d => d.tokens.length) =
      some 1 := by decide +kernel
  cases h : TokenDocument.parse looseSpelling with
  | error e =>
    rw [h] at hlength
    exact absurd hlength.symm (Option.some_ne_none _)
  | ok document =>
    rw [h] at hlength
    have hread := written_tokens_read.2 looseSpelling document h
    exact ⟨document, rfl, Option.some.inj hlength, hread.list,
      hread.object _ (some (.text "3x2")) _ rfl rfl⟩

end GridStyle
