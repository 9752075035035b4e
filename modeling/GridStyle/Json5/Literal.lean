import GridStyle.Decimal.Integer
import GridStyle.Json5.Value
import GridStyle.Text.Digit

/-!
# JSON5 Literals

The meaning of numbers and strings that the grammar has accepted. Not every such literal has a
value: a whole number may not fit, and escapes may leave half of a surrogate pair.
-/

namespace GridStyle.Json5

/-- Why a literal has no value. -/
inductive LiteralError where
  /-- A whole number beyond 64 bits, or one with a sign before a hexadecimal number. -/
  | wholeNumber
  /-- A hexadecimal number beyond 32 bits, or no hexadecimal digits where they are needed. -/
  | hexadecimal
  /-- A number with a power that cannot be read. -/
  | number
  /-- A number beyond the largest double. -/
  | tooLarge
  /-- A leading surrogate ends the string. -/
  | missingTrail
  /-- A trailing surrogate without a leading one. -/
  | unexpectedTrail
  /-- A leading surrogate before something that is not a trailing one. -/
  | expectedTrail
  deriving DecidableEq, Repr

/-- The message of a literal without value. -/
def LiteralError.text : LiteralError → String
  | .wholeNumber => "error parsing integer"
  | .hexadecimal => "error parsing hex"
  | .number => "error parsing number"
  | .tooLarge => "error parsing number: too large"
  | .missingTrail => "missing unicode trail surrogate"
  | .unexpectedTrail => "unexpected unicode trail surrogate"
  | .expectedTrail => "expecting unicode trail surrogate"

/-- A hexadecimal digit. -/
def isHexDigit (c : Char) : Bool := Text.isDigitOf 16 c

/-- The number of at most 32 bits that hexadecimal digits write. -/
def readHex (cs : List Char) : Except LiteralError Nat :=
  if cs.isEmpty || !cs.all isHexDigit then .error .hexadecimal
  else
    let n := Text.ofDigits 16 cs
    if n < Nat.pow 2 32 then .ok n else .error .hexadecimal

/-- The value of a number literal. Hexadecimal numbers and numbers without point and power are
whole. Only unsigned infinity, negative infinity and unsigned or negative NaN are words for
values; with a plus sign they are refused like a whole number. -/
def readNumber (cs : List Char) : Except LiteralError Value :=
  match cs with
  | '0' :: 'x' :: hex | '0' :: 'X' :: hex => (readHex hex).map fun n => .whole n
  | _ =>
    if ["Infinity", "-Infinity", "NaN", "-NaN"].contains (String.ofList cs) then
      .ok (.real ((Decimal.readFloat cs).getD 0.0))
    else if cs.any fun c => c == '.' || c == 'e' || c == 'E' then
      match Decimal.readFloat cs with
      | none => .error .number
      | some x => if x.isFinite then .ok (.real x) else .error .tooLarge
    else
      match Decimal.readSigned (Nat.pow 2 63) cs with
      | none => .error .wholeNumber
      | some n => .ok (.whole n)

/-- A piece of a string as the grammar delivers it. -/
inductive Piece where
  /-- A character that stands for itself. -/
  | plain (c : Char)
  /-- A backslash and a character. -/
  | escaped (c : Char)
  /-- The code of a character in two hexadecimal digits. -/
  | code (digits : List Char)
  /-- A unit of a character in four hexadecimal digits. -/
  | unit (digits : List Char)
  deriving DecidableEq, Repr

/-- The text of a piece without its marks. -/
def Piece.body : Piece → List Char
  | .plain c | .escaped c => [c]
  | .code digits | .unit digits => digits

/-- The character that a backslash and a character stand for. -/
def unescape : Char → Char
  | 'b' => '\x08'
  | 'f' => '\x0c'
  | 'n' => '\n'
  | 'r' => '\r'
  | 't' => '\t'
  | 'v' => '\x0b'
  | '0' => '\x00'
  | c => c

/-- The character that a leading and a trailing surrogate make up: ten bits of each under the bit
of value `0x10000`. That bit is set rather than added, so a pair whose own bits already have it
there stays in its plane. -/
def joinSurrogates (lead trail : Nat) : Char :=
  Char.ofNat (((lead - 0xD800) * 0x400 + (trail - 0xDC00)) ||| 0x10000)

/-- The characters of a string, latest first. A leading surrogate takes the piece after it as
its trailing one. -/
def readPieces (done : List Char) : List Piece → Except LiteralError (List Char)
  | [] => .ok done
  | .plain c :: rest => readPieces (c :: done) rest
  | .escaped c :: rest => readPieces (unescape c :: done) rest
  | .code digits :: rest => do
    let n ← readHex digits
    readPieces (Char.ofNat n :: done) rest
  | .unit digits :: rest => do
    let lead ← readHex digits
    if 0xDC00 ≤ lead && lead ≤ 0xDFFF then throw .unexpectedTrail
    else if 0xD800 ≤ lead && lead ≤ 0xDBFF then
      match rest with
      | [] => throw .missingTrail
      -- Whatever piece comes next, its text is read as hexadecimal digits.
      | next :: rest =>
        let trail ← readHex next.body
        if trail < 0xDC00 || 0xDFFF < trail then throw .expectedTrail
        else
          readPieces (joinSurrogates lead trail :: done) rest
    else readPieces (Char.ofNat lead :: done) rest

/-- The string that pieces make up. -/
def readString (pieces : List Piece) : Except LiteralError String :=
  (readPieces [] pieces).map fun cs => String.ofList cs.reverse

end GridStyle.Json5
