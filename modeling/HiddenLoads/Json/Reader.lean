/-
# HiddenLoads.Json.Reader -- reading JSON

The reader takes plain JSON and three words more: `NaN`, `Infinity` and `-Infinity`.  Numbers
with a fraction or an exponent are binary64 values, all others integers, which may not have more
digits than `Numeral.digitLimit`.  Of equal keys the last value counts.  Two escaped surrogates
that form a pair are one code point, others stay as they are.  How
deep arrays and objects may nest is up to the caller.

Every reading function gives back the rest of the text; `fuel` bounds the number of steps and
is twice the length of the text, and `room` is how much deeper arrays and objects may nest.
-/
import HiddenLoads.Json
import HiddenLoads.Text.Utf16

namespace HiddenLoads

set_option autoImplicit false

namespace Json

inductive ReadError where
  | malformed
  | tooManyDigits
  | tooDeep
deriving DecidableEq, Repr

def isSpace (c : CodePoint) : Bool :=
  c.val = 0x20 || c.val = 0x09 || c.val = 0x0A || c.val = 0x0D

def skipSpace (t : Text) : Text := t.dropWhile isSpace

/-! ## Strings -/

def escape? (c : CodePoint) : Option CodePoint :=
  if c = CodePoint.doubleQuote ∨ c = CodePoint.backslash ∨ c = '/' then some c
  else if c = 'b' then some 0x08
  else if c = 'f' then some 0x0C
  else if c = 'n' then some 0x0A
  else if c = 'r' then some 0x0D
  else if c = 't' then some 0x09
  else none

def hexPoint? (a b c d : CodePoint) : Option CodePoint := do
  let n := (← a.hexValue?) * 0x1000 + (← b.hexValue?) * 0x100 + (← c.hexValue?) * 0x10 +
    (← d.hexValue?)
  CodePoint.ofNat? n

/-- The code points of a string up to its closing quote, and the text behind it. -/
def readPoints : Text → Option (Text × Text)
  | [] => none
  | c :: rest =>
      if c = CodePoint.doubleQuote then some ([], rest)
      else if c = CodePoint.backslash then
        match rest with
        | [] => none
        | mark :: more =>
            if mark = 'u' then
              match more with
              | h₁ :: h₂ :: h₃ :: h₄ :: tail =>
                  match hexPoint? h₁ h₂ h₃ h₄ with
                  | some point => (readPoints tail).map fun read => (point :: read.1, read.2)
                  | none => none
              | _ => none
            else match escape? mark with
              | some point => (readPoints more).map fun read => (point :: read.1, read.2)
              | none => none
      else if c.val < 0x20 then none
      else (readPoints rest).map fun read => (c :: read.1, read.2)

/-- A text with surrogates that stand side by side paired, and the others as they are. -/
def joinPairs : Text → Text
  | [] => []
  | [c] => [c]
  | c :: d :: rest =>
      if c.isHighSurrogate && d.isLowSurrogate then
        Utf16.pair c.val.toUInt16 d.val.toUInt16 :: joinPairs rest
      else c :: joinPairs (d :: rest)

/-- A string behind its opening quote. -/
def readString (t : Text) : Except ReadError (Text × Text) :=
  match readPoints t with
  | some (points, rest) => .ok (joinPairs points, rest)
  | none => .error .malformed

/-! ## Numbers -/

/-- The whole digits of a number: a zero alone, or digits that do not begin with a zero. -/
def wholeDigits (t : Text) : Text :=
  if t.beginsIn '0' then t.take 1 else t.takeWhile CodePoint.isAsciiDigit

/-- The fraction at the front of a text, dot included, if a digit follows the dot. -/
def fraction (t : Text) : Text :=
  match t with
  | [] => []
  | c :: rest =>
      let digits := rest.takeWhile CodePoint.isAsciiDigit
      if c = '.' ∧ digits ≠ [] then c :: digits else []

/-- The exponent at the front of a text, mark included, if it has a digit. -/
def exponent (t : Text) : Text :=
  match t with
  | [] => []
  | c :: rest =>
      let sign := rest.takeWhile fun s => s = CodePoint.ofChar '+' || s = CodePoint.ofChar '-'
      let digits := (rest.drop sign.length).takeWhile CodePoint.isAsciiDigit
      if c.asciiLower = 'e' ∧ sign.length ≤ 1 ∧ digits ≠ [] then c :: (sign ++ digits) else []

def readNumber (t : Text) : Except ReadError (Json × Text) :=
  let sign := if t.beginsIn '-' then t.take 1 else []
  let unsigned := t.drop sign.length
  let whole := wholeDigits unsigned
  let dotted := fraction (unsigned.drop whole.length)
  let scaled := exponent (unsigned.drop (whole.length + dotted.length))
  let rest := unsigned.drop (whole.length + dotted.length + scaled.length)
  if whole = [] then .error .malformed
  else if dotted = [] ∧ scaled = [] then
    if whole.length > Numeral.digitLimit then .error .tooManyDigits
    else match Numeral.integer? (sign ++ whole) with
      | some n => .ok (.number (.integer n), rest)
      | none => .error .malformed
  else match Numeral.binary64? (sign ++ whole ++ dotted ++ scaled) with
    | some x => .ok (.number (.float x), rest)
    | none => .error .malformed

/-! ## Values -/

def words : List (Text × Json) := [
    ("null", .null), ("true", .bool true), ("false", .bool false), ("NaN", .number (.float .nan)),
    ("Infinity", .number (.float (.infinite false))),
    ("-Infinity", .number (.float (.infinite true)))]

def readWord? (t : Text) : Option (Json × Text) :=
  (words.find? fun word => word.1.isPrefixOf t).map fun word => (word.2, t.drop word.1.length)

/-- The fields with the value of a key set; a key that is there keeps its place. -/
def setField (fields : List (Text × Json)) (key : Text) (value : Json) : List (Text × Json) :=
  if fields.any fun field => field.1 = key then
    fields.map fun field => if field.1 = key then (key, value) else field
  else fields ++ [(key, value)]

mutual

def readValue : (fuel room : Nat) → Text → Except ReadError (Json × Text)
  | 0, _, _ => .error .malformed
  | fuel + 1, room, t =>
      match t with
      | [] => .error .malformed
      | c :: rest =>
          if c = CodePoint.doubleQuote then do
            let (s, rest) ← readString rest
            .ok (.string s, rest)
          else if c.val = 0x5B then
            match room, skipSpace rest with
            | 0, _ => .error .tooDeep
            | _, [] => .error .malformed
            | room + 1, d :: after =>
                if d.val = 0x5D then .ok (.array [], after)
                else readItems fuel room [] (d :: after)
          else if c.val = 0x7B then
            match room, skipSpace rest with
            | 0, _ => .error .tooDeep
            | _, [] => .error .malformed
            | room + 1, d :: after =>
                if d.val = 0x7D then .ok (.object [], after)
                else readFields fuel room [] (d :: after)
          else match readWord? (c :: rest) with
            | some read => .ok read
            | none => readNumber (c :: rest)

/-- The items of an array behind those in `done`, up to its closing bracket. -/
def readItems : (fuel room : Nat) → (done : List Json) → Text → Except ReadError (Json × Text)
  | 0, _, _, _ => .error .malformed
  | fuel + 1, room, done, t => do
      let (item, rest) ← readValue fuel room t
      match skipSpace rest with
      | [] => .error .malformed
      | c :: after =>
          if c = ',' then readItems fuel room (done ++ [item]) (skipSpace after)
          else if c.val = 0x5D then .ok (.array (done ++ [item]), after)
          else .error .malformed

def readFields :
    (fuel room : Nat) → (done : List (Text × Json)) → Text → Except ReadError (Json × Text)
  | 0, _, _, _ => .error .malformed
  | fuel + 1, room, done, t =>
      match t with
      | [] => .error .malformed
      | quote :: inside =>
          if quote ≠ CodePoint.doubleQuote then .error .malformed
          else do
            let (key, rest) ← readString inside
            match skipSpace rest with
            | [] => .error .malformed
            | colon :: after =>
                if colon ≠ ':' then .error .malformed
                else do
                  let (value, rest) ← readValue fuel room (skipSpace after)
                  match skipSpace rest with
                  | [] => .error .malformed
                  | c :: after =>
                      if c = ',' then
                        readFields fuel room (setField done key value) (skipSpace after)
                      else if c.val = 0x7D then .ok (.object (setField done key value), after)
                      else .error .malformed

end

/-- The value that a text writes, with blanks around it allowed. -/
def read (nesting : Nat) (t : Text) : Except ReadError Json := do
  let (value, rest) ← readValue (2 * t.length + 1) nesting (skipSpace t)
  if skipSpace rest = [] then .ok value else .error .malformed

end Json

end HiddenLoads
