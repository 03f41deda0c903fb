/-
# HiddenLoads.Json.Writer -- writing JSON

Values are written on lines of their own, two blanks deeper at each level, and empty arrays and
objects as `[]` and braces.  All code points outside the printable part of ASCII are escaped,
those above U+FFFF as a pair.
-/
import HiddenLoads.Json
import HiddenLoads.Text.Quoted
import HiddenLoads.Text.Utf16

namespace HiddenLoads

set_option autoImplicit false

namespace Json

def writePoint (c : CodePoint) : Text :=
  if c = CodePoint.doubleQuote ∨ c = CodePoint.backslash then [CodePoint.backslash, c]
  else if 0x20 ≤ c.val ∧ c.val ≤ 0x7E then [c]
  else if c.val = 0x0A then "\\n"
  else if c.val = 0x0D then "\\r"
  else if c.val = 0x09 then "\\t"
  else if c.val = 0x0C then "\\f"
  else if c.val = 0x08 then "\\b"
  else (Utf16.encodePoint c).flatMap fun u => Text.ofString "\\u" ++ Text.hexDigits 4 u.toNat

def writeString (s : Text) : Text :=
  CodePoint.doubleQuote :: s.flatMap writePoint ++ [CodePoint.doubleQuote]

def writeNumber : Number → Text
  | .integer n => Text.ofInt n
  | .float .nan => "NaN"
  | .float (.infinite negative) => if negative then "-Infinity" else "Infinity"
  | .float x => x.toText

def newLine (depth : Nat) : Text := 0x0A :: List.replicate (2 * depth) 0x20

/-- Items between brackets, each on a line of its own. -/
def bracketed (opening closing : CodePoint) (depth : Nat) (items : List Text) : Text :=
  if items.isEmpty then [opening, closing]
  else
    let lines := items.map (newLine (depth + 1) ++ ·)
    opening :: (List.intersperse (Text.ofString ",") lines).flatten ++ newLine depth ++ [closing]

mutual

def write (depth : Nat) : Json → Text
  | .null => "null"
  | .bool b => if b then "true" else "false"
  | .number n => writeNumber n
  | .string s => writeString s
  | .array items => bracketed 0x5B 0x5D depth (writeItems (depth + 1) items)
  | .object fields => bracketed 0x7B 0x7D depth (writeFields (depth + 1) fields)

def writeItems (depth : Nat) : List Json → List Text
  | [] => []
  | item :: items => write depth item :: writeItems depth items

def writeFields (depth : Nat) : List (Text × Json) → List Text
  | [] => []
  | (key, value) :: fields =>
      (writeString key ++ Text.ofString ": " ++ write depth value) :: writeFields depth fields

end

def toText (j : Json) : Text := write 0 j

end Json

end HiddenLoads
