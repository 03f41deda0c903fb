/-
# HiddenLoads.Literal.StringBody -- what a string literal says

The body of a string literal is the text between its quotes.  `StringBody.unescape` replaces
its escapes: `\u{..}` with any number of hexadecimal digits (nothing, if the number is no code
point), `\uHHHH`, `\xHH`, octal escapes up to `\377`, the single letters `n t r b f v`, and
line continuations, which vanish.  A backslash before anything else vanishes, and one at the
very end stays.  `StringBody.decode` then pairs surrogates that stand side by side and shows
the others as U+FFFD.
-/
import HiddenLoads.Text.Utf16

namespace HiddenLoads

set_option autoImplicit false

namespace StringBody

/-- The text of an escape, and how many code points after the backslash belong to it. -/
structure Escape where
  text : Text
  used : Nat
deriving DecidableEq, Repr

/-- The number that digits of a base write, other code points counting as zero. -/
def valueOf (base : Nat) (digits : Text) : Nat :=
  digits.foldl (fun n c => n * base + c.hexValue?.getD 0) 0

def point (n : Nat) : Text := (CodePoint.ofNat? n).toList

/-- An escape by number after `\u`. -/
def unicode (rest : Text) : Escape :=
  let digits := (rest.drop 1).takeWhile CodePoint.isHexDigit
  if rest.head? = some 0x7B ∧ digits ≠ [] ∧ (rest.drop (1 + digits.length)).head? = some 0x7D then
    ⟨point (valueOf 16 digits), digits.length + 3⟩
  else if 4 ≤ rest.length ∧ (rest.take 4).all CodePoint.isHexDigit then
    ⟨point (valueOf 16 (rest.take 4)), 5⟩
  else ⟨"u", 1⟩

def hexadecimal (rest : Text) : Escape :=
  if 2 ≤ rest.length ∧ (rest.take 2).all CodePoint.isHexDigit then
    ⟨point (valueOf 16 (rest.take 2)), 3⟩
  else ⟨"x", 1⟩

/-- An octal escape that begins with `c`: up to three digits, and up to two from `4` on. -/
def octal (c : CodePoint) (rest : Text) : Escape :=
  let most := if c.val ≤ 0x33 then 2 else 1
  let digits := c :: (rest.take most).takeWhile CodePoint.isOctalDigit
  ⟨point (valueOf 8 digits), digits.length⟩

/-- The letters that stand for one control character each. -/
def letter? (c : CodePoint) : Option CodePoint :=
  if c = 'n' then some 0x0A
  else if c = 't' then some 0x09
  else if c = 'r' then some 0x0D
  else if c = 'b' then some 0x08
  else if c = 'f' then some 0x0C
  else if c = 'v' then some 0x0B
  else none

def isLineEnd (c : CodePoint) : Bool :=
  c.val = 0x0A || c.val = 0x0D || c.val = 0x2028 || c.val = 0x2029

/-- The escape that a backslash begins before `c` and `rest`. -/
def escape (c : CodePoint) (rest : Text) : Escape :=
  if c = 'u' then unicode rest
  else if c = 'x' then hexadecimal rest
  else if c.isOctalDigit then octal c rest
  else if c.val = 0x0D ∧ rest.head? = some 0x0A then ⟨[], 2⟩
  else if isLineEnd c then ⟨[], 1⟩
  else ⟨[(letter? c).getD c], 1⟩

/-- The text with its escapes replaced; its first `skip` code points belong to an escape that
has been read already. -/
def unescapeFrom : (skip : Nat) → Text → Text
  | _, [] => []
  | skip + 1, _ :: rest => unescapeFrom skip rest
  | 0, c :: rest =>
      if c = CodePoint.backslash then
        match rest with
        | [] => [c]
        | d :: more => (escape d more).text ++ unescapeFrom (escape d more).used rest
      else c :: unescapeFrom 0 rest

def unescape (body : Text) : Text := unescapeFrom 0 body

def decode (body : Text) : Text := (unescape body).mendSurrogates

end StringBody

end HiddenLoads
