/-
# HiddenLoads.Number.Literal -- number literals of the source

A literal may hold underscores, end in the mark `n` of big integers, and name its base by
`0x`, `0o` or `0b`.  A zero before octal digits alone makes an octal number.  A point or an
`e` makes it a binary64 value, and everything else is a decimal integer.
-/
import HiddenLoads.Number

namespace HiddenLoads

set_option autoImplicit false

namespace Number

/-- A literal without underscores, in small letters, and without the mark of big integers. -/
def bareLiteral (raw : Text) : Text :=
  let text : Text := (raw.filter (· ≠ CodePoint.ofChar '_')).map CodePoint.asciiLower
  if text.endsIn 'n' then text.dropLast else text

def namesBase (t : Text) : Bool :=
  (Text.ofString "0x").isPrefixOf t || (Text.ofString "0o").isPrefixOf t ||
    (Text.ofString "0b").isPrefixOf t

/-- A zero and at least one more digit, all of them octal. -/
def isLegacyOctal (t : Text) : Bool :=
  t.length > 1 && t.beginsIn '0' && t.all CodePoint.isOctalDigit

def ofLiteral? (raw : Text) : Option Number :=
  let text := bareLiteral raw
  if namesBase text then (Numeral.based? text).map fun n => .integer n
  else if isLegacyOctal text then (Numeral.digits? 8 text).map fun n => .integer n
  else if text.contains (CodePoint.ofChar '.') || text.contains (CodePoint.ofChar 'e') then
    (Numeral.binary64? text).map .float
  else (Numeral.integer? text).map .integer

end Number

end HiddenLoads
