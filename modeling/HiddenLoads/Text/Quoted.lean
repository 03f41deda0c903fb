/-
# HiddenLoads.Text.Quoted -- text between quotes in a message

A quoted text stands between single quotes, or between double quotes if it holds a single
quote and no double one.  The backslash and the enclosing quote are escaped, so are line
feed, tab and carriage return, and all other unprintable code points are written by number.
-/
import HiddenLoads.Text.Printable

namespace HiddenLoads

set_option autoImplicit false

namespace Text

/-- The last `width` hexadecimal digits of a number. -/
def hexDigits : (width : Nat) → Nat → Text
  | 0, _ => []
  | width + 1, n => hexDigits width (n / 16) ++ [CodePoint.ofDigit (n % 16)]

/-- One code point as it stands between quotes of the kind `mark`. -/
def quotedPoint (mark c : CodePoint) : Text :=
  if c = CodePoint.backslash || c = mark then [CodePoint.backslash, c]
  else if c = '\n' then "\\n"
  else if c = '\t' then "\\t"
  else if c = '\r' then "\\r"
  else if c.isPrintable then [c]
  else if c.val < 0x100 then ofString "\\x" ++ hexDigits 2 c.val
  else if c.val < 0x10000 then ofString "\\u" ++ hexDigits 4 c.val
  else ofString "\\U" ++ hexDigits 8 c.val

def quoteMark (t : Text) : CodePoint :=
  if t.contains CodePoint.apostrophe && !t.contains CodePoint.doubleQuote then .doubleQuote
  else .apostrophe

def quoted (t : Text) : Text :=
  quoteMark t :: t.flatMap (quotedPoint (quoteMark t)) ++ [quoteMark t]

end Text

end HiddenLoads
