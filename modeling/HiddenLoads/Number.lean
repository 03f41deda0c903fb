/-
# HiddenLoads.Number -- numbers of the analysed program

A number is an integer of any size or a binary64 value; the two stay apart, `1e3` is not the
integer `1000`.  `Number.format` is the text that joining a number to a string gives, and
`Number.charCode?` the character that a number selects.
-/
import HiddenLoads.Failure
import HiddenLoads.Number.Decimal
import HiddenLoads.Number.Shortest

namespace HiddenLoads

set_option autoImplicit false

/-- A number as the source writes it. -/
inductive Number where
  | integer (n : Int)
  | float (x : Binary64)
deriving DecidableEq, Repr

namespace Number

/-- An integer in decimal, refused beyond the digit limit. -/
def formatInt (n : Int) : Except Failure Text :=
  if (Text.ofNat n.natAbs).length > Numeral.digitLimit then .error .tooManyDigits
  else .ok (Text.ofInt n)

/-- The text of a number in a string: whole values without a point, others by their shortest
digits. -/
def format : Number → Except Failure Text
  | .integer n => formatInt n
  | .float .nan => .ok "NaN"
  | .float (.infinite negative) => .ok (if negative then "-Infinity" else "Infinity")
  | .float x =>
      match x.toInt? with
      | some n => formatInt n
      | none => .ok x.toText

def toInt? : Number → Option Int
  | .integer n => some n
  | .float x => x.toInt?

def charCode? (n : Number) : Option CodePoint :=
  n.toInt?.bind fun i => if i < 0 then none else CodePoint.ofNat? i.toNat

end Number

end HiddenLoads
