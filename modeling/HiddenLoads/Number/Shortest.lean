/-
# HiddenLoads.Number.Shortest -- the shortest decimal that reads back

A decimal reads back as a binary64 value when it lies between the midpoints to the two
neighbouring values, a midpoint itself counting when the mantissa is even.  For one, two, up
to seventeen digits `Shortest.digits` tries the two decimals of that many digits that enclose
the value; the first length with a hit wins, of two hits the nearer, and of two equally near
ones the even.

`Binary64.toText` writes these digits positionally from `0.0001` up to, and not including,
`1e16`, always with a decimal point, and with a signed exponent of at least two digits
elsewhere.
-/
import HiddenLoads.Text
import HiddenLoads.Number.Binary64

namespace HiddenLoads

set_option autoImplicit false

namespace Shortest

structure Decimal where
  coefficient : Nat
  exponent : Int
deriving DecidableEq, Repr

/-- The interval of a value in quarters of its unit: `low`, the value itself and `high`, all
times `2 ^ scale`; the ends count when `closed`. -/
structure Interval where
  low : Nat
  mid : Nat
  high : Nat
  scale : Int
  closed : Bool
deriving DecidableEq, Repr

def interval (mantissa : Nat) (exponent : Int) : Interval :=
  let narrow := mantissa = Nat.pow 2 52 ∧ exponent > Binary64.leastExponent
  { low := if narrow then 4 * mantissa - 1 else 4 * mantissa - 2
    mid := 4 * mantissa
    high := 4 * mantissa + 2
    scale := exponent - 2
    closed := mantissa % 2 = 0 }

/-- The factors `u` and `w` such that `x · 2 ^ scale` compares with `c · 10 ^ exponent` as
`x · u` does with `c · w`. -/
def factors (scale exponent : Int) : Nat × Nat :=
  (Nat.pow 2 scale.toNat * Nat.pow 10 (-exponent).toNat,
    Nat.pow 2 (-scale).toNat * Nat.pow 10 exponent.toNat)

def contains (i : Interval) (exponent : Int) (c : Nat) : Bool :=
  let f := factors i.scale exponent
  if i.closed then i.low * f.1 ≤ c * f.2 && c * f.2 ≤ i.high * f.1
  else i.low * f.1 < c * f.2 && c * f.2 < i.high * f.1

/-- The better of the two multiples of `10 ^ exponent` around the value, if one reads back. -/
def onGrid (i : Interval) (exponent : Int) : Option Nat :=
  let f := factors i.scale exponent
  let below := i.mid * f.1 / f.2
  let above := below + 1
  let fromBelow := i.mid * f.1 - below * f.2
  let fromAbove := above * f.2 - i.mid * f.1
  match contains i exponent below, contains i exponent above with
  | false, false => none
  | true, false => some below
  | false, true => some above
  | true, true =>
      if fromBelow < fromAbove then some below
      else if fromAbove < fromBelow then some above
      else if below % 2 = 0 then some below else some above

def reaches (i : Interval) (exponent : Int) : Bool :=
  let f := factors i.scale exponent
  f.2 ≤ i.mid * f.1

def floorLog10 (i : Interval) : Int :=
  let guess := ((i.mid.log2 : Int) + i.scale) * 30103 / 100000
  if reaches i (guess + 1) then guess + 1
  else if reaches i guess then guess
  else guess - 1

/-- The decimal without zeros at the end of its coefficient, for at most `fuel` zeros. -/
def trim : (fuel : Nat) → Decimal → Decimal
  | 0, d => d
  | fuel + 1, d =>
      if d.coefficient % 10 = 0 then trim fuel ⟨d.coefficient / 10, d.exponent + 1⟩ else d

/-- The shortest decimal that rounds to `mantissa · 2 ^ exponent`, nearest to it among the
shortest ones; the mantissa is positive. -/
def digits (mantissa : Nat) (exponent : Int) : Decimal :=
  let i := interval mantissa exponent
  let top := floorLog10 i
  let found := (List.range 17).findSome? fun (n : Nat) =>
    (onGrid i (top - n)).map fun c => (⟨c, top - n⟩ : Decimal)
  trim 20 (found.getD ⟨mantissa, exponent⟩)

end Shortest

namespace Binary64

def twoDigits (n : Nat) : Text :=
  if n < 10 then CodePoint.ofChar '0' :: Text.ofNat n else Text.ofNat n

def layout (d : Shortest.Decimal) : Text :=
  let digits := Text.ofNat d.coefficient
  let point : Int := digits.length + d.exponent
  if -4 < point ∧ point ≤ 16 then
    if point ≤ 0 then
      Text.ofString "0." ++ List.replicate (-point).toNat (CodePoint.ofChar '0') ++ digits
    else
      let whole := digits.take point.toNat
      let rest := digits.drop point.toNat
      whole ++ List.replicate (point.toNat - whole.length) (CodePoint.ofChar '0') ++
        CodePoint.ofChar '.' :: (if rest.isEmpty then Text.ofString "0" else rest)
  else
    let rest := digits.drop 1
    let power := point - 1
    digits.take 1 ++ (if rest.isEmpty then [] else CodePoint.ofChar '.' :: rest) ++
      CodePoint.ofChar 'e' :: CodePoint.ofChar (if power < 0 then '-' else '+') ::
        twoDigits power.natAbs

/-- A value as the shortest text that reads back. -/
def toText : Binary64 → Text
  | .nan => "nan"
  | .infinite negative => if negative then "-inf" else "inf"
  | .finite negative mantissa exponent =>
      (if negative then Text.ofString "-" else []) ++
        (if mantissa = 0 then Text.ofString "0.0" else layout (Shortest.digits mantissa exponent))

end Binary64

end HiddenLoads
