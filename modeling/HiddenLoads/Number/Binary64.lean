/-
# HiddenLoads.Number.Binary64 -- binary64 values and rounding to them

A finite value is `± mantissa · 2 ^ exponent` with a mantissa below `2 ^ 53` and an exponent
of at least `-1074`; the mantissa is at least `2 ^ 52` unless the exponent is the least one,
so every value is written in one way.  All arithmetic is exact arithmetic of natural numbers.

`Binary64.ofRatio` rounds a quotient to the nearest value, a tie to the even mantissa, and
answers infinity from halfway above the greatest finite value on.
-/
namespace HiddenLoads

set_option autoImplicit false

/-- A binary64 value, negative zero included. -/
inductive Binary64 where
  | finite (negative : Bool) (mantissa : Nat) (exponent : Int)
  | infinite (negative : Bool)
  | nan
deriving DecidableEq, Repr

namespace Binary64

def leastExponent : Int := -1074

def greatestExponent : Int := 971

def zero (negative : Bool) : Binary64 := .finite negative 0 leastExponent

/-- `numerator / denominator` to the nearest integer, a tie to the even one. -/
def roundDiv (numerator denominator : Nat) : Nat :=
  let quotient := numerator / denominator
  let twice := 2 * (numerator % denominator)
  if twice < denominator then quotient
  else if twice > denominator then quotient + 1
  else quotient + quotient % 2

/-- `numerator / (denominator · 2 ^ shift)` as a quotient of natural numbers. -/
def shifted (numerator denominator : Nat) (shift : Int) : Nat × Nat :=
  (numerator * Nat.pow 2 (-shift).toNat, denominator * Nat.pow 2 shift.toNat)

/-- The greatest `k` with `2 ^ k ≤ numerator / denominator`, both being positive. -/
def floorLog (numerator denominator : Nat) : Int :=
  let guess : Int := (numerator.log2 : Int) - (denominator.log2 : Int)
  let scaled := shifted numerator denominator guess
  if scaled.1 < scaled.2 then guess - 1 else guess

/-- The value nearest to `± numerator / denominator`. -/
def ofRatio (negative : Bool) (numerator denominator : Nat) : Binary64 :=
  if numerator = 0 then zero negative
  else
    let exponent := max (floorLog numerator denominator - 52) leastExponent
    let scaled := shifted numerator denominator exponent
    let mantissa := roundDiv scaled.1 scaled.2
    let carried := mantissa = Nat.pow 2 53
    let mantissa := if carried then Nat.pow 2 52 else mantissa
    let exponent := if carried then exponent + 1 else exponent
    if exponent > greatestExponent then .infinite negative
    else .finite negative mantissa exponent

/-- The value nearest to `± digits · 10 ^ exponent`.  Exponents so large or small that they
alone decide the answer are never raised to a power. -/
def ofDecimal (negative : Bool) (digits : Nat) (exponent : Int) : Binary64 :=
  let magnitude := ((Nat.toDigits 10 digits).length : Int) + exponent
  if digits = 0 then zero negative
  else if magnitude > 310 then .infinite negative
  else if magnitude < -330 then zero negative
  else ofRatio negative (digits * Nat.pow 10 exponent.toNat) (Nat.pow 10 (-exponent).toNat)

def toInt? : Binary64 → Option Int
  | .finite negative mantissa exponent =>
      let scaled := shifted mantissa 1 (-exponent)
      if scaled.1 % scaled.2 = 0 then
        let n : Int := (scaled.1 / scaled.2 : Nat)
        some (if negative then -n else n)
      else none
  | _ => none

end Binary64

end HiddenLoads
