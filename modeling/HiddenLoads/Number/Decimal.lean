/-
# HiddenLoads.Number.Decimal -- reading integers and decimals

Numbers may stand between blanks and be written in the digits of any script.  `Numeral.plain?`
brings such a text into ASCII.  Integers are an optional sign and digits, single underscores
between digits being allowed; no more than `Numeral.digitLimit` decimal digits are read.
Decimals are an optional sign, digits with an optional point, and an optional exponent, or one
of the words for infinity and for what is not a number.
-/
import HiddenLoads.Text.Blank
import HiddenLoads.Text.Digit
import HiddenLoads.Number.Binary64

namespace HiddenLoads

set_option autoImplicit false

namespace Numeral

/-- The most decimal digits that an integer is read from, or written with. -/
def digitLimit : Nat := 4300

def isSpace (c : CodePoint) : Bool := c.val = 0x20 || (0x09 ≤ c.val && c.val ≤ 0x0D)

/-- One code point of a number in ASCII: digits of any script as plain digits, blanks beyond
ASCII as spaces, and nothing for other code points beyond ASCII. -/
def plainPoint? (c : CodePoint) : Option CodePoint :=
  if c.val < 0x7F then some c
  else if c.isBlank then some 0x20
  else c.decimal?.map CodePoint.ofDigit

def trim (t : Text) : Text :=
  ((t.dropWhile isSpace).reverse.dropWhile isSpace).reverse

/-- The text of a number in ASCII, without surrounding blanks. -/
def plain? (t : Text) : Option Text := (t.mapM plainPoint?).map trim

/-- The value of digits of a base up to sixteen; some digit is needed. -/
def digits? (base : Nat) : Text → Option Nat
  | [] => none
  | t => t.foldlM (fun n c => do
      let d ← c.hexValue?
      if d < base then some (n * base + d) else none) 0

def sign : Text → Bool × Text
  | [] => (false, [])
  | c :: rest =>
      if c = '-' then (true, rest) else if c = '+' then (false, rest) else (false, c :: rest)

def signed (negative : Bool) (n : Nat) : Int := if negative then -(n : Int) else n

/-- Digits without the single underscores between them. -/
def joined? (t : Text) : Option Text :=
  let pieces := t.splitOn '_'
  if pieces.any List.isEmpty then none else some pieces.flatten

def integer? (t : Text) : Option Int := do
  let plain ← plain? t
  let (negative, body) := sign plain
  let body ← joined? body
  if body.length > digitLimit then none
  else (digits? 10 body).map (signed negative)

/-- An integer with the base in front: `0x`, `0o` or `0b`. -/
def based? (t : Text) : Option Nat := do
  match ← plain? t with
  | mark :: base :: body =>
      if mark = '0' then
        if base = 'x' then digits? 16 body
        else if base = 'o' then digits? 8 body
        else if base = 'b' then digits? 2 body
        else none
      else none
  | _ => none

def exponent? : Text → Option Int
  | [] => some 0
  | c :: rest =>
      if c.asciiLower = 'e' then
        let (negative, body) := sign rest
        (digits? 10 body).map (signed negative)
      else none

/-- An unsigned decimal: whole digits, fraction digits and exponent. -/
def magnitude? (negative : Bool) (t : Text) : Option Binary64 := do
  let whole := t.takeWhile CodePoint.isAsciiDigit
  let rest := t.dropWhile CodePoint.isAsciiDigit
  let (fraction, rest) :=
    match rest with
    | [] => ([], [])
    | c :: after =>
        if c = '.' then
          (after.takeWhile CodePoint.isAsciiDigit, after.dropWhile CodePoint.isAsciiDigit)
        else ([], c :: after)
  let coefficient ← digits? 10 (whole ++ fraction)
  let exponent ← exponent? rest
  some (Binary64.ofDecimal negative coefficient (exponent - fraction.length))

def binary64? (t : Text) : Option Binary64 := do
  let (negative, body) := sign (← plain? t)
  let word := body.map CodePoint.asciiLower
  if word = "inf" || word = "infinity" then some (.infinite negative)
  else if word = "nan" then some .nan
  else magnitude? negative body

end Numeral

end HiddenLoads
