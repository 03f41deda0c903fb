/-
# HiddenLoads.Literal.Base64 -- text hidden in base64

Decoding takes four steps.  What belongs to neither alphabet is removed, padding included, and the
rest is put into the plain alphabet (`Base64.clean`).  The digits are padded to whole groups of four
(`Base64.pad`).  The groups are read as octets (`Base64.read`), which fails if the last of them is
left unfinished, and the octets are read as UTF-8.
-/
import HiddenLoads.Text.Utf8

namespace HiddenLoads

set_option autoImplicit false

namespace Base64

def padding : CodePoint := '='

/-! ## Digits -/

/-- The digits of the plain and the URL-safe alphabet. -/
def isDigit (c : CodePoint) : Bool :=
  (0x41 ≤ c.val && c.val ≤ 0x5A) || (0x61 ≤ c.val && c.val ≤ 0x7A) ||
    (0x30 ≤ c.val && c.val ≤ 0x39) || c == '+' || c == '/' || c == '-' || c == '_'

/-- A URL-safe digit in its plain form. -/
def plain (c : CodePoint) : CodePoint :=
  if c = '-' then '+' else if c = '_' then '/' else c

def clean (t : Text) : Text := (t.filter isDigit).map plain

/-- Whole groups of four. -/
def pad (t : Text) : Text := t ++ List.replicate ((4 - t.length % 4) % 4) padding

/-- The value of a digit of the plain alphabet. -/
def sextet? (c : CodePoint) : Option Nat :=
  if 0x41 ≤ c.val ∧ c.val ≤ 0x5A then some (c.val - 0x41)
  else if 0x61 ≤ c.val ∧ c.val ≤ 0x7A then some (c.val - 0x47)
  else if 0x30 ≤ c.val ∧ c.val ≤ 0x39 then some (c.val + 4)
  else if c = '+' then some 62
  else if c = '/' then some 63
  else none

/-! ## Octets -/

inductive Fault where
  /-- A group ends with its first digit, which has too few bits for an octet. -/
  | extraDigit
  /-- A group ends with its second or third digit, and padding does not fill it. -/
  | incorrectPadding
deriving DecidableEq, Repr

/-- How far a group of four digits has been read, with the bits that no octet has taken yet. -/
inductive Group where
  | empty
  | one (bits : Nat)
  | two (bits : Nat)
  | three (bits : Nat)

namespace Group

def size : Group → Nat
  | .empty => 0
  | .one _ => 1
  | .two _ => 2
  | .three _ => 3

/-- The octet that the next digit completes, and the group with that digit. -/
def push (sextet : Nat) : Group → Option UInt8 × Group
  | .empty => (none, .one sextet)
  | .one bits => (some (bits * 4 + sextet / 16).toUInt8, .two (sextet % 16))
  | .two bits => (some (bits * 16 + sextet / 4).toUInt8, .three (sextet % 4))
  | .three bits => (some (bits * 64 + sextet).toUInt8, .empty)

def close : Group → Except Fault (List UInt8)
  | .empty => .ok []
  | .one _ => .error .extraDigit
  | .two _ | .three _ => .error .incorrectPadding

end Group

/-- The octets of a text from a place inside a group on, behind `pads` paddings in a row.  Padding
counts from the second digit of a group on, and nothing is read behind one that fills the group.
What is no digit is passed over. -/
def readFrom (group : Group) (pads : Nat) : Text → Except Fault (List UInt8)
  | [] => group.close
  | c :: t =>
      if c = padding then
        if group.size < 2 then readFrom group pads t
        else if group.size + (pads + 1) < 4 then readFrom group (pads + 1) t
        else .ok []
      else match sextet? c with
        | none => readFrom group pads t
        | some sextet => do
            let (octet?, group) := group.push sextet
            .ok (octet?.toList ++ (← readFrom group 0 t))

def read (t : Text) : Except Fault (List UInt8) := readFrom .empty 0 t

def decode? (t : Text) : Option Text := (read (pad (clean t))).toOption.map Utf8.decodeLossy

end Base64

end HiddenLoads
