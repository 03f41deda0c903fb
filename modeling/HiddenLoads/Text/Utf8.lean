/-
# HiddenLoads.Text.Utf8 -- text and its octets

`Utf8.encode` writes a text without surrogates; `Utf8.encode?` refuses one with surrogates.

Reading runs a machine over the octets (`Utf8.scan`).  It answers a code point for each
well-formed sequence and `none` for each maximal ill-formed part: the longest beginning of
a sequence that the next octet, or the end, cuts off.  The octet that cuts it off is read
again as the beginning of something new.  `Utf8.decodeLossy` shows each such part as one
U+FFFD and `Utf8.decode` refuses them all: it tells where the first one stands, and why it is
none (`Utf8.faultFrom`).
-/
import HiddenLoads.Text

namespace HiddenLoads

set_option autoImplicit false

namespace Utf8

/-! ## Writing -/

def encodePoint (c : CodePoint) : List UInt8 :=
  let v := c.val
  if v < 0x80 then [v.toUInt8]
  else if v < 0x800 then [(0xC0 + v / 0x40).toUInt8, (0x80 + v % 0x40).toUInt8]
  else if v < 0x10000 then
    [(0xE0 + v / 0x1000).toUInt8, (0x80 + v / 0x40 % 0x40).toUInt8, (0x80 + v % 0x40).toUInt8]
  else
    [(0xF0 + v / 0x40000).toUInt8, (0x80 + v / 0x1000 % 0x40).toUInt8,
      (0x80 + v / 0x40 % 0x40).toUInt8, (0x80 + v % 0x40).toUInt8]

def encode (t : Text) : List UInt8 := t.flatMap encodePoint

/-- The octets of a text that holds no surrogate. -/
def encode? (t : Text) : Option (List UInt8) :=
  if t.any CodePoint.isSurrogate then none else some (encode t)

/-! ## Reading -/

/-- A sequence of which some octets have been read: the bits so far, how many octets are
still owed, and the least and greatest octet that may come next. -/
structure Pending where
  bits : Nat
  owed : Nat
  least : Nat
  greatest : Nat
deriving DecidableEq, Repr

/-- What an octet does at the beginning of a sequence. -/
inductive Lead where
  | single (c : CodePoint)
  | opens (p : Pending)
  | invalid
deriving DecidableEq, Repr

def lead (b : UInt8) : Lead :=
  let v := b.toNat
  if h : v < 0x80 then .single ⟨v, by omega⟩
  else if v < 0xC2 then .invalid
  else if v < 0xE0 then .opens ⟨v - 0xC0, 1, 0x80, 0xBF⟩
  else if v = 0xE0 then .opens ⟨0, 2, 0xA0, 0xBF⟩
  else if v = 0xED then .opens ⟨0xD, 2, 0x80, 0x9F⟩
  else if v < 0xF0 then .opens ⟨v - 0xE0, 2, 0x80, 0xBF⟩
  else if v = 0xF0 then .opens ⟨0, 3, 0x90, 0xBF⟩
  else if v < 0xF4 then .opens ⟨v - 0xF0, 3, 0x80, 0xBF⟩
  else if v = 0xF4 then .opens ⟨4, 3, 0x80, 0x8F⟩
  else .invalid

def Pending.accepts (p : Pending) (b : UInt8) : Bool :=
  p.least ≤ b.toNat && b.toNat ≤ p.greatest

def Pending.push (p : Pending) (b : UInt8) : Pending :=
  ⟨p.bits * 0x40 + b.toNat % 0x40, p.owed - 1, 0x80, 0xBF⟩

/-- The code points of some octets after a sequence that is under way, with `none` for each
maximal ill-formed part. -/
def scan : Option Pending → List UInt8 → List (Option CodePoint)
  | none, [] => []
  | some _, [] => [none]
  | none, b :: rest =>
      match lead b with
      | .single c => some c :: scan none rest
      | .opens p => scan (some p) rest
      | .invalid => none :: scan none rest
  | some p, b :: rest =>
      if p.accepts b then
        if p.owed = 1 then CodePoint.ofNat? (p.push b).bits :: scan none rest
        else scan (some (p.push b)) rest
      else
        none :: match lead b with
          | .single c => some c :: scan none rest
          | .opens q => scan (some q) rest
          | .invalid => none :: scan none rest

/-- The text of some octets, one U+FFFD for each maximal ill-formed part. -/
def decodeLossy (bytes : List UInt8) : Text :=
  (scan none bytes).map (·.getD CodePoint.replacement)

/-! ## Faults -/

inductive Reason where
  /-- No sequence begins with the octet. -/
  | start
  /-- The octet behind them does not go on with the sequence. -/
  | continuation
  /-- Nothing is behind them. -/
  | ending
deriving DecidableEq, Repr

/-- An ill-formed part: how many octets stand before it, its octets, and the reason. -/
structure Fault where
  position : Nat
  octets : List UInt8
  reason : Reason
deriving DecidableEq, Repr

/-- The first ill-formed part of some octets, of which `position` stand before a sequence that
is under way and `seen` belong to it. -/
def faultFrom (position : Nat) (seen : List UInt8) :
    Option Pending → List UInt8 → Option Fault
  | none, [] => none
  | some _, [] => some ⟨position, seen, .ending⟩
  | none, b :: rest =>
      match lead b with
      | .single _ => faultFrom (position + 1) [] none rest
      | .opens p => faultFrom position [b] (some p) rest
      | .invalid => some ⟨position, [b], .start⟩
  | some p, b :: rest =>
      if p.accepts b then
        if p.owed = 1 then faultFrom (position + seen.length + 1) [] none rest
        else faultFrom position (seen ++ [b]) (some (p.push b)) rest
      else some ⟨position, seen, .continuation⟩

def decode (bytes : List UInt8) : Except Fault Text :=
  match faultFrom 0 [] none bytes with
  | some fault => .error fault
  | none => .ok (decodeLossy bytes)

end Utf8

end HiddenLoads
