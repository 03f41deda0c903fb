/-
# HiddenLoads.Source -- the octets of a source file

Rows of a syntax tree point into the source by octet offset.  `Source.text` is what stands
between two offsets, and `Source.span` says where it stands: the line is the number of line
feeds before the offset, the column the number of octets since the last of them.  The points
of all offsets are laid out once per source.
-/
import HiddenLoads.Span
import HiddenLoads.Text.Utf8

namespace HiddenLoads

set_option autoImplicit false

/-- A line, counted from zero, and a column. -/
structure Point where
  line : Nat
  column : Nat
deriving DecidableEq, Repr, Inhabited

namespace Point

/-- The point behind an octet. -/
def advance (p : Point) (b : UInt8) : Point :=
  if b = 0x0A then ⟨p.line + 1, 0⟩ else ⟨p.line, p.column + 1⟩

/-- The points before each octet and behind the last one. -/
def trail : Point → List UInt8 → List Point
  | p, [] => [p]
  | p, b :: rest => p :: trail (p.advance b) rest

end Point

/-- The octets of a file with the points of all offsets. -/
structure Source where
  bytes : Array UInt8
  points : Array Point
  points_eq : points = (Point.trail ⟨0, 0⟩ bytes.toList).toArray

namespace Source

def ofBytes (bytes : List UInt8) : Source :=
  ⟨bytes.toArray, (Point.trail ⟨0, 0⟩ bytes).toArray, by simp⟩

def text (s : Source) (start stop : Nat) : Text :=
  Utf8.decodeLossy (s.bytes.extract start stop).toList

/-- The point at an offset; offsets behind the end are at the end. -/
def point (s : Source) (offset : Nat) : Point :=
  (s.points[min offset s.bytes.size]?).getD ⟨0, 0⟩

def span (s : Source) (start stop : Nat) : Span :=
  ⟨(s.point start).line + 1, (s.point start).column, (s.point stop).line + 1, (s.point stop).column⟩

end Source

end HiddenLoads
