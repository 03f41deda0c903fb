/-
# HiddenLoads.Span -- where something stands in a source

Lines count from one, columns count octets from zero.
-/
import HiddenLoads.Text

namespace HiddenLoads

set_option autoImplicit false

structure Span where
  startLine : Nat
  startColumn : Nat
  endLine : Nat
  endColumn : Nat
deriving DecidableEq, Repr

namespace Span

/-- The span of what stands nowhere. -/
def unknown : Span := ⟨0, 0, 0, 0⟩

/-- The start of a span as `line:column`. -/
def toText (s : Span) : Text :=
  Text.ofNat s.startLine ++ CodePoint.ofChar ':' :: Text.ofNat s.startColumn

end Span

end HiddenLoads
