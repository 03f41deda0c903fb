/-
# HiddenLoads.Text.Blank -- blank code points and trimming

Blank are the Unicode white-space characters together with the four separators U+001C to
U+001F.  U+200B, U+FEFF and U+180E are not blank.  `Text.strip` drops the blanks at both
ends, and a text is blank when nothing is left.
-/
import HiddenLoads.Text

namespace HiddenLoads

set_option autoImplicit false

/-- The ranges of blank code points, in increasing order, ends included. -/
def CodePoint.blankRanges : List (Nat × Nat) := [
    (0x9, 0xD), (0x1C, 0x20), (0x85, 0x85), (0xA0, 0xA0), (0x1680, 0x1680), (0x2000, 0x200A),
    (0x2028, 0x2029), (0x202F, 0x202F), (0x205F, 0x205F), (0x3000, 0x3000)]

/-- White space and the information separators. -/
def CodePoint.isBlank (c : CodePoint) : Bool :=
  CodePoint.blankRanges.any fun range => range.1 ≤ c.val && c.val ≤ range.2

namespace Text

def stripRight (t : Text) : Text := (t.reverse.dropWhile CodePoint.isBlank).reverse

def strip (t : Text) : Text := stripRight (t.dropWhile CodePoint.isBlank)

def isBlank (t : Text) : Bool := t.all CodePoint.isBlank

/-- A trimmed text is blank only if nothing is left of it. -/
theorem isBlank_strip (t : Text) : (strip t).isBlank = decide (strip t = []) := by
  rw [strip, stripRight, isBlank, List.all_reverse]
  simp only [List.reverse_eq_nil_iff]
  generalize (t.dropWhile CodePoint.isBlank).reverse = u
  have first := List.head?_dropWhile_not CodePoint.isBlank u
  cases kept : u.dropWhile CodePoint.isBlank with
  | nil => rfl
  | cons c rest =>
      rw [kept] at first
      have solid : c.isBlank = false := first
      simp [solid]

end Text

end HiddenLoads
