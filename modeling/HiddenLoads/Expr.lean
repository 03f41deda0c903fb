/-
# HiddenLoads.Expr -- expressions as the analysis sees them

A syntax tree is converted once into expressions of a few forms: names, literals, `+` and
other binary operations, calls, member accesses, destructuring patterns, declarations,
assignments and imports.  Everything else is `Expr.other`, kept so that calls inside it are
still reached.  String escapes are decoded, and every expression knows where it stands.

A tree that lacks a part it should have leaves `Expr.missing` in its place.
-/
import HiddenLoads.Number
import HiddenLoads.Span
import HiddenLoads.Tree.Kind

namespace HiddenLoads

set_option autoImplicit false

/-- One entry of a destructuring pattern: the key that is read and the name that it gets. -/
structure Entry where
  key : Text
  name : Text
deriving DecidableEq, Repr

inductive Expr where
  /-- Nothing, where the tree lacks a part. -/
  | missing
  /-- A name. -/
  | identifier (span : Span) (name : Text)
  /-- A string with its escapes decoded. -/
  | string (span : Span) (value : Text)
  /-- A number. -/
  | number (span : Span) (value : Number)
  /-- `[a, b]`. -/
  | array (span : Span) (elements : List Expr)
  /-- `left + right`, and other operators. -/
  | binary (span : Span) (operator : Text) (left right : Expr)
  /-- `callee(a, b)`. -/
  | call (span : Span) (callee : Expr) (arguments : List Expr)
  /-- `object.property`, or `object[property]` when computed. -/
  | member (span : Span) (object property : Expr) (computed : Bool)
  /-- `{ key: name }` as the target of an assignment. -/
  | pattern (span : Span) (entries : List Entry)
  /-- `let target`. -/
  | declaration (span : Span) (target : Expr)
  /-- `let target = value`. -/
  | definition (span : Span) (target value : Expr)
  /-- `target = value`, `target += value`, and other operators. -/
  | assignment (span : Span) (operator : Text) (target value : Expr)
  /-- `import ... from source` and `export ... from source`. -/
  | importFrom (span : Span) (source : Expr)
  /-- Any other kind of row. -/
  | other (span : Span) (kind : Kind) (nested : List Expr)
deriving Repr, Inhabited

namespace Expr

/-- The expressions directly inside, in source order. -/
def children : Expr → List Expr
  | .missing | .identifier .. | .string .. | .number .. | .pattern .. => []
  | .array _ elements => elements
  | .binary _ _ left right => [left, right]
  | .call _ callee arguments => callee :: arguments
  | .member _ object property _ => [object, property]
  | .declaration _ target => [target]
  | .definition _ target value => [target, value]
  | .assignment _ _ target value => [target, value]
  | .importFrom _ source => [source]
  | .other _ _ nested => nested

def span : Expr → Span
  | .missing => .unknown
  | .identifier span _ | .string span _ | .number span _ | .array span _ | .binary span _ _ _
  | .call span _ _ | .member span _ _ _ | .pattern span _ | .declaration span _
  | .definition span _ _ | .assignment span _ _ _ | .importFrom span _ | .other span _ _ => span

def isMissing : Expr → Bool
  | .missing => true
  | _ => false

mutual

def size : Expr → Nat
  | .missing | .identifier .. | .string .. | .number .. | .pattern .. => 1
  | .array _ elements => sizeAll elements + 1
  | .binary _ _ left right => size left + size right + 1
  | .call _ callee arguments => size callee + sizeAll arguments + 1
  | .member _ object property _ => size object + size property + 1
  | .declaration _ target => size target + 1
  | .definition _ target value => size target + size value + 1
  | .assignment _ _ target value => size target + size value + 1
  | .importFrom _ source => size source + 1
  | .other _ _ nested => sizeAll nested + 1

def sizeAll : List Expr → Nat
  | [] => 0
  | e :: es => size e + sizeAll es

end

/-- An expression is one larger than the expressions directly inside it. -/
theorem size_eq (e : Expr) : e.size = sizeAll e.children + 1 := by
  cases e <;> simp [size, sizeAll, children]

/-- The sizes of two lists add up. -/
theorem sizeAll_append (as bs : List Expr) : sizeAll (as ++ bs) = sizeAll as + sizeAll bs := by
  induction as with
  | nil => simp [sizeAll]
  | cons a as ih => simp [sizeAll, ih]; omega

end Expr

end HiddenLoads
