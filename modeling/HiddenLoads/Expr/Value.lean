/-
# HiddenLoads.Expr.Value -- what an expression says without being run

Given the literals that names are known to hold, an expression may stand for a text
(`Expr.literal?`), a tree of `+` may fold into one (`Expr.fold`), an array may list pieces of
one (`Expr.pieces`), and a chain of member accesses or the callee of a call may have a dotted
name (`Expr.segments`, `Expr.callee?`).
-/
import HiddenLoads.Bindings
import HiddenLoads.Expr

namespace HiddenLoads

set_option autoImplicit false

namespace Expr

/-- The operator that joins strings. -/
def plus : Text := "+"

/-- The text that an expression is, or is known to hold. -/
def literal? (known : Bindings Text) : Expr → Option Text
  | .string _ value => some value
  | .identifier _ name => known.get? name
  | _ => none

/-- The piece of text that an array element contributes: a string that is not empty, the
character with a number, or the literal that a name holds. -/
def piece? (known : Bindings Text) : Expr → Option Text
  | .string _ value => if value = [] then none else some value
  | .number _ value => value.charCode?.map fun c => [c]
  | .identifier _ name => known.get? name
  | _ => none

/-- The pieces of text in an array, none in other expressions. -/
def pieces (known : Bindings Text) : Expr → List Text
  | .array _ elements => elements.filterMap (piece? known)
  | _ => []

/-! ## Folding -/

inductive Ending where
  /-- Every operand was folded. -/
  | complete
  /-- An operand is missing; what follows it is not looked at. -/
  | cutShort
  /-- This expression is no literal. -/
  | blocked (e : Expr)
deriving Repr

structure Folding where
  fragments : List Text
  ending : Ending
deriving Repr

namespace Folding

def resolved (f : Folding) : Bool :=
  match f.ending with
  | .blocked _ => false
  | _ => true

def value (f : Folding) : Text := f.fragments.flatten

def value? (f : Folding) : Option Text := if f.resolved then some f.value else none

def blockedAt? (f : Folding) : Option Expr :=
  match f.ending with
  | .blocked e => some e
  | _ => none

end Folding

/-- The texts that an operand of `+` contributes. -/
def foldLeaf (known : Bindings Text) : Expr → Except Failure Folding
  | .missing => .ok ⟨[], .cutShort⟩
  | .number _ value => do .ok ⟨[← value.format], .complete⟩
  | .array span elements => .ok ⟨pieces known (.array span elements), .complete⟩
  | e =>
      match literal? known e with
      | some text => .ok ⟨[text], .complete⟩
      | none => .ok ⟨[], .blocked e⟩

/-- The expressions on a stack folded from its top on, behind the texts in `done`, the last of which
comes first.  A `+` gives way to its operands, the left one on top. -/
def foldFrom (known : Bindings Text) :
    (fuel : Nat) → (stack : List Expr) → (done : List Text) → Except Failure Folding
  | _, [], done | 0, _ :: _, done => .ok ⟨done.reverse, .complete⟩
  | fuel + 1, .binary span operator left right :: stack, done =>
      if operator = plus then foldFrom known fuel (left :: right :: stack) done
      else .ok ⟨done.reverse, .blocked (.binary span operator left right)⟩
  | fuel + 1, e :: stack, done => do
      let leaf ← foldLeaf known e
      let done := leaf.fragments.reverse ++ done
      match leaf.ending with
      | .complete => foldFrom known fuel stack done
      | ending => .ok ⟨done.reverse, ending⟩

/-- A tree of `+` folded from left to right up to the first operand that is no literal.  Every
expression in it comes to the top of the stack once at most. -/
def fold (known : Bindings Text) (e : Expr) : Except Failure Folding :=
  foldFrom known e.size [e] []

/-- The text of a `+` that folds, or of another expression that is a literal. -/
def text? (known : Bindings Text) : Expr → Except Failure (Option Text)
  | .binary span operator left right =>
      if operator = plus then do .ok (← fold known (.binary span operator left right)).value?
      else .ok none
  | e => .ok (literal? known e)

/-! ## Names -/

def propertyName? (known : Bindings Text) (property : Expr) (computed : Bool) :
    Except Failure (Option Text) :=
  match computed, property with
  | false, .identifier _ name => .ok (some name)
  | false, _ => .ok none
  | true, .number _ value => do .ok (some (← value.format))
  | true, e => text? known e

/-- The names along a chain of member accesses, those left out that cannot be told. -/
def segments (known : Bindings Text) : Expr → Except Failure (List Text)
  | .member _ object property computed => do
      let name ← propertyName? known property computed
      .ok ((← segments known object) ++ name.toList)
  | .identifier _ name => .ok [name]
  | .string _ value => .ok [value]
  | _ => .ok []

/-- Segments with dots between them; nothing if that is no text at all. -/
def dotted? (names : List Text) : Option Text :=
  let name := Text.joinWith '.' names
  if name = [] then none else some name

def name? (known : Bindings Text) : Expr → Except Failure (Option Text)
  | .identifier _ name => .ok (some name)
  | .member span object property computed => do
      .ok (dotted? (← segments known (.member span object property computed)))
  | _ => .ok none

/-- The dotted name of what a call invokes.  If that is a call again, its name is the answer
when `through` is set. -/
def callee? (known : Bindings Text) (through : Bool) : Expr → Except Failure (Option Text)
  | .call _ (.call span callee arguments) _ =>
      if through then callee? known through (.call span callee arguments) else .ok none
  | .call _ callee _ => name? known callee
  | _ => .ok none

def literals (known : Bindings Text) (arguments : List Expr) : List Text :=
  arguments.filterMap (literal? known)

end Expr

end HiddenLoads
