/-
# HiddenLoads.Proofs.Places -- the places inside an expression

What stands inside an expression is said in two ways.  `Expr.at?` follows the way to a place,
the number of a child at every step, and tells equal expressions at different places apart.
`Expr.within` lists all expressions in source order, so that what is asked of every one of them
can be decided.  By `Expr.mem_within` the two speak of the same expressions.
-/
import HiddenLoads.Expr

namespace HiddenLoads

set_option autoImplicit false

namespace Expr

/-- The expression at a place, which is given by the way to it: the number of a child, of a
child of that child, and so on. -/
def at? : Expr → List Nat → Option Expr
  | e, [] => some e
  | e, i :: path => e.children[i]?.bind fun child => child.at? path

theorem at?_cons (e : Expr) (i : Nat) (path : List Nat) :
    e.at? (i :: path) = e.children[i]?.bind fun child => child.at? path := rfl

theorem at?_append (e : Expr) (path path' : List Nat) :
    e.at? (path ++ path') = (e.at? path).bind fun inner => inner.at? path' := by
  induction path generalizing e with
  | nil => rfl
  | cons i path ih =>
      rw [List.cons_append, at?_cons, at?_cons]
      cases e.children[i]? with
      | none => rfl
      | some child => exact ih child

/-! A recursion from an expression to its children as a list, and from a list to its head and its
tail, ends by the size, with the list in front of an expression of the same size. -/

theorem children_lex (e : Expr) :
    Prod.Lex (· < ·) (· < ·) (sizeAll e.children, 1) (e.size, 0) := by
  rw [e.size_eq]
  exact .left _ _ (Nat.lt_succ_self _)

theorem head_lex (e : Expr) (es : List Expr) :
    Prod.Lex (· < ·) (· < ·) (e.size, 0) (sizeAll (e :: es), 1) := by
  rw [sizeAll, Prod.lex_def]
  simp only
  omega

theorem tail_lex (e : Expr) (es : List Expr) :
    Prod.Lex (· < ·) (· < ·) (sizeAll es, 1) (sizeAll (e :: es), 1) := by
  have positive := e.size_eq
  rw [sizeAll]
  exact .left _ _ (by omega)

mutual

def within : Expr → List Expr
  | .missing => [.missing]
  | .identifier span name => [.identifier span name]
  | .string span value => [.string span value]
  | .number span value => [.number span value]
  | .pattern span entries => [.pattern span entries]
  | .array span elements => .array span elements :: withinAll elements
  | .binary span operator left right =>
      .binary span operator left right :: (within left ++ within right)
  | .call span callee arguments =>
      .call span callee arguments :: (within callee ++ withinAll arguments)
  | .member span object property computed =>
      .member span object property computed :: (within object ++ within property)
  | .declaration span target => .declaration span target :: within target
  | .definition span target value =>
      .definition span target value :: (within target ++ within value)
  | .assignment span operator target value =>
      .assignment span operator target value :: (within target ++ within value)
  | .importFrom span source => .importFrom span source :: within source
  | .other span kind nested => .other span kind nested :: withinAll nested

def withinAll : List Expr → List Expr
  | [] => []
  | e :: es => within e ++ withinAll es

end

theorem within_eq (e : Expr) : e.within = e :: withinAll e.children := by
  cases e <;> simp [within, withinAll, children]

theorem mem_withinAll {es : List Expr} {e : Expr} :
    e ∈ withinAll es ↔ ∃ child ∈ es, e ∈ child.within := by
  induction es with
  | nil => simp [withinAll]
  | cons child es ih => simp [withinAll, ih]

theorem self_mem_within (e : Expr) : e ∈ e.within := by
  rw [within_eq]
  exact List.mem_cons_self

theorem size_lt_of_mem_children {e child : Expr} (inside : child ∈ e.children) :
    child.size < e.size := by
  have smaller : ∀ {es : List Expr}, child ∈ es → child.size ≤ sizeAll es := by
    intro es inside
    induction es with
    | nil => cases inside
    | cons other es ih =>
        rcases List.mem_cons.1 inside with rfl | inside
        · exact Nat.le_add_right _ _
        · exact Nat.le_trans (ih inside) (Nat.le_add_left _ _)
  rw [e.size_eq]
  exact Nat.lt_succ_of_le (smaller inside)

/-- The expressions of the list are those at the places. -/
theorem mem_within {e inner : Expr} : inner ∈ e.within ↔ ∃ path, e.at? path = some inner := by
  rw [within_eq, List.mem_cons, mem_withinAll]
  constructor
  · rintro (rfl | ⟨child, isChild, inside⟩)
    · exact ⟨[], rfl⟩
    · have smaller := size_lt_of_mem_children isChild
      obtain ⟨path, place⟩ := mem_within.1 inside
      obtain ⟨i, number⟩ := List.mem_iff_getElem?.1 isChild
      exact ⟨i :: path, by rw [at?_cons, number, Option.bind_some, place]⟩
  · rintro ⟨path, place⟩
    cases path with
    | nil => exact .inl (Option.some.inj place).symm
    | cons i path =>
        rw [at?_cons] at place
        obtain ⟨child, number, place⟩ := Option.bind_eq_some_iff.1 place
        have isChild := List.mem_of_getElem? number
        have smaller := size_lt_of_mem_children isChild
        exact .inr ⟨child, isChild, mem_within.2 ⟨path, place⟩⟩
termination_by e.size

theorem within_subset_of_mem {e inner : Expr} (inside : inner ∈ e.within) :
    inner.within ⊆ e.within := by
  intro innermost isInnermost
  obtain ⟨path, place⟩ := mem_within.1 inside
  obtain ⟨path', place'⟩ := mem_within.1 isInnermost
  exact mem_within.2 ⟨path ++ path', by rw [at?_append, place, Option.bind_some, place']⟩

theorem within_subset_of_mem_children {e child : Expr} (inside : child ∈ e.children) :
    child.within ⊆ e.within := by
  intro inner isInner
  rw [within_eq, List.mem_cons, mem_withinAll]
  exact .inr ⟨child, inside, isInner⟩

end Expr

end HiddenLoads
