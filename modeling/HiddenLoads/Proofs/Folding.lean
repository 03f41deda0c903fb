/-
# HiddenLoads.Proofs.Folding -- a `+` folds operand by operand

`Expr.operands` lists what a tree of `+` joins, in source order and however the tree nests.
The stack of a fold stands for the operands of its entries, one entry after the other, and each turn
of the loop either folds the first of them or brings it closer to the top (`Expr.foldFrom_eq`).  So
folding the tree is folding that list from the left up to the first operand that stands in the way
(`Expr.fold_eq_foldAll`): nesting makes no difference, and the stack computes what recursion into
both sides would (`Expr.fold_sum`, `Expr.fold_leaf`).

If the operands are strings and names, folding never fails, and the text is that of all operands in
order, if each of them has one (`Expr.text?_of_textual`).
-/
import HiddenLoads.Expr.Value
import HiddenLoads.Proofs.Outcome

namespace HiddenLoads

set_option autoImplicit false

namespace Expr

/-- What a tree of `+` joins, in source order. -/
def operands : Expr → List Expr
  | .binary span operator left right =>
      if operator = plus then operands left ++ operands right
      else [.binary span operator left right]
  | e => [e]

namespace Folding

/-- Folding goes on behind what is folded so far, if nothing stood in the way. -/
def goOn (first : Folding) (rest : Except Failure Folding) : Except Failure Folding :=
  match first.ending with
  | .complete => rest >>= fun second => .ok ⟨first.fragments ++ second.fragments, second.ending⟩
  | _ => .ok first

theorem nil_goOn (rest : Except Failure Folding) : goOn ⟨[], .complete⟩ rest = rest := by
  cases rest <;> rfl

theorem goOn_goOn (first : Folding) (second third : Except Failure Folding) :
    first.goOn (second >>= fun s => s.goOn third) =
      first.goOn second >>= fun s => s.goOn third := by
  obtain ⟨fragments, ending⟩ := first
  -- What comes after a part matters only if the part is complete.
  cases ending with
  | complete =>
      cases second with
      | error f => rfl
      | ok s =>
          obtain ⟨more, ending⟩ := s
          cases ending with
          | complete =>
              cases third with
              | error f => rfl
              | ok t => simp [goOn]
          | _ => rfl
  | _ => rfl

end Folding

/-- Some operands folded from left to right, up to the first that stands in the way. -/
def foldAll (known : Bindings Text) : List Expr → Except Failure Folding
  | [] => .ok ⟨[], .complete⟩
  | e :: es => foldLeaf known e >>= fun first => first.goOn (foldAll known es)

theorem foldAll_append (known : Bindings Text) (es es' : List Expr) :
    foldAll known (es ++ es') =
      foldAll known es >>= fun first => first.goOn (foldAll known es') := by
  induction es with
  | nil => exact (Folding.nil_goOn _).symm
  | cons e es ih =>
      rw [List.cons_append, foldAll, foldAll, ih]
      cases foldLeaf known e with
      | error f => rfl
      | ok first => exact first.goOn_goOn _ _

theorem foldAll_singleton (known : Bindings Text) (e : Expr) :
    foldAll known [e] = foldLeaf known e := by
  rw [foldAll]
  cases foldLeaf known e with
  | error f => rfl
  | ok first =>
      obtain ⟨fragments, ending⟩ := first
      cases ending <;> simp [foldAll, Folding.goOn]

/-! ## The stack -/

theorem size_pos (e : Expr) : 0 < e.size := by
  rw [size_eq]
  exact Nat.succ_pos _

/-- **The invariant of the loop.**  What it still gives is what folding the operands on its stack adds
to the texts that are done.  Fuel that covers the stack is not used up. -/
theorem foldFrom_eq (known : Bindings Text) {fuel : Nat} {stack : List Expr}
    (enough : sizeAll stack ≤ fuel) (done : List Text) :
    foldFrom known fuel stack done =
      Folding.goOn ⟨done.reverse, .complete⟩ (foldAll known (stack.flatMap operands)) := by
  induction fuel, stack, done using foldFrom.induct with
  | case1 fuel done => simp [foldFrom, foldAll, Folding.goOn]
  | case2 e stack done =>
      have := e.size_pos
      simp only [sizeAll] at enough
      omega
  | case3 fuel span left right stack done ih =>
      -- The operands of a `+` on top are those of its two sides, in the order they are put there.
      have fits : sizeAll (left :: right :: stack) ≤ fuel := by
        simp only [sizeAll, size] at enough ⊢
        omega
      rw [foldFrom, if_pos rfl, ih fits]
      simp only [List.flatMap_cons, operands, if_true, List.append_assoc]
  | case4 fuel span operator left right stack done other =>
      rw [foldFrom, if_neg other, List.flatMap_cons, operands, if_neg other]
      simp [foldAll, foldLeaf, literal?, Folding.goOn]
  | case5 fuel e stack done leaf ih =>
      have fits : sizeAll stack ≤ fuel := by
        have := e.size_pos
        simp only [sizeAll] at enough
        omega
      rw [foldFrom.eq_4 known done fuel e stack leaf, List.flatMap_cons, operands.eq_2 e leaf,
        List.singleton_append, foldAll]
      cases foldLeaf known e with
      | error failure => rfl
      | ok first =>
          obtain ⟨fragments, ending⟩ := first
          cases ending with
          | complete =>
              refine (ih ⟨fragments, .complete⟩ fits).trans ?_
              cases foldAll known (stack.flatMap operands) <;> simp [Folding.goOn]
          | _ => simp [Folding.goOn]

/-- Folding a tree of `+` is folding its operands. -/
theorem fold_eq_foldAll (known : Bindings Text) (e : Expr) :
    fold known e = foldAll known e.operands := by
  rw [fold, foldFrom_eq known (by simp [sizeAll]), List.reverse_nil, Folding.nil_goOn,
    List.flatMap_singleton]

/-- A `+` is folded by folding its left side, then its right. -/
theorem fold_sum (known : Bindings Text) (span : Span) (left right : Expr) :
    fold known (.binary span plus left right) =
      fold known left >>= fun first => first.goOn (fold known right) := by
  rw [fold_eq_foldAll, operands, if_pos rfl, foldAll_append, fold_eq_foldAll, fold_eq_foldAll]

theorem fold_leaf (known : Bindings Text) {e : Expr} (single : e.operands = [e]) :
    fold known e = foldLeaf known e := by
  rw [fold_eq_foldAll, single, foldAll_singleton]

/-! ## Strings and names -/

def isTextual : Expr → Bool
  | .string .. | .identifier .. => true
  | _ => false

theorem foldLeaf_of_textual (known : Bindings Text) {e : Expr} (textual : e.isTextual = true) :
    foldLeaf known e =
      match literal? known e with
      | some text => .ok ⟨[text], .complete⟩
      | none => .ok ⟨[], .blocked e⟩ := by
  cases e with
  | string | identifier => rfl
  | _ => cases textual

theorem foldAll_of_textual (known : Bindings Text) {es : List Expr}
    (textual : ∀ e ∈ es, e.isTextual = true) :
    ∃ folded, foldAll known es = .ok folded ∧
      folded.value? = (es.mapM (literal? known)).map List.flatten := by
  induction es with
  | nil => exact ⟨⟨[], .complete⟩, rfl, rfl⟩
  | cons e es ih =>
      obtain ⟨rest, folds, reads⟩ := ih fun e' inside => textual e' (List.mem_cons_of_mem _ inside)
      rw [foldAll, foldLeaf_of_textual known (textual e List.mem_cons_self), folds,
        List.mapM_cons]
      cases literal? known e with
      | none => exact ⟨⟨[], .blocked e⟩, rfl, rfl⟩
      | some text =>
          refine ⟨⟨text :: rest.fragments, rest.ending⟩, rfl, ?_⟩
          have joined : (⟨text :: rest.fragments, rest.ending⟩ : Folding).value? =
              rest.value?.map (text ++ ·) := by
            obtain ⟨fragments, ending⟩ := rest
            cases ending <;> rfl
          rw [joined, reads]
          cases es.mapM (literal? known) <;> rfl

/-- The text of strings and names joined by `+` is theirs in order, if every name holds one. -/
theorem text?_of_textual (known : Bindings Text) {e : Expr}
    (textual : ∀ operand ∈ e.operands, operand.isTextual = true) :
    text? known e = .ok ((e.operands.mapM (literal? known)).map List.flatten) := by
  cases e with
  | binary span operator left right =>
      by_cases sum : operator = plus
      · obtain ⟨folded, folds, reads⟩ := foldAll_of_textual known textual
        rw [← fold_eq_foldAll] at folds
        rw [text?, if_pos sum, folds, Outcome.ok_bind, reads]
      · rw [operands, if_neg sum] at textual
        cases textual _ (List.mem_singleton_self _)
  | string span value => simp [text?, operands, literal?]
  | identifier span name =>
      have single : operands (.identifier span name) = [.identifier span name] := rfl
      rw [single, List.mapM_cons]
      show Except.ok (known.get? name) = _
      cases held : known.get? name <;> simp [literal?, held]
  | _ => cases textual _ (List.mem_singleton_self _)

end Expr

end HiddenLoads
