/-
# HiddenLoads.Proofs.Traversal -- what a stack of expressions comes to

A pass over a source and the walk through the argument of a load are one kind of loop: take an
expression off a stack, visit it in the current state, and put what the visit asks for on the
stack.  `Traversal.run` is that loop for any way to visit, and `Traversal.all_cons` is the
recursion behind it: an expression, then everything inside it, then its successors.

`Traversal.Arrives` says in which state the traversal comes to the place of an expression.  From
it follows all that is said about whole traversals:

* `all_eq_error_iff`: a traversal fails exactly where it comes to a visit that fails;
* `arrives_or_pruned`: when it ends, it has come to every place that is not below a visit which
  asked for nothing;
* `all_induction`, `Arrives.keeps`: what every visit keeps holds at the end and on the way;
* `visited_of_arrives`: what a visit leaves behind reaches the end.
-/
import HiddenLoads.Proofs.Outcome
import HiddenLoads.Proofs.Places
import Mathlib.Data.List.Basic

namespace HiddenLoads

set_option autoImplicit false

/-- A visit to an expression: the state after it, and the expressions to go on with. -/
abbrev Visit (σ : Type) := Expr → σ → Except Failure (σ × List Expr)

namespace Traversal

variable {σ : Type}

def run (visit : Visit σ) : (fuel : Nat) → List Expr → σ → Except Failure σ
  | 0, _, s => .ok s
  | _ + 1, [], s => .ok s
  | fuel + 1, e :: stack, s => do
      let (s, inside) ← visit e s
      run visit fuel (inside ++ stack) s

def all (visit : Visit σ) (es : List Expr) (s : σ) : Except Failure σ :=
  run visit (Expr.sizeAll es) es s

/-- A visit asks for what is inside the expression, or for nothing. -/
def Prunes (visit : Visit σ) : Prop :=
  ∀ (e : Expr) (s s' : σ) (inside : List Expr),
    visit e s = .ok (s', inside) → inside = [] ∨ inside = e.children

theorem sizeAll_inside {visit : Visit σ} (prunes : Prunes visit) {e : Expr} {s s' : σ}
    {inside : List Expr} (visited : visit e s = .ok (s', inside)) :
    Expr.sizeAll inside < e.size := by
  rw [e.size_eq]
  rcases prunes e s s' inside visited with rfl | rfl
  · exact Nat.succ_pos _
  · exact Nat.lt_succ_self _

theorem run_cons (visit : Visit σ) (fuel : Nat) (e : Expr) (stack : List Expr) (s : σ) :
    run visit (fuel + 1) (e :: stack) s =
      visit e s >>= fun r => run visit fuel (r.2 ++ stack) r.1 := rfl

@[simp] theorem run_nil (visit : Visit σ) (fuel : Nat) (s : σ) : run visit fuel [] s = .ok s := by
  cases fuel <;> rfl

section

variable {visit : Visit σ} (prunes : Prunes visit)

include prunes

/-- Fuel beyond the size of the stack makes no difference. -/
theorem run_eq_run {fuel fuel' : Nat} {stack : List Expr} (s : σ)
    (enough : Expr.sizeAll stack ≤ fuel) (enough' : Expr.sizeAll stack ≤ fuel') :
    run visit fuel stack s = run visit fuel' stack s := by
  induction fuel generalizing fuel' stack s with
  | zero =>
      cases stack with
      | nil => simp
      | cons e stack =>
          have := e.size_eq
          simp only [Expr.sizeAll] at enough
          omega
  | succ fuel ih =>
      cases stack with
      | nil => simp
      | cons e stack =>
          have positive := e.size_eq
          simp only [Expr.sizeAll] at enough enough'
          obtain ⟨fuel', rfl⟩ : ∃ n, fuel' = n + 1 := ⟨fuel' - 1, by omega⟩
          rw [run_cons, run_cons]
          cases visited : visit e s with
          | error f => rfl
          | ok r =>
              obtain ⟨s', inside⟩ := r
              have smaller := sizeAll_inside prunes visited
              simp only [Outcome.ok_bind]
              refine ih s' ?_ ?_ <;> rw [Expr.sizeAll_append] <;> omega

/-- A stack is worked off from its top. -/
theorem run_append {fuel : Nat} {above below : List Expr} (s : σ)
    (enough : Expr.sizeAll (above ++ below) ≤ fuel) :
    run visit fuel (above ++ below) s = run visit fuel above s >>= run visit fuel below := by
  induction fuel generalizing above s with
  | zero => rfl
  | succ fuel ih =>
      cases above with
      | nil => rfl
      | cons e above =>
          rw [List.cons_append, run_cons, run_cons]
          cases visited : visit e s with
          | error f => rfl
          | ok r =>
              obtain ⟨s', inside⟩ := r
              have smaller := sizeAll_inside prunes visited
              simp only [List.cons_append, Expr.sizeAll, Expr.sizeAll_append] at enough
              simp only [Outcome.ok_bind]
              rw [← List.append_assoc, ih s' (by simp only [Expr.sizeAll_append]; omega)]
              congr 1
              funext s''
              exact run_eq_run prunes s'' (by omega) (by omega)

theorem all_append (above below : List Expr) (s : σ) :
    all visit (above ++ below) s = all visit above s >>= all visit below := by
  rw [all, run_append prunes s (Nat.le_refl _), Expr.sizeAll_append]
  rw [run_eq_run prunes s (Nat.le_add_right _ _) (Nat.le_refl _)]
  congr 1
  funext s'
  exact run_eq_run prunes s' (Nat.le_add_left _ _) (Nat.le_refl _)

/-- Visiting an expression and its successors: itself, everything inside it, its successors. -/
theorem all_cons (e : Expr) (es : List Expr) (s : σ) :
    all visit (e :: es) s =
      visit e s >>= fun r => all visit r.2 r.1 >>= all visit es := by
  have positive := e.size_eq
  rw [all, Expr.sizeAll]
  obtain ⟨n, size⟩ : ∃ n, e.size + Expr.sizeAll es = n + 1 :=
    ⟨e.size + Expr.sizeAll es - 1, by omega⟩
  rw [size, run_cons]
  cases visited : visit e s with
  | error f => rfl
  | ok r =>
      obtain ⟨s', inside⟩ := r
      have smaller := sizeAll_inside prunes visited
      simp only [Outcome.ok_bind]
      rw [← all_append prunes, all]
      refine run_eq_run prunes s' ?_ (Nat.le_refl _)
      rw [Expr.sizeAll_append]
      omega

end

/-! ## Where a traversal comes -/

/-- Visiting `es` comes to the expression with number `i`, with everything before it done. -/
def Comes (visit : Visit σ) (es : List Expr) (s : σ) (i : Nat) (e : Expr) (s' : σ) : Prop :=
  es[i]? = some e ∧ all visit (es.take i) s = .ok s'

/-- The traversal that begins at one expression comes, in some state, to the expression at a
place inside it. -/
inductive Arrives (visit : Visit σ) : Expr → σ → List Nat → Expr → σ → Prop
  | here (e : Expr) (s : σ) : Arrives visit e s [] e s
  | inside {e child e' : Expr} {s s₁ s₂ s' : σ} {inside : List Expr} {i : Nat} {path : List Nat}
      (visited : visit e s = .ok (s₁, inside)) (comes : Comes visit inside s₁ i child s₂)
      (below : Arrives visit child s₂ path e' s') : Arrives visit e s (i :: path) e' s'

/-- A visit on the way to a place asked for nothing, so the place is never come to. -/
def Pruned (visit : Visit σ) (e : Expr) (s : σ) (path : List Nat) : Prop :=
  ∃ (above : List Nat) (i : Nat) (below : List Nat) (e₀ : Expr) (s₀ s₁ : σ),
    path = above ++ i :: below ∧ Arrives visit e s above e₀ s₀ ∧ visit e₀ s₀ = .ok (s₁, [])

theorem comes_zero (visit : Visit σ) (e : Expr) (es : List Expr) (s : σ) :
    Comes visit (e :: es) s 0 e s := ⟨rfl, rfl⟩

theorem comes_singleton {visit : Visit σ} {e e₀ : Expr} {s s₀ : σ} {i : Nat}
    (comes : Comes visit [e] s i e₀ s₀) : e₀ = e ∧ s₀ = s := by
  obtain ⟨place, before⟩ := comes
  cases i with
  | zero =>
      cases place
      cases before
      exact ⟨rfl, rfl⟩
  | succ i => cases place

theorem comes_of_take {visit : Visit σ} {es : List Expr} {s s' : σ} {i j : Nat} {e : Expr}
    (comes : Comes visit (es.take i) s j e s') : Comes visit es s j e s' := by
  obtain ⟨place, before⟩ := comes
  obtain ⟨bound, rfl⟩ := List.getElem?_eq_some_iff.1 place
  rw [List.length_take] at bound
  rw [List.take_take, Nat.min_eq_left (by omega)] at before
  rw [List.getElem?_take_of_lt (by omega)] at place
  exact ⟨place, before⟩

theorem Arrives.unique {visit : Visit σ} {e e₁ e₂ : Expr} {s s₁ s₂ : σ} {path : List Nat}
    (first : Arrives visit e s path e₁ s₁) (second : Arrives visit e s path e₂ s₂) :
    e₁ = e₂ ∧ s₁ = s₂ := by
  induction first with
  | here e s =>
      cases second
      exact ⟨rfl, rfl⟩
  | inside visited comes _ ih =>
      cases second with
      | inside visited' comes' below' =>
          rw [visited, Except.ok.injEq, Prod.mk.injEq] at visited'
          obtain ⟨rfl, rfl⟩ := visited'
          rw [Comes, comes.1, comes.2, Option.some.injEq, Except.ok.injEq] at comes'
          obtain ⟨rfl, rfl⟩ := comes'
          exact ih below'

/-- The way to a place leads through every place on it. -/
theorem Arrives.split {visit : Visit σ} {e e' : Expr} {s s' : σ} {above below : List Nat}
    (arrives : Arrives visit e s (above ++ below) e' s') :
    ∃ e₀ s₀, Arrives visit e s above e₀ s₀ ∧ Arrives visit e₀ s₀ below e' s' := by
  induction above generalizing e s with
  | nil => exact ⟨e, s, .here e s, arrives⟩
  | cons i above ih =>
      cases arrives with
      | inside visited comes inner =>
          obtain ⟨e₀, s₀, upper, lower⟩ := ih inner
          exact ⟨e₀, s₀, .inside visited comes upper, lower⟩

/-- What is pruned is not come to. -/
theorem Pruned.not_arrives {visit : Visit σ} {e e' : Expr} {s s' : σ} {path : List Nat}
    (pruned : Pruned visit e s path) : ¬ Arrives visit e s path e' s' := by
  obtain ⟨above, i, below, e₀, s₀, s₁, rfl, upper, nothing⟩ := pruned
  intro arrives
  obtain ⟨e₁, s₁, upper', lower⟩ := arrives.split
  obtain ⟨rfl, rfl⟩ := upper.unique upper'
  cases lower with
  | inside visited comes _ =>
      rw [nothing, Except.ok.injEq, Prod.mk.injEq] at visited
      have := comes.1
      simp [← visited.2] at this

section

variable {visit : Visit σ} (prunes : Prunes visit)

include prunes

theorem comes_succ {e child : Expr} {es inside : List Expr} {s s₁ s₂ s' : σ} {i : Nat}
    (visited : visit e s = .ok (s₁, inside)) (done : all visit inside s₁ = .ok s₂)
    (comes : Comes visit es s₂ i child s') : Comes visit (e :: es) s (i + 1) child s' := by
  refine ⟨comes.1, ?_⟩
  rw [List.take_succ_cons, all_cons prunes, visited, Outcome.ok_bind, done]
  exact comes.2

/-- The traversal of a list: before an expression, the expression, and after it. -/
theorem all_eq_of_comes {es : List Expr} {s s' : σ} {i : Nat} {e : Expr}
    (comes : Comes visit es s i e s') :
    all visit es s = all visit [e] s' >>= all visit (es.drop (i + 1)) := by
  obtain ⟨place, before⟩ := comes
  obtain ⟨inside, rfl⟩ := List.getElem?_eq_some_iff.1 place
  conv_lhs => rw [← List.take_append_drop i es, List.drop_eq_getElem_cons inside]
  rw [← List.singleton_append, all_append prunes, before, Outcome.ok_bind, all_append prunes]

theorem Arrives.at? {e e' : Expr} {s s' : σ} {path : List Nat}
    (arrives : Arrives visit e s path e' s') : e.at? path = some e' := by
  induction arrives with
  | here e s => rfl
  | inside visited comes _ ih =>
      rcases prunes _ _ _ _ visited with rfl | rfl
      · simp [Comes] at comes
      · rw [Expr.at?_cons, comes.1, Option.bind_some, ih]

theorem Arrives.mem_within {e e' : Expr} {s s' : σ} {path : List Nat}
    (arrives : Arrives visit e s path e' s') : e' ∈ e.within :=
  Expr.mem_within.2 ⟨path, arrives.at? prunes⟩

/-- A traversal that fails has come to a visit that fails. -/
theorem exists_failing_visit {es : List Expr} {s : σ} {f : Failure}
    (failed : all visit es s = .error f) :
    ∃ i e s₀ path e' s', Comes visit es s i e s₀ ∧ Arrives visit e s₀ path e' s' ∧
      visit e' s' = .error f := by
  match es with
  | [] => cases failed
  | e :: es =>
      rw [all_cons prunes, Outcome.bind_eq_error_iff] at failed
      rcases failed with failed | ⟨⟨s₁, inside⟩, visited, failed⟩
      · exact ⟨0, e, s, [], e, s, comes_zero visit e es s, .here e s, failed⟩
      · have smaller := sizeAll_inside prunes visited
        rcases Outcome.bind_eq_error_iff.1 failed with failed | ⟨s₂, done, failed⟩
        · obtain ⟨i, child, s₂, path, e', s', comes, arrives, fails⟩ := exists_failing_visit failed
          exact ⟨0, e, s, i :: path, e', s', comes_zero visit e es s,
            .inside visited comes arrives, fails⟩
        · obtain ⟨i, child, s₃, path, e', s', comes, arrives, fails⟩ := exists_failing_visit failed
          exact ⟨i + 1, child, s₃, path, e', s', comes_succ prunes visited done comes, arrives,
            fails⟩
termination_by Expr.sizeAll es
decreasing_by
  all_goals simp only [Expr.sizeAll]; omega

/-- What every visit on the way keeps holds at the end. -/
theorem all_induction (keeps : σ → Prop) {es : List Expr} {s r : σ}
    (done : all visit es s = .ok r) (start : keeps s)
    (step : ∀ i e s₀ path e' s' s'' inside, Comes visit es s i e s₀ →
      Arrives visit e s₀ path e' s' → visit e' s' = .ok (s'', inside) → keeps s' → keeps s'') :
    keeps r := by
  match es with
  | [] =>
      cases done
      exact start
  | e :: es =>
      rw [all_cons prunes] at done
      obtain ⟨⟨s₁, inside⟩, visited, done⟩ := Outcome.bind_eq_ok_iff.1 done
      obtain ⟨s₂, within, after⟩ := Outcome.bind_eq_ok_iff.1 done
      have smaller := sizeAll_inside prunes visited
      have first : keeps s₁ :=
        step 0 e s [] e s s₁ inside (comes_zero visit e es s) (.here e s) visited start
      have second : keeps s₂ := all_induction keeps within first
        fun i child s₃ path e' s' s'' more comes arrives =>
          step 0 e s (i :: path) e' s' s'' more (comes_zero visit e es s)
            (.inside visited comes arrives)
      exact all_induction keeps after second
        fun i child s₃ path e' s' s'' more comes =>
          step (i + 1) child s₃ path e' s' s'' more (comes_succ prunes visited within comes)
termination_by Expr.sizeAll es
decreasing_by
  all_goals simp only [Expr.sizeAll]; omega

/-- What every visit on the way keeps holds at every place that is come to. -/
theorem Arrives.keeps (keeps : σ → Prop) {e e' : Expr} {s s' : σ} {path : List Nat}
    (arrives : Arrives visit e s path e' s') (start : keeps s)
    (step : ∀ path e' s' s'' inside, Arrives visit e s path e' s' →
      visit e' s' = .ok (s'', inside) → keeps s' → keeps s'') : keeps s' := by
  induction arrives with
  | here e s => exact start
  | @inside e child e' s s₁ s₂ s' inside i path visited comes _ ih =>
      have first : keeps s₁ := step [] e s s₁ inside (.here e s) visited start
      have second : keeps s₂ := all_induction prunes keeps comes.2 first
        fun j child s₃ path e' s' s'' more comes' arrives =>
          step (j :: path) e' s' s'' more (.inside visited (comes_of_take comes') arrives)
      exact ih second fun path e' s' s'' more arrives =>
        step (i :: path) e' s' s'' more (.inside visited comes arrives)

/-! ## A traversal of one expression -/

theorem all_singleton (e : Expr) (s : σ) :
    all visit [e] s = visit e s >>= fun r => all visit r.2 r.1 := by
  rw [all_cons prunes]
  congr 1
  funext r
  cases all visit r.2 r.1 <;> rfl

/-- A traversal fails exactly where it comes to a visit that fails. -/
theorem all_eq_error_iff (e : Expr) (s : σ) (f : Failure) :
    all visit [e] s = .error f ↔
      ∃ path e' s', Arrives visit e s path e' s' ∧ visit e' s' = .error f := by
  constructor
  · intro failed
    obtain ⟨i, e₀, s₀, path, e', s', comes, arrives, fails⟩ := exists_failing_visit prunes failed
    obtain ⟨rfl, rfl⟩ := comes_singleton comes
    exact ⟨path, e', s', arrives, fails⟩
  · rintro ⟨path, e', s', arrives, fails⟩
    induction arrives with
    | here e s =>
        rw [all_singleton prunes, fails]
        rfl
    | inside visited comes _ ih =>
        rw [all_singleton prunes, visited, Outcome.ok_bind, all_eq_of_comes prunes comes, ih fails]
        rfl

/-- A traversal that ends has come to every place, except below the visits that asked for
nothing. -/
theorem arrives_or_pruned {e e' : Expr} {s r : σ} {path : List Nat}
    (done : all visit [e] s = .ok r) (place : e.at? path = some e') :
    (∃ s', Arrives visit e s path e' s') ∨ Pruned visit e s path := by
  induction path generalizing e s r with
  | nil =>
      cases place
      exact .inl ⟨s, .here e' s⟩
  | cons i path ih =>
      rw [Expr.at?_cons] at place
      obtain ⟨child, isChild, place⟩ := Option.bind_eq_some_iff.1 place
      rw [all_singleton prunes] at done
      obtain ⟨⟨s₁, inside⟩, visited, done⟩ := Outcome.bind_eq_ok_iff.1 done
      rcases prunes e s s₁ inside visited with rfl | rfl
      · exact .inr ⟨[], i, path, e, s, s₁, rfl, .here e s, visited⟩
      · -- The children before the one on the way are done, and the rest is its own traversal.
        obtain ⟨bound, rfl⟩ := List.getElem?_eq_some_iff.1 isChild
        have cut := List.take_append_drop i e.children
        rw [← cut, all_append prunes] at done
        obtain ⟨s₂, before, done⟩ := Outcome.bind_eq_ok_iff.1 done
        rw [List.drop_eq_getElem_cons bound, ← List.singleton_append, all_append prunes] at done
        obtain ⟨s₃, done, _⟩ := Outcome.bind_eq_ok_iff.1 done
        have comes : Comes visit e.children s₁ i e.children[i] s₂ := ⟨isChild, before⟩
        rcases ih done place with ⟨s', arrives⟩ | ⟨above, j, below, e₀, s₀, s₄, rfl, arrives, nothing⟩
        · exact .inl ⟨s', .inside visited comes arrives⟩
        · exact .inr ⟨i :: above, j, below, e₀, s₀, s₄, rfl, .inside visited comes arrives, nothing⟩

/-- What a visit leaves behind reaches the end of the traversal, along any relation that visits
respect. -/
theorem visited_of_arrives (later : σ → σ → Prop) (same : ∀ s, later s s)
    (join : ∀ s₁ s₂ s₃, later s₁ s₂ → later s₂ s₃ → later s₁ s₃)
    (step : ∀ e s s' inside, visit e s = .ok (s', inside) → later s s')
    {e e' : Expr} {s s' r : σ} {path : List Nat} (done : all visit [e] s = .ok r)
    (arrives : Arrives visit e s path e' s') :
    ∃ s'' inside, visit e' s' = .ok (s'', inside) ∧ later s'' r := by
  have grows : ∀ {es : List Expr} {s r : σ}, all visit es s = .ok r → later s r :=
    fun {es s r} done => all_induction prunes (later s) done (same s)
      fun _ _ _ _ e' s' s'' inside _ _ visited sofar =>
        join s s' s'' sofar (step e' s' s'' inside visited)
  induction arrives generalizing r with
  | here e s =>
      rw [all_singleton prunes] at done
      obtain ⟨⟨s₁, inside⟩, visited, done⟩ := Outcome.bind_eq_ok_iff.1 done
      exact ⟨s₁, inside, visited, grows done⟩
  | inside visited comes _ ih =>
      rw [all_singleton prunes, visited, Outcome.ok_bind, all_eq_of_comes prunes comes] at done
      obtain ⟨s₃, done, after⟩ := Outcome.bind_eq_ok_iff.1 done
      obtain ⟨s'', inside, visited', sofar⟩ := ih done
      exact ⟨s'', inside, visited', join s'' s₃ r sofar (grows after)⟩

end

end Traversal

end HiddenLoads
