/-
# HiddenLoads.Proofs.Outcome -- computations that may fail

How a sequence of two computations succeeds and how it fails, how a list of them succeeds, and
what a run of steps brings about.
-/
import HiddenLoads.Failure
import Mathlib.Data.List.Forall2

namespace HiddenLoads

set_option autoImplicit false

namespace Outcome

variable {ε α β : Type}

@[simp] theorem ok_bind (a : α) (f : α → Except ε β) : (Except.ok a >>= f) = f a := rfl

@[simp] theorem error_bind (e : ε) (f : α → Except ε β) : (Except.error e >>= f) = .error e := rfl

theorem bind_eq_ok_iff {x : Except ε α} {f : α → Except ε β} {b : β} :
    (x >>= f) = .ok b ↔ ∃ a, x = .ok a ∧ f a = .ok b := by
  cases x with
  | ok a => simp
  | error e => simp

theorem bind_eq_error_iff {x : Except ε α} {f : α → Except ε β} {e : ε} :
    (x >>= f) = .error e ↔ x = .error e ∨ ∃ a, x = .ok a ∧ f a = .error e := by
  cases x with
  | ok a => simp
  | error e => simp

/-- The results of a list of computations, one for each. -/
theorem mapM_eq_ok_iff {f : α → Except ε β} {as : List α} {bs : List β} :
    as.mapM f = .ok bs ↔ List.Forall₂ (fun a b => f a = .ok b) as bs := by
  induction as generalizing bs with
  | nil =>
      rw [List.mapM_nil, List.forall₂_nil_left_iff]
      exact ⟨fun done => (Except.ok.inj done).symm, fun none => none ▸ rfl⟩
  | cons a as ih =>
      rw [List.mapM_cons, bind_eq_ok_iff]
      constructor
      · rintro ⟨b, first, done⟩
        obtain ⟨rest, more, done⟩ := bind_eq_ok_iff.1 done
        cases done
        exact .cons first (ih.1 more)
      · rintro (_ | ⟨first, more⟩)
        exact ⟨_, first, bind_eq_ok_iff.2 ⟨_, ih.2 more, rfl⟩⟩

theorem exists_of_mapM_eq_error {f : α → Except ε β} {as : List α} {e : ε}
    (fails : as.mapM f = .error e) : ∃ a ∈ as, f a = .error e := by
  induction as with
  | nil => cases fails
  | cons a as ih =>
      rw [List.mapM_cons] at fails
      rcases bind_eq_error_iff.1 fails with first | ⟨b, _, fails⟩
      · exact ⟨a, List.mem_cons_self, first⟩
      · rcases bind_eq_error_iff.1 fails with fails | ⟨bs, _, fails⟩
        · obtain ⟨a', inside, fails⟩ := ih fails
          exact ⟨a', List.mem_cons_of_mem _ inside, fails⟩
        · cases fails

theorem mem_iff_of_forall₂ {f : α → Except ε β} {as : List α} {bs : List β}
    (each : List.Forall₂ (fun a b => f a = .ok b) as bs) (b : β) :
    b ∈ bs ↔ ∃ a ∈ as, f a = .ok b := by
  induction each with
  | nil => simp
  | cons first _ ih => simp [ih, first, eq_comm]

/-- A list of partners for a list, one for each, as for a list of computations that all succeed. -/
theorem exists_forall₂_iff {R : α → β → Prop} {as : List α} :
    (∃ bs, List.Forall₂ R as bs) ↔ ∀ a ∈ as, ∃ b, R a b := by
  induction as with
  | nil => simp
  | cons a as ih =>
      rw [List.forall_mem_cons, ← ih]
      constructor
      · rintro ⟨_, _ | ⟨first, more⟩⟩
        exact ⟨⟨_, first⟩, _, more⟩
      · rintro ⟨⟨b, first⟩, bs, more⟩
        exact ⟨b :: bs, .cons first more⟩

/-- What holds after a run of steps held before, or one of the steps brought it about. -/
theorem gains_of_foldlM {f : β → α → Except ε β} {P : β → Prop} {Q : α → Prop}
    (gains : ∀ b a b', f b a = .ok b' → (P b' ↔ P b ∨ Q a)) {as : List α} {b b' : β}
    (done : as.foldlM f b = .ok b') : P b' ↔ P b ∨ ∃ a ∈ as, Q a := by
  induction as generalizing b with
  | nil =>
      cases done
      simp
  | cons a as ih =>
      rw [List.foldlM_cons] at done
      obtain ⟨b₁, first, rest⟩ := bind_eq_ok_iff.1 done
      rw [ih rest, gains b a b₁ first, List.exists_mem_cons_iff, or_assoc]

end Outcome

end HiddenLoads
