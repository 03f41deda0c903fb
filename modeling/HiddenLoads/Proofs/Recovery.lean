/-
# HiddenLoads.Proofs.Recovery -- what clears a load behind a call

The walk through the argument of a load is a traversal like the pass itself
(`Recovery.walk_eq`): every call with arguments is visited, and a call whose first argument is
encoded text is not entered.  What a single visit can do is said once (`Recovery.visit_cases`).

The walk begins in suspicion, and it ends without it exactly if it
comes to a `path.join` of nothing but strings (`Recovery.suspicious_eq_false_iff`), wherever in
the argument that stands.
-/
import HiddenLoads.Proofs.Traversal
import HiddenLoads.Recovery

namespace HiddenLoads

set_option autoImplicit false

namespace Recovery

def enter (t : Tracer) : Visit Recovery := fun e r =>
  visit t e r >>= fun next => .ok (next.1, if next.2 then e.children else [])

theorem enter_prunes (t : Tracer) : Traversal.Prunes (enter t) := by
  intro e r r' inside entered
  obtain ⟨⟨r', go⟩, _, entered⟩ := Outcome.bind_eq_ok_iff.1 entered
  cases entered
  cases go
  · exact .inl rfl
  · exact .inr rfl

theorem walkFrom_eq_run (t : Tracer) (fuel : Nat) (stack : List Expr) (r : Recovery) :
    walkFrom t fuel stack r = Traversal.run (enter t) fuel stack r := by
  induction fuel generalizing stack r with
  | zero => rfl
  | succ fuel ih =>
      cases stack with
      | nil => rfl
      | cons e stack =>
          rw [walkFrom, Traversal.run_cons, enter]
          cases visited : visit t e r with
          | error f => rfl
          | ok next =>
              obtain ⟨r', go⟩ := next
              cases go <;> exact ih _ _

theorem walk_eq (t : Tracer) (e : Expr) : walk t e = Traversal.all (enter t) [e] start := by
  rw [walk, walkFrom_eq_run, Traversal.all]
  rfl

/-! ## One visit -/

/-- The call has encoded text as its first argument, so the walk does not go inside. -/
def isEncoded : Expr → Bool
  | .call _ _ (first :: _) => (encodedText? first).isSome
  | _ => false

/-- A call with arguments, of which the first is no encoded text, and the meaning of its callee. -/
def Calls (t : Tracer) (e : Expr) (meaning : Text) (first : Expr) (more : List Expr) : Prop :=
  ∃ span callee, e = .call span callee (first :: more) ∧ encodedText? first = none ∧
    calleeMeaning? t callee = .ok (some meaning)

/-- What a visit can do: decode the text of a call and stay outside, apply the rule for the meaning of
a callee, or nothing. -/
theorem visit_cases {t : Tracer} {e : Expr} {r r' : Recovery} {go : Bool}
    (visited : visit t e r = .ok (r', go)) :
    (∃ span callee first more digits text, e = .call span callee (first :: more) ∧
      encodedText? first = some digits ∧ Hex.decode digits = .ok text ∧ r' = r.add text ∧
      go = false) ∨
    (∃ meaning first more, Calls t e meaning first more ∧
      r' = decodeCall t meaning first (first :: more) r ∧ go = true) ∨
    (isEncoded e = false ∧ (∀ meaning first more, ¬ Calls t e meaning first more) ∧ r' = r ∧
      go = true) := by
  cases e with
  | call span callee arguments =>
      cases arguments with
      | nil =>
          cases visited
          exact .inr (.inr ⟨rfl, by simp [Calls], rfl, rfl⟩)
      | cons first more =>
          rw [visit, applyRules] at visited
          cases encoded : encodedText? first with
          | some digits =>
              rw [encoded] at visited
              obtain ⟨text, decodes, visited⟩ := Outcome.bind_eq_ok_iff.1 visited
              cases visited
              exact .inl ⟨span, callee, first, more, digits, text, rfl, encoded, decodes, rfl, rfl⟩
          | none =>
              rw [encoded] at visited
              obtain ⟨meaning?, means, visited⟩ := Outcome.bind_eq_ok_iff.1 visited
              cases meaning? with
              | none =>
                  cases visited
                  exact .inr (.inr ⟨by simp [isEncoded, encoded], by simp [Calls, means], rfl, rfl⟩)
              | some meaning =>
                  cases visited
                  exact .inr (.inl ⟨meaning, first, more, ⟨span, callee, rfl, encoded, means⟩,
                    rfl, rfl⟩)
  | missing => cases visited
  | _ =>
      cases visited
      exact .inr (.inr ⟨rfl, by simp [Calls], rfl, rfl⟩)

/-- The call is a `path.join` of nothing but strings, of which the first is no encoded text. -/
def Joins (t : Tracer) (e : Expr) : Prop :=
  ∃ (span : Span) (callee first : Expr) (more : List Expr) (parts : List Text),
    e = .call span callee (first :: more) ∧ encodedText? first = none ∧
      calleeMeaning? t callee = .ok (some "path.join") ∧ strings? (first :: more) = some parts

theorem add_suspicious (r : Recovery) (specifier : Text) :
    (r.add specifier).suspicious = r.suspicious := by
  rw [add]
  split <;> rfl

/-- No rule but the one for `path.join` clears a load. -/
theorem decodeCall_suspicious_of_ne (t : Tracer) {meaning : Text} (first : Expr)
    (arguments : List Expr) (r : Recovery) (other : meaning ≠ ("path.join" : String)) :
    (decodeCall t meaning first arguments r).suspicious = r.suspicious := by
  unfold decodeCall
  rw [if_neg other]
  repeat' split
  all_goals first | rfl | exact add_suspicious r _

theorem decodeCall_join (t : Tracer) (first : Expr) (arguments : List Expr) (r : Recovery) :
    decodeCall t "path.join" first arguments r =
      match strings? arguments with
      | some parts => ⟨(r.add (Join.path parts)).specifiers, false⟩
      | none => r := by
  unfold decodeCall
  rw [if_neg (by decide), if_neg (by decide), if_neg (by decide)]
  exact if_pos rfl

/-- A visit clears a load exactly at a `path.join` of strings. -/
theorem visit_suspicious {t : Tracer} {e : Expr} {r r' : Recovery} {go : Bool}
    (visited : visit t e r = .ok (r', go)) :
    r'.suspicious = false ↔ r.suspicious = false ∨ Joins t e := by
  rcases visit_cases visited with
    ⟨span, callee, first, more, digits, text, rfl, encoded, _, rfl, _⟩ |
    ⟨meaning, first, more, ⟨span, callee, rfl, plain, means⟩, rfl, _⟩ | ⟨_, uncalled, rfl, _⟩
  · simp [Joins, encoded, add_suspicious]
  · by_cases join : meaning = ("path.join" : String)
    · subst join
      rw [decodeCall_join]
      cases parts : strings? (first :: more) <;> simp [Joins, means, plain, parts]
    · rw [decodeCall_suspicious_of_ne t first (first :: more) r join]
      simp [Joins, means, join]
  · have apart : ¬ Joins t e := by
      rintro ⟨span, callee, first, more, parts, isCall, plain, means, _⟩
      exact uncalled _ _ _ ⟨span, callee, isCall, plain, means⟩
    simp [apart]

/-! ## The whole walk -/

theorem enter_suspicious {t : Tracer} {e : Expr} {r r' : Recovery} {inside : List Expr}
    (entered : enter t e r = .ok (r', inside)) :
    r'.suspicious = false ↔ r.suspicious = false ∨ Joins t e := by
  obtain ⟨⟨r', go⟩, visited, entered⟩ := Outcome.bind_eq_ok_iff.1 entered
  cases entered
  exact visit_suspicious visited

/-- The walk ends without suspicion exactly if it comes to a `path.join` of strings. -/
theorem suspicious_eq_false_iff {t : Tracer} {e : Expr} {r : Recovery} (done : walk t e = .ok r) :
    r.suspicious = false ↔
      ∃ path inner r', Traversal.Arrives (enter t) e start path inner r' ∧ Joins t inner := by
  rw [walk_eq] at done
  constructor
  · intro cleared
    -- As long as no join is come to, the suspicion stays.
    by_contra none
    have stays : r.suspicious = true := by
      refine Traversal.all_induction (enter_prunes t) (·.suspicious = true) done rfl ?_
      intro i e₀ r₀ path inner r' r'' inside comes arrives entered suspicious
      obtain ⟨rfl, rfl⟩ := Traversal.comes_singleton comes
      by_contra lost
      rw [Bool.not_eq_true, enter_suspicious entered, suspicious] at lost
      exact none ⟨path, inner, r', arrives, lost.resolve_left Bool.noConfusion⟩
    rw [cleared] at stays
    cases stays
  · rintro ⟨path, inner, r', arrives, joins⟩
    have stays : ∀ e r r' inside, enter t e r = .ok (r', inside) →
        r.suspicious = false → r'.suspicious = false := by
      intro e r r' inside entered cleared
      exact (enter_suspicious entered).2 (.inl cleared)
    obtain ⟨r'', inside, entered, kept⟩ := Traversal.visited_of_arrives (enter_prunes t)
      (fun r r' => r.suspicious = false → r'.suspicious = false) (fun _ => id)
      (fun _ _ _ one two => two ∘ one) stays done arrives
    exact kept ((enter_suspicious entered).2 (.inr joins))

end Recovery

end HiddenLoads
