/-
# HiddenLoads.Proofs.Descent -- the pass as a recursion over the tree

The pass keeps its own stack so that deep nesting is no harm.  What it computes is a plain recursion
(`Pass.descend`): the tracer observes an expression, the probes run on it, and unless one of them asks
to skip it, the same is done with everything inside it, in order.  This is so for any probes, whatever
their validators and resolvers do with the state, and for any outcome: where the recursion fails, the
pass fails in the same way.  In the end each hook runs once, in the order of the probes.

So a pass that ends has visited every place that does not lie below a skipped one, each once and in
source order.
-/
import HiddenLoads.Proofs.Tour
import HiddenLoads.Proofs.Visit

namespace HiddenLoads

set_option autoImplicit false

open Traversal

namespace Pass

variable {δ : Type}

mutual

/-- The pass over an expression and everything inside it, by recursion. -/
def descend (probes : List (Probe δ)) (e : Expr) (a : Analysis) : Except Failure Analysis := do
  let tracer ← a.tracer.observe e
  let (a, skip) ← Probe.run probes e { a with tracer }
  if skip then .ok a
  else if e.isMissing then .error .missingNode
  else descendAll probes e.children a
termination_by (e.size, 0)
decreasing_by exact e.children_lex

def descendAll (probes : List (Probe δ)) : List Expr → Analysis → Except Failure Analysis
  | [], a => .ok a
  | e :: es, a => do descendAll probes es (← descend probes e a)
termination_by es => (Expr.sizeAll es, 1)
decreasing_by
  · exact e.head_lex es
  · exact e.tail_lex es

end

/-- A traversal with the stack is the recursion. -/
theorem all_visit_eq_descendAll (probes : List (Probe δ)) (es : List Expr) (a : Analysis) :
    all (visit probes) es a = descendAll probes es a := by
  match es with
  | [] =>
      rw [descendAll]
      rfl
  | e :: es =>
      have positive := e.size_eq
      rw [all_cons visit_prunes, descendAll, descend, visit]
      cases a.tracer.observe e with
      | error f => rfl
      | ok tracer =>
          simp only [Outcome.ok_bind]
          cases Probe.run probes e { a with tracer } with
          | error f => rfl
          | ok ran =>
              obtain ⟨a', skip⟩ := ran
              cases skip with
              | true => exact all_visit_eq_descendAll probes es a'
              | false =>
                  cases e.isMissing with
                  | true => rfl
                  | false =>
                      show all (visit probes) e.children a' >>= all (visit probes) es = _
                      rw [all_visit_eq_descendAll probes e.children a']
                      exact congrArg _ (funext fun a'' => all_visit_eq_descendAll probes es a'')
termination_by Expr.sizeAll es
decreasing_by
  all_goals simp only [Expr.sizeAll]; omega

theorem all_singleton_eq_descend (probes : List (Probe δ)) (e : Expr) (a : Analysis) :
    all (visit probes) [e] a = descend probes e a := by
  rw [all_visit_eq_descendAll, descendAll]
  cases descend probes e a with
  | error f => rfl
  | ok a' => rw [Outcome.ok_bind, descendAll]

/-- Some probe asks to skip the inside of an expression, once the tracer has observed it. -/
def Asks (probes : List (Probe δ)) (e : Expr) (a : Analysis) : Prop :=
  ∃ tracer a', a.tracer.observe e = .ok tracer ∧
    Probe.run probes e { a with tracer } = .ok (a', true)

theorem visit_skipsBy (probes : List (Probe δ)) : SkipsBy (visit probes) (Asks probes) := by
  intro e a a' inside visited
  obtain ⟨tracer, observed, visited⟩ := Outcome.bind_eq_ok_iff.1 visited
  obtain ⟨⟨a'', skip⟩, ran, visited⟩ := Outcome.bind_eq_ok_iff.1 visited
  cases skip with
  | true =>
      cases visited
      exact .inl ⟨⟨tracer, a', observed, ran⟩, rfl⟩
  | false =>
      simp only [Bool.false_eq_true, if_false] at visited
      split at visited <;> cases visited
      refine .inr ⟨?_, rfl⟩
      rintro ⟨tracer', b, observed', ran'⟩
      cases observed.symm.trans observed'
      cases ran.symm.trans ran'

/-- The hooks run one after the other, in the order of their probes. -/
theorem finish_eq_hooks (probes : List (Probe δ)) (a : Analysis) :
    Probe.finish probes a = (probes.filterMap (·.teardown)).foldl (fun a hook => hook a) a := by
  rw [Probe.finish]
  induction probes generalizing a with
  | nil => rfl
  | cons p probes ih =>
      rw [List.foldl_cons, ih]
      cases hook : p.teardown <;> simp [hook]

/-- **A pass with a stack is the recursion, and visits in source order what is not skipped.**  For any
probes and any state, the pass gives what the recursion gives, with each hook run once afterwards; if
the recursion fails, the pass fails alike.  It completes exactly if its loop comes to an end, and then
what the loop takes off the stack are the places of the tree that do not lie below a skipped one, each
once and in source order. -/
theorem walk_eq_descend (probes : List (Probe δ)) (root : Expr) (a : Analysis) :
    walk probes root a = descend probes root a >>=
      (fun r => .ok ((probes.filterMap (·.teardown)).foldl (fun a hook => hook a) r)) ∧
    ∀ r, walk probes root a = .ok r ↔ ∃ (stops : List (Stop Analysis)) (last : Analysis),
      Takes (visit probes) [root] a (stops.map Stop.entry) last ∧
      Covers (Asks probes) root.at? stops ∧
      r = (probes.filterMap (·.teardown)).foldl (fun a hook => hook a) last := by
  refine ⟨?_, fun r => ?_⟩
  · rw [walk_eq_all, all_singleton_eq_descend]
    exact congrArg _ (funext fun r => congrArg Except.ok (finish_eq_hooks probes r))
  · rw [walk_eq_all, Outcome.bind_eq_ok_iff]
    constructor
    · rintro ⟨last, done, finished⟩
      obtain ⟨stops, takes, covers⟩ := exists_covers visit_prunes (visit_skipsBy probes) done
      cases finished
      exact ⟨stops, last, takes, covers, finish_eq_hooks probes last⟩
    · rintro ⟨stops, last, takes, _, rfl⟩
      have done : all (visit probes) [root] a = .ok last :=
        run_of_takes visit_prunes takes (Nat.le_refl _)
      exact ⟨last, done, congrArg Except.ok (finish_eq_hooks probes last)⟩

end Pass

end HiddenLoads
