/-
# HiddenLoads.Proofs.EvalMark -- which dependencies are marked as found through `eval`

The mark belongs to the state of the pass.  A load that is matched under the name `eval` sets it
(`Pass.MarksEval`), nothing in the pass takes it back, and every dependency that is added carries it
(`Analysis.Stamps`).  So the mark of a dependency tells about the visits up to the one that added
it, and not about that one alone: the visits are numbered by the log of the loop,
`Traversal.Takes`, and the dependencies by their place in the report (`Pass.Adds`).

* `visit_marks`: what one visit does to the mark, and which mark its dependencies carry;
* `viaEval_of_takes`: the mark with which the loop comes to each of its visits;
* `viaEval_iff_marked_before`: the mark of every dependency of a whole pass.
-/
import HiddenLoads.Proofs.Tour
import HiddenLoads.Proofs.Visit

namespace HiddenLoads

set_option autoImplicit false

open Traversal

/-! ## Records carry the mark -/

namespace Analysis

/-- Between two states of a pass the mark of `eval` stays, and the dependencies that have been added
carry it. -/
structure Stamps (a a' : Analysis) : Prop where
  mark : a'.viaEval = a.viaEval
  dependencies : ∃ found, a'.dependencies = a.dependencies ++ found ∧
    ∀ d ∈ found, d.viaEval = a.viaEval

namespace Stamps

variable {a a' a'' : Analysis}

theorem refl (a : Analysis) : Stamps a a := ⟨rfl, [], by simp⟩

theorem trans (one : Stamps a a') (two : Stamps a' a'') : Stamps a a'' := by
  obtain ⟨found, grown, stamped⟩ := one.dependencies
  obtain ⟨found', grown', stamped'⟩ := two.dependencies
  refine ⟨two.mark.trans one.mark, found ++ found', ?_, fun d inside => ?_⟩
  · rw [grown', grown, List.append_assoc]
  · rcases List.mem_append.1 inside with inside | inside
    · exact stamped d inside
    · exact (stamped' d inside).trans one.mark

end Stamps

theorem addDependency_stamps (a : Analysis) (specifier : Text) (location : Option Span)
    (dynamic : Bool) : Stamps a (a.addDependency specifier location dynamic) := by
  rw [addDependency]
  split
  · exact .refl a
  · exact ⟨rfl, [_], rfl, by simp⟩

theorem addUnsafe_stamps (a : Analysis) (site : Span) : Stamps a (a.addUnsafe site) :=
  ⟨rfl, [], by simp [addUnsafe, addWarning]⟩

end Analysis

namespace Probe

open Analysis

theorem Require.addSpecifier?_stamps (a : Analysis) (specifier : Option Text) (site : Span) :
    Stamps a (Require.addSpecifier? a specifier site) := by
  cases specifier with
  | none => exact addUnsafe_stamps a site
  | some text =>
      rw [Require.addSpecifier?, Require.addSpecifier]
      split
      · exact addUnsafe_stamps a site
      · exact addDependency_stamps a text (some site) false

theorem Require.addRecovered_stamps (a : Analysis) (r : Recovery) (site : Span) :
    Stamps a (Require.addRecovered a r site) := by
  have all (specifiers : List Text) (a : Analysis) :
      Stamps a (specifiers.foldl (fun a s => a.addDependency s (some site) true) a) := by
    induction specifiers generalizing a with
    | nil => exact .refl a
    | cons s specifiers ih => exact (addDependency_stamps a s (some site) true).trans (ih _)
  rw [Require.addRecovered]
  split
  · exact (all r.specifiers a).trans (addUnsafe_stamps _ site)
  · exact all r.specifiers a

theorem Require.resolveArgument_stamps {a a' : Analysis} {site : Span} {argument : Expr}
    {signal : Option Signal}
    (resolved : Require.resolveArgument site argument a = .ok (a', signal)) : Stamps a a' := by
  rcases Require.resolveArgument_cases resolved with
    ⟨_, _, specifier, rfl⟩ | ⟨_, _, _, recovered, _, _, _, rfl⟩
  · exact Require.addSpecifier?_stamps a specifier site
  · exact Require.addRecovered_stamps a recovered site

theorem Import.settle_stamps (e : Expr) (a : Analysis) : Stamps a (Import.settle e a) := by
  fun_cases Import.settle e a with
  | case1 | case2 => exact addDependency_stamps a _ _ false
  | case3 => exact addUnsafe_stamps a _
  | case4 => exact .refl a

end Probe

namespace Pass

/-! ## One visit -/

/-- The expression is a load with an argument that is matched under the name `eval`. -/
def MarksEval (e : Expr) (a : Analysis) : Prop :=
  (∃ location callee argument more, e = .call location callee (argument :: more)) ∧
    Probe.require.match? e a.tracer = .ok (some (some Probe.Require.evaluator))

/-- What resolving a load does to the mark. -/
theorem resolve_marks {e : Expr} {a a' : Analysis} {name : Option Text} {signal : Option Signal}
    (matched : Probe.require.match? e a.tracer = .ok (some name))
    (resolved : Probe.Require.resolve e a name = .ok (a', signal)) :
    (a'.viaEval = true ↔ a.viaEval = true ∨ MarksEval e a) ∧
      ∃ found, a'.dependencies = a.dependencies ++ found ∧ ∀ d ∈ found, d.viaEval = a'.viaEval := by
  unfold Probe.Require.resolve at resolved
  split at resolved
  case h_1 location callee argument more =>
      obtain ⟨mark, found, grown, stamped⟩ := Probe.Require.resolveArgument_stamps resolved
      by_cases isEval : name = some Probe.Require.evaluator
      · simp only [isEval, if_true] at mark grown stamped
        have marks : MarksEval (.call location callee (argument :: more)) a :=
          ⟨⟨_, _, _, _, rfl⟩, isEval ▸ matched⟩
        exact ⟨by simp [mark, marks], found, grown, by simpa [mark] using stamped⟩
      · simp only [isEval, if_false] at mark grown stamped
        have other : ¬ MarksEval (.call location callee (argument :: more)) a := by
          rintro ⟨_, asEval⟩
          rw [matched, Except.ok.injEq, Option.some.injEq] at asEval
          exact isEval asEval
        exact ⟨by simp [mark, other], found, grown, by simpa [mark] using stamped⟩
  case h_2 bare =>
      cases resolved
      have other : ¬ MarksEval e a := by
        rintro ⟨⟨location, callee, argument, more, rfl⟩, _⟩
        exact bare _ _ _ _ rfl
      exact ⟨by simp [other], [], by simp⟩

/-- **One step.**  A visit sets the mark at a load through `eval` and never takes it back, and the
dependencies that it adds carry the mark that it leaves behind. -/
theorem visit_marks {e : Expr} {a a' : Analysis} {inside : List Expr}
    (visited : visit defaultProbes e a = .ok (a', inside)) :
    (a'.viaEval = true ↔ a.viaEval = true ∨ MarksEval e a) ∧
      ∃ found, a'.dependencies = a.dependencies ++ found ∧ ∀ d ∈ found, d.viaEval = a'.viaEval := by
  rw [visit_eq] at visited
  obtain ⟨tracer, observed, visited⟩ := Outcome.bind_eq_ok_iff.1 visited
  obtain ⟨name?, matched, visited⟩ := Outcome.bind_eq_ok_iff.1 visited
  -- Observing a call changes nothing, so a load is matched in the state before the visit.
  have before : MarksEval e a ↔ MarksEval e { a with tracer } := by
    refine and_congr_right ?_
    rintro ⟨location, callee, argument, more, rfl⟩
    cases observed
    rfl
  rw [before]
  cases name? with
  | none =>
      simp only at visited
      split at visited
      · cases visited
      · cases visited
        obtain ⟨mark, found, grown, stamped⟩ := Probe.Import.settle_stamps e { a with tracer }
        have other : ¬ MarksEval e { a with tracer } := by
          rintro ⟨_, asEval⟩
          cases matched.symm.trans asEval
        exact ⟨by simp [mark, other], found, grown, fun d isNew => by rw [stamped d isNew, mark]⟩
  | some name =>
      obtain ⟨⟨a', signal⟩, resolved, visited⟩ := Outcome.bind_eq_ok_iff.1 visited
      cases visited
      exact resolve_marks matched resolved

/-! ## The whole pass -/

def Adds (entry : Expr × Analysis) (i : Nat) : Prop :=
  ∃ a' inside, visit defaultProbes entry.1 entry.2 = .ok (a', inside) ∧
    entry.2.dependencies.length ≤ i ∧ i < a'.dependencies.length

section Log

variable {stack : List Expr} {s r : Analysis} {log : List (Expr × Analysis)}

/-- The loop comes to a visit with the mark if it began with it or has met a load through `eval`. -/
theorem viaEval_of_takes (takes : Takes (visit defaultProbes) stack s log r) {j : Nat}
    {entry : Expr × Analysis} (number : log[j]? = some entry) :
    entry.2.viaEval = true ↔
      s.viaEval = true ∨ ∃ earlier ∈ log.take j, MarksEval earlier.1 earlier.2 := by
  induction takes generalizing j with
  | done s => simp at number
  | @take e stack inside s s₁ r log visited _ ih =>
      cases j with
      | zero =>
          cases number
          simp
      | succ j =>
          rw [List.getElem?_cons_succ] at number
          rw [ih number, (visit_marks visited).1, List.take_succ_cons, or_assoc]
          simp

theorem grows_of_takes (takes : Takes (visit defaultProbes) stack s log r) :
    Analysis.Grows s r := by
  induction takes with
  | done s => exact ⟨List.prefix_rfl, List.prefix_rfl⟩
  | take visited _ ih =>
      have first := visit_grows visited
      exact ⟨first.1.trans ih.1, first.2.trans ih.2⟩

/-- What a visit of the loop has recorded is still there at the end. -/
theorem grows_of_entry (takes : Takes (visit defaultProbes) stack s log r) {j : Nat} {e : Expr}
    {a a' : Analysis} {inside : List Expr} (number : log[j]? = some (e, a))
    (visited : visit defaultProbes e a = .ok (a', inside)) : Analysis.Grows a' r := by
  induction takes generalizing j with
  | done s => simp at number
  | @take e' stack inside' s s₁ r log visited' rest ih =>
      cases j with
      | zero =>
          cases number
          cases visited.symm.trans visited'
          exact grows_of_takes rest
      | succ j => exact ih number

/-- Every new dependency is added by some visit. -/
theorem exists_adds (takes : Takes (visit defaultProbes) stack s log r) {i : Nat}
    (new : s.dependencies.length ≤ i) (bound : i < r.dependencies.length) :
    ∃ (j : Nat) (entry : Expr × Analysis), log[j]? = some entry ∧ Adds entry i := by
  induction takes with
  | done s => omega
  | @take e stack inside s s₁ r log visited _ ih =>
      by_cases here : i < s₁.dependencies.length
      · exact ⟨0, (e, s), rfl, s₁, inside, visited, new, here⟩
      · obtain ⟨j, entry, number, adds⟩ := ih (Nat.le_of_not_lt here) bound
        exact ⟨j + 1, entry, number, adds⟩

/-- The mark of a dependency tells about the visits up to the one that added it. -/
theorem viaEval_of_adds (takes : Takes (visit defaultProbes) stack s log r) {i j : Nat}
    {d : Dependency} {entry : Expr × Analysis} (number : log[j]? = some entry)
    (adds : Adds entry i) (isHere : r.dependencies[i]? = some d) :
    d.viaEval = true ↔
      s.viaEval = true ∨ ∃ earlier ∈ log.take (j + 1), MarksEval earlier.1 earlier.2 := by
  obtain ⟨e, a⟩ := entry
  obtain ⟨a', inside, visited, new, bound⟩ := adds
  obtain ⟨marks, found, grown, stamped⟩ := visit_marks visited
  obtain ⟨later, kept⟩ := (grows_of_entry takes number visited).1
  have carried : d.viaEval = a'.viaEval := by
    rw [← kept, List.getElem?_append_left bound, grown, List.getElem?_append_right new] at isHere
    exact stamped d (List.mem_of_getElem? isHere)
  rw [carried, marks, viaEval_of_takes takes number, List.take_add_one, number, or_assoc]
  simp [or_and_right, exists_or]

/-- The marks of the dependencies do not fall, and the mark of the state is not below them. -/
def Rises (a : Analysis) : Prop :=
  a.dependencies.Pairwise (fun d d' => d.viaEval = true → d'.viaEval = true) ∧
    ∀ d ∈ a.dependencies, d.viaEval = true → a.viaEval = true

theorem Rises.visit {e : Expr} {a a' : Analysis} {inside : List Expr} (rises : Rises a)
    (visited : visit defaultProbes e a = .ok (a', inside)) : Rises a' := by
  obtain ⟨ordered, below⟩ := rises
  obtain ⟨marks, found, grown, stamped⟩ := visit_marks visited
  have stays : ∀ d ∈ a.dependencies, d.viaEval = true → a'.viaEval = true :=
    fun d old marked => marks.2 (.inl (below d old marked))
  rw [Rises, grown, List.pairwise_append]
  refine ⟨⟨ordered, ?_, ?_⟩, ?_⟩
  · rw [List.pairwise_iff_forall_sublist]
    intro d d' inside' marked
    have first := stamped d (inside'.subset (by simp))
    have second := stamped d' (inside'.subset (by simp))
    rw [second, ← first, marked]
  · intro d old d' new marked
    rw [stamped d' new]
    exact stays d old marked
  · intro d inside' marked
    rcases List.mem_append.1 inside' with old | new
    · exact stays d old marked
    · rw [← stamped d new, marked]

theorem Rises.takes (rises : Rises s) (takes : Takes (Pass.visit defaultProbes) stack s log r) :
    Rises r := by
  induction takes with
  | done s => exact rises
  | take visited _ ih => exact ih (rises.visit visited)

end Log

/-- **The life of the mark over a pass.**  Every dependency of the report has been added by a visit
of the loop, and it is marked exactly if that visit or an earlier one came to a load with an
argument that was matched under the name `eval`.  So along the report the marks never go back, and
in the end the state has no mark. -/
theorem viaEval_iff_marked_before {root : Expr} {file : Text} {hasErrors : Bool} {r : Analysis}
    (done : walk defaultProbes root (.start file hasErrors) = .ok r) :
    (∃ log last, Takes (visit defaultProbes) [root] (.start file hasErrors) log last ∧
      r = { last with viaEval := false } ∧
      ∀ (i : Nat) (d : Dependency), r.dependencies[i]? = some d →
        (∃ (j : Nat) (entry : Expr × Analysis), log[j]? = some entry ∧ Adds entry i) ∧
        ∀ (j : Nat) (entry : Expr × Analysis), log[j]? = some entry → Adds entry i →
          (d.viaEval = true ↔ ∃ earlier ∈ log.take (j + 1), MarksEval earlier.1 earlier.2)) ∧
    r.dependencies.Pairwise (fun d d' => d.viaEval = true → d'.viaEval = true) ∧
    r.viaEval = false := by
  obtain ⟨last, passed, rfl⟩ := passed_of_walk done
  obtain ⟨stops, tour⟩ := exists_tour visit_prunes passed
  have takes := tour.takes (.done last)
  rw [List.append_nil] at takes
  refine ⟨⟨_, last, takes, rfl, fun i d isHere => ⟨?_, fun j entry number adds => ?_⟩⟩, ?_, rfl⟩
  · exact exists_adds takes (Nat.zero_le i) (List.getElem?_eq_some_iff.1 isHere).1
  · rw [viaEval_of_adds takes number adds isHere]
    simp [Analysis.start]
  · have rises : Rises (.start file hasErrors) := ⟨.nil, by simp [Analysis.start]⟩
    exact (rises.takes takes).1

/-- `callee(text)`. -/
def loadBy (callee : Expr) (text : Text) : Expr := .call .unknown callee [.string .unknown text]

/-- `require("a"), eval("require")("b"), require("c")`. -/
def evalBetweenPlain : Expr :=
  .other .unknown .sequence
    [loadBy (.identifier .unknown "require") "a",
      loadBy (loadBy (.identifier .unknown "eval") "require") "b",
      loadBy (.identifier .unknown "require") "c"]

/-- The last load is a plain one, but an earlier visit came to a load through `eval`. -/
theorem evalBetweenPlain_marked :
    ∃ r, walk defaultProbes evalBetweenPlain (.start Analysis.inMemory false) = .ok r ∧
      r.dependencies.map (·.viaEval) = [false, true, true] ∧ r.viaEval = false ∧
      ∃ log last, Takes (visit defaultProbes) [evalBetweenPlain] (.start Analysis.inMemory false)
          log last ∧
        ∃ (j : Nat) (entry : Expr × Analysis), log[j]? = some entry ∧ Adds entry 2 ∧
          ∃ earlier ∈ log.take (j + 1), MarksEval earlier.1 earlier.2 := by
  obtain ⟨r, done⟩ : ∃ r, walk defaultProbes evalBetweenPlain (.start Analysis.inMemory false) =
      .ok r := ⟨_, rfl⟩
  obtain ⟨⟨log, last, takes, _, told⟩, _, ended⟩ := viaEval_iff_marked_before done
  cases done
  obtain ⟨⟨j, entry, number, adds⟩, marked⟩ := told 2 _ rfl
  exact ⟨_, rfl, rfl, ended, log, last, takes, j, entry, number, adds,
    (marked j entry number adds).1 rfl⟩

end Pass

end HiddenLoads
