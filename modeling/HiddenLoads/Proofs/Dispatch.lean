/-
# HiddenLoads.Proofs.Dispatch -- which resolvers a run of probes calls

`Probe.run` goes through a list of probes with a set of closed groups and two ways out.  What it does
can be said without either.  A run has a log, the calls of resolvers with the turn of each, and
`Probe.Dispatch` says which log is the right one, probe by probe:

* the resolver of a probe is called exactly if one of its validators matches when its turn comes, with
  the data of the first that does, and no call before has closed the probe;
* a call closes all later probes if its resolver asks to stop, or if its probe breaks on a match and
  has no group, and the later probes of its group if it breaks on a match and has one;
* every call starts from the state that the call before has left.

There is one such log at most (`Dispatch.unique`), and `run_eq_iff_ends` says that a run is what its
log says: it leaves the state of the last call and skips the inside of the expression exactly if some
call asked for it.  It fails only where a validator that is asked fails, or a resolver that is called.
-/
import HiddenLoads.Probe
import HiddenLoads.Proofs.Outcome
import Mathlib.Data.List.Sort
import Mathlib.Data.Set.Subsingleton

namespace HiddenLoads

set_option autoImplicit false

namespace Probe

variable {δ : Type}

/-! ## Calls and logs -/

def Declines (validator : Validator δ) (e : Expr) (t : Tracer) : Prop :=
  ∃ verdict, validator e t = .ok verdict ∧ verdict.matched = false

/-- Of some validators this one is asked: those before it decline. -/
def Asks (validators : List (Validator δ)) (e : Expr) (t : Tracer) (validator : Validator δ) : Prop :=
  ∃ before after, validators = before ++ validator :: after ∧
    ∀ other ∈ before, Declines other e t

def Matches (p : Probe δ) (e : Expr) (t : Tracer) (data : δ) : Prop :=
  ∃ validator, Asks p.validators e t validator ∧ validator e t = .ok ⟨true, data⟩

/-- A call of a resolver: the turn of its probe, what it is given and what it answers. -/
structure Invocation (δ : Type) where
  turn : Nat
  probe : Probe δ
  data : δ
  before : Analysis
  after : Analysis
  signal : Option Signal

/-- The call keeps a later probe from running. -/
def Invocation.Closes (i : Invocation δ) (p : Probe δ) : Prop :=
  i.signal = some .stop ∨
    i.probe.breaksOnMatch = true ∧ (i.probe.group = none ∨ i.probe.group = p.group)

def Open (p : Probe δ) (log : List (Invocation δ)) : Prop := ∀ i ∈ log, ¬ i.Closes p

def earlier (log : List (Invocation δ)) (turn : Nat) : List (Invocation δ) :=
  log.filter fun i => i.turn < turn

def lastState (a : Analysis) (log : List (Invocation δ)) : Analysis :=
  (log.getLast?.map Invocation.after).getD a

/-- The log of the calls on an expression. -/
structure Dispatch (probes : List (Probe δ)) (e : Expr) (a : Analysis) (log : List (Invocation δ)) :
    Prop where
  /-- The calls are made in the order of the probes, and at most one for each. -/
  ordered : log.Pairwise fun i j => i.turn < j.turn
  /-- A call is one of the resolver of the probe whose turn it is, in the state at that time. -/
  called : ∀ i ∈ log, probes[i.turn]? = some i.probe ∧ i.before = lastState a (earlier log i.turn) ∧
    i.probe.resolve e i.before i.data = .ok (i.after, i.signal)
  /-- A resolver is called with some data exactly if its probe matches with it and is open. -/
  invoked : ∀ turn p, probes[turn]? = some p → ∀ data,
    (∃ i ∈ log, i.turn = turn ∧ i.data = data) ↔
      p.Open (earlier log turn) ∧ p.Matches e (lastState a (earlier log turn)).tracer data
  /-- No validator of an open probe fails when it is asked. -/
  answered : ∀ turn p, probes[turn]? = some p → p.Open (earlier log turn) →
    ∀ validator, Asks p.validators e (lastState a (earlier log turn)).tracer validator →
      ∃ verdict, validator e (lastState a (earlier log turn)).tracer = .ok verdict

/-- A validator that is asked fails, or the resolver that is called. -/
def Fails (p : Probe δ) (e : Expr) (a : Analysis) (failure : Failure) : Prop :=
  (∃ validator, Asks p.validators e a.tracer validator ∧ validator e a.tracer = .error failure) ∨
    ∃ data, p.Matches e a.tracer data ∧ p.resolve e a data = .error failure

/-- How a run ends: with its log, or with the failure of an open probe behind those of a log. -/
inductive Ends (probes : List (Probe δ)) (e : Expr) (a : Analysis) :
    Except Failure (Analysis × Bool) → Prop
  | completes {log : List (Invocation δ)} {skip : Bool} (dispatch : Dispatch probes e a log)
      (skips : skip = true ↔ ∃ i ∈ log, i.signal = some .skip) :
      Ends probes e a (.ok (lastState a log, skip))
  | fails {before after : List (Probe δ)} {p : Probe δ} {log : List (Invocation δ)}
      {failure : Failure} (split : probes = before ++ p :: after) (dispatch : Dispatch before e a log)
      (isOpen : p.Open log) (fails : p.Fails e (lastState a log) failure) :
      Ends probes e a (.error failure)

/-! ## The first validator that matches -/

section Validators

variable {e : Expr} {t : Tracer} {validators : List (Validator δ)}

/-- Validators that decline are passed over. -/
theorem firstMatch_append {before : List (Validator δ)} (decline : ∀ other ∈ before, Declines other e t)
    (rest : List (Validator δ)) : firstMatch e t (before ++ rest) = firstMatch e t rest := by
  induction before with
  | nil => rfl
  | cons first before ih =>
      obtain ⟨⟨verdict, answers, unmatched⟩, more⟩ := List.forall_mem_cons.1 decline
      rw [List.cons_append, firstMatch, answers, Outcome.ok_bind, unmatched]
      exact ih more

/-- A validator that is asked and does not decline decides. -/
theorem firstMatch_of_asks {validator : Validator δ} (asks : Asks validators e t validator)
    (decides : ¬ Declines validator e t) :
    firstMatch e t validators = validator e t >>= fun verdict => .ok (some verdict.data) := by
  obtain ⟨before, after, rfl, decline⟩ := asks
  rw [firstMatch_append decline, firstMatch]
  cases answers : validator e t with
  | error failure => rfl
  | ok verdict =>
      have matched : verdict.matched = true := by
        by_contra unmatched
        exact decides ⟨verdict, answers, eq_false_of_ne_true unmatched⟩
      simp only [Outcome.ok_bind, matched, if_true]

/-- No validator matches, or one that is asked does not decline. -/
theorem firstMatch_cases (e : Expr) (t : Tracer) (validators : List (Validator δ)) :
    firstMatch e t validators = .ok none ∨
      ∃ validator, Asks validators e t validator ∧ ¬ Declines validator e t := by
  induction validators with
  | nil => exact .inl rfl
  | cons first rest ih =>
      by_cases declines : Declines first e t
      · have alone : ∀ other ∈ [first], Declines other e t := by simpa using declines
        rcases ih with none | ⟨validator, ⟨before, after, split, decline⟩, decides⟩
        · exact .inl ((firstMatch_append alone rest).trans none)
        · refine .inr ⟨validator, ⟨first :: before, after, ?_, ?_⟩, decides⟩
          · rw [split, List.cons_append]
          · exact List.forall_mem_cons.2 ⟨declines, decline⟩
      · exact .inr ⟨first, ⟨[], rest, rfl, List.forall_mem_nil _⟩, declines⟩

end Validators

theorem match?_eq_some_iff {p : Probe δ} {e : Expr} {t : Tracer} {data : δ} :
    p.match? e t = .ok (some data) ↔ p.Matches e t data := by
  rw [match?]
  constructor
  · intro found
    rcases firstMatch_cases e t p.validators with none | ⟨validator, asks, decides⟩
    · cases found.symm.trans none
    · rw [firstMatch_of_asks asks decides] at found
      obtain ⟨⟨matched, data'⟩, answers, same⟩ := Outcome.bind_eq_ok_iff.1 found
      cases same
      cases matched with
      | true => exact ⟨validator, asks, answers⟩
      | false => exact absurd ⟨_, answers, rfl⟩ decides
  · rintro ⟨validator, asks, answers⟩
    have decides : ¬ Declines validator e t := by
      rintro ⟨verdict, answers', unmatched⟩
      cases answers.symm.trans answers'
      cases unmatched
    rw [firstMatch_of_asks asks decides, answers]
    rfl

theorem match?_eq_error_iff {p : Probe δ} {e : Expr} {t : Tracer} {failure : Failure} :
    p.match? e t = .error failure ↔
      ∃ validator, Asks p.validators e t validator ∧ validator e t = .error failure := by
  rw [match?]
  constructor
  · intro failed
    rcases firstMatch_cases e t p.validators with none | ⟨validator, asks, decides⟩
    · cases failed.symm.trans none
    · rw [firstMatch_of_asks asks decides] at failed
      rcases Outcome.bind_eq_error_iff.1 failed with fails | ⟨verdict, -, fails⟩
      · exact ⟨validator, asks, fails⟩
      · cases fails
  · rintro ⟨validator, asks, fails⟩
    have decides : ¬ Declines validator e t := by
      rintro ⟨verdict, answers, -⟩
      cases fails.symm.trans answers
    rw [firstMatch_of_asks asks decides, fails]
    rfl

/-- The probe answers if no validator that is asked fails. -/
theorem exists_match?_iff {p : Probe δ} {e : Expr} {t : Tracer} :
    (∃ data?, p.match? e t = .ok data?) ↔
      ∀ validator, Asks p.validators e t validator → ∃ verdict, validator e t = .ok verdict := by
  constructor
  · rintro ⟨data?, answers⟩ validator asks
    cases answer : validator e t with
    | ok verdict => exact ⟨verdict, rfl⟩
    | error failure => cases answers.symm.trans (match?_eq_error_iff.2 ⟨validator, asks, answer⟩)
  · intro answer
    cases matched : p.match? e t with
    | ok data? => exact ⟨data?, rfl⟩
    | error failure =>
        obtain ⟨validator, asks, fails⟩ := match?_eq_error_iff.1 matched
        obtain ⟨verdict, answers⟩ := answer validator asks
        cases fails.symm.trans answers

/-! ## One probe more -/

section Log

variable {probes done : List (Probe δ)} {p : Probe δ} {e : Expr} {a : Analysis}
  {log : List (Invocation δ)} {i : Invocation δ} {turn : Nat}

theorem mem_earlier : i ∈ earlier log turn ↔ i ∈ log ∧ i.turn < turn := by
  simp [earlier]

/-- A later call is not among the earlier ones. -/
theorem earlier_concat (later : turn ≤ i.turn) : earlier (log ++ [i]) turn = earlier log turn := by
  simp [earlier, Nat.not_lt.2 later]

theorem earlier_of_lt (before : ∀ i ∈ log, i.turn < turn) : earlier log turn = log := by
  rw [earlier, List.filter_eq_self]
  simpa using before

theorem lastState_concat (a : Analysis) (log : List (Invocation δ)) (i : Invocation δ) :
    lastState a (log ++ [i]) = i.after := by
  simp [lastState]

/-- The probes of a log are among those that were run. -/
theorem Dispatch.turn_lt (dispatch : Dispatch probes e a log) (member : i ∈ log) :
    i.turn < probes.length := by
  obtain ⟨isProbe, -⟩ := dispatch.called i member
  exact (List.getElem?_eq_some_iff.1 isProbe).1

theorem Dispatch.earlier_length (dispatch : Dispatch probes e a log) :
    earlier log probes.length = log := earlier_of_lt fun _ member => dispatch.turn_lt member

theorem dispatch_nil (e : Expr) (a : Analysis) : Dispatch ([] : List (Probe δ)) e a [] where
  ordered := .nil
  called := List.forall_mem_nil _
  invoked turn p listed := by simp at listed
  answered turn p listed := by simp at listed

/-- A turn of one probe more is a turn of the others, or the last one. -/
theorem turn_cases {p' : Probe δ} (listed : (done ++ [p])[turn]? = some p') :
    turn < done.length ∧ done[turn]? = some p' ∨ turn = done.length ∧ p' = p := by
  rcases Nat.lt_trichotomy turn done.length with less | rfl | more
  · rw [List.getElem?_append_left less] at listed
    exact .inl ⟨less, listed⟩
  · rw [List.getElem?_concat_length, Option.some.injEq] at listed
    exact .inr ⟨rfl, listed.symm⟩
  · rw [List.getElem?_eq_none (by rw [List.length_append, List.length_singleton]; omega)] at listed
    cases listed

/-- A probe that is closed or does not match leaves the log as it is. -/
theorem Dispatch.pass (dispatch : Dispatch done e a log)
    (quiet : p.Open log → p.match? e (lastState a log).tracer = .ok none) :
    Dispatch (done ++ [p]) e a log where
  ordered := dispatch.ordered
  called i member := by
    obtain ⟨isProbe, call⟩ := dispatch.called i member
    rw [List.getElem?_append_left (dispatch.turn_lt member)]
    exact ⟨isProbe, call⟩
  invoked turn p' listed data := by
    rcases turn_cases listed with ⟨-, listed⟩ | ⟨rfl, rfl⟩
    · exact dispatch.invoked turn p' listed data
    · rw [dispatch.earlier_length]
      constructor
      · rintro ⟨i, member, here, -⟩
        exact absurd here (Nat.ne_of_lt (dispatch.turn_lt member))
      · rintro ⟨isOpen, found⟩
        cases (quiet isOpen).symm.trans (match?_eq_some_iff.2 found)
  answered turn p' listed := by
    rcases turn_cases listed with ⟨-, listed⟩ | ⟨rfl, rfl⟩
    · exact dispatch.answered turn p' listed
    · rw [dispatch.earlier_length]
      intro isOpen
      exact exists_match?_iff.1 ⟨none, quiet isOpen⟩

def call (done : List (Probe δ)) (p : Probe δ) (a : Analysis) (log : List (Invocation δ)) (data : δ)
    (after : Analysis) (signal : Option Signal) : Invocation δ :=
  ⟨done.length, p, data, lastState a log, after, signal⟩

section Call

variable {data : δ} {after : Analysis} {signal : Option Signal}

theorem Dispatch.earlier_call (dispatch : Dispatch done e a log) :
    earlier (log ++ [call done p a log data after signal]) done.length = log :=
  (earlier_concat (Nat.le_refl _)).trans dispatch.earlier_length

/-- The resolver of an open probe that matches is called. -/
theorem Dispatch.invoke (dispatch : Dispatch done e a log) (isOpen : p.Open log)
    (found : p.match? e (lastState a log).tracer = .ok (some data))
    (resolves : p.resolve e (lastState a log) data = .ok (after, signal)) :
    Dispatch (done ++ [p]) e a (log ++ [call done p a log data after signal]) where
  ordered := by
    refine List.pairwise_append.2 ⟨dispatch.ordered, List.pairwise_singleton _ _, ?_⟩
    intro i member j last
    rw [List.mem_singleton.1 last]
    exact dispatch.turn_lt member
  called i member := by
    rcases List.mem_append.1 member with member | last
    · obtain ⟨isProbe, before, resolves⟩ := dispatch.called i member
      have less := dispatch.turn_lt member
      rw [List.getElem?_append_left less, earlier_concat (Nat.le_of_lt less)]
      exact ⟨isProbe, before, resolves⟩
    · rw [List.mem_singleton.1 last]
      exact ⟨List.getElem?_concat_length, congrArg (lastState a) dispatch.earlier_call.symm, resolves⟩
  invoked turn p' listed data' := by
    rcases turn_cases listed with ⟨less, listed⟩ | ⟨rfl, rfl⟩
    · rw [earlier_concat (Nat.le_of_lt less), ← dispatch.invoked turn p' listed data']
      constructor
      · rintro ⟨i, member, here, same⟩
        rcases List.mem_append.1 member with member | last
        · exact ⟨i, member, here, same⟩
        · rw [List.mem_singleton.1 last] at here
          exact absurd here (Nat.ne_of_gt less)
      · rintro ⟨i, member, call⟩
        exact ⟨i, List.mem_append_left _ member, call⟩
    · rw [dispatch.earlier_call, ← match?_eq_some_iff, found]
      constructor
      · rintro ⟨i, member, turn, rfl⟩
        rcases List.mem_append.1 member with member | last
        · exact absurd turn (Nat.ne_of_lt (dispatch.turn_lt member))
        · rw [List.mem_singleton.1 last]
          exact ⟨isOpen, rfl⟩
      · rintro ⟨-, same⟩
        cases same
        exact ⟨_, List.mem_append_right _ (List.mem_singleton_self _), rfl, rfl⟩
  answered turn p' listed := by
    rcases turn_cases listed with ⟨less, listed⟩ | ⟨rfl, rfl⟩
    · rw [earlier_concat (Nat.le_of_lt less)]
      exact dispatch.answered turn p' listed
    · rw [dispatch.earlier_call]
      intro _
      exact exists_match?_iff.1 ⟨some data, found⟩

end Call

/-- Behind calls that close every probe nothing is called. -/
theorem Dispatch.stop (dispatch : Dispatch done e a log) (closed : ∀ p : Probe δ, ¬ p.Open log)
    (rest : List (Probe δ)) : Dispatch (done ++ rest) e a log := by
  induction rest generalizing done with
  | nil => rwa [List.append_nil]
  | cons p rest ih =>
      rw [List.append_cons]
      exact ih (dispatch.pass fun isOpen => absurd isOpen (closed p))

/-! ## One log -/

/-- What was called before a turn decides what is called then. -/
theorem Dispatch.transfer {log' : List (Invocation δ)} (one : Dispatch probes e a log)
    (two : Dispatch probes e a log') (same : earlier log i.turn = earlier log' i.turn)
    (member : i ∈ log) : i ∈ log' := by
  obtain ⟨isProbe, before, resolves⟩ := one.called i member
  have reason := (one.invoked i.turn i.probe isProbe i.data).1 ⟨i, member, rfl, rfl⟩
  rw [same] at reason before
  obtain ⟨j, member', turn, data⟩ := (two.invoked i.turn i.probe isProbe i.data).2 reason
  obtain ⟨isProbe', before', resolves'⟩ := two.called j member'
  rw [turn, isProbe, Option.some.injEq] at isProbe'
  rw [turn, ← before] at before'
  rw [← isProbe', before', data, resolves, Except.ok.injEq, Prod.mk.injEq] at resolves'
  have equal : i = j := by
    cases i
    cases j
    simp_all
  rwa [equal]

/-- Calls in the order of their turns are known by their members. -/
theorem eq_of_ordered {log' : List (Invocation δ)} (ordered : log.Pairwise fun i j => i.turn < j.turn)
    (ordered' : log'.Pairwise fun i j => i.turn < j.turn) (same : ∀ i, i ∈ log ↔ i ∈ log') :
    log = log' := by
  have : Std.Irrefl fun i j : Invocation δ => i.turn < j.turn := ⟨fun i => Nat.lt_irrefl i.turn⟩
  have : Std.Antisymm fun i j : Invocation δ => i.turn < j.turn :=
    ⟨fun i j less more => absurd less (Nat.lt_asymm more)⟩
  exact ordered.eq_of_mem_iff ordered' same

theorem Dispatch.earlier_eq {log' : List (Invocation δ)} (one : Dispatch probes e a log)
    (two : Dispatch probes e a log') (turn : Nat) : earlier log turn = earlier log' turn := by
  induction turn with
  | zero => simp [earlier]
  | succ turn ih =>
      refine eq_of_ordered (one.ordered.filter _) (two.ordered.filter _) fun i => ?_
      show i ∈ earlier log (turn + 1) ↔ i ∈ earlier log' (turn + 1)
      rw [mem_earlier, mem_earlier, and_congr_left_iff]
      intro less
      rcases Nat.lt_succ_iff_lt_or_eq.1 less with less | rfl
      · have same : i ∈ earlier log turn ↔ i ∈ earlier log' turn := by rw [ih]
        simpa [mem_earlier, less] using same
      · exact ⟨one.transfer two ih, two.transfer one ih.symm⟩

/-- **There is one log.** -/
theorem Dispatch.unique {log' : List (Invocation δ)} (one : Dispatch probes e a log)
    (two : Dispatch probes e a log') : log = log' := by
  rw [← one.earlier_length, one.earlier_eq two, two.earlier_length]

theorem earlier_earlier {turn' : Nat} (le : turn ≤ turn') :
    earlier (earlier log turn') turn = earlier log turn := by
  rw [earlier, earlier, earlier, List.filter_filter]
  apply List.filter_congr
  intro i _
  rw [← Bool.decide_and, decide_eq_decide]
  omega

/-- The calls of the first probes are their log. -/
theorem Dispatch.take {rest : List (Probe δ)} (dispatch : Dispatch (done ++ rest) e a log) :
    Dispatch done e a (earlier log done.length) where
  ordered := dispatch.ordered.filter _
  called i member := by
    obtain ⟨member, less⟩ := mem_earlier.1 member
    rw [earlier_earlier (Nat.le_of_lt less), ← List.getElem?_append_left less]
    exact dispatch.called i member
  invoked turn p listed data := by
    have less := (List.getElem?_eq_some_iff.1 listed).1
    rw [← List.getElem?_append_left less] at listed
    rw [earlier_earlier (Nat.le_of_lt less), ← dispatch.invoked turn p listed data]
    simp only [mem_earlier]
    constructor
    · rintro ⟨i, ⟨member, -⟩, call⟩
      exact ⟨i, member, call⟩
    · rintro ⟨i, member, rfl, data⟩
      exact ⟨i, ⟨member, less⟩, rfl, data⟩
  answered turn p listed := by
    have less := (List.getElem?_eq_some_iff.1 listed).1
    rw [← List.getElem?_append_left less] at listed
    rw [earlier_earlier (Nat.le_of_lt less)]
    exact dispatch.answered turn p listed

/-- No open probe of a log fails. -/
theorem Dispatch.not_fails {rest : List (Probe δ)} {first : List (Invocation δ)} {failure : Failure}
    (dispatch : Dispatch (done ++ p :: rest) e a log) (start : Dispatch done e a first)
    (isOpen : p.Open first) : ¬ p.Fails e (lastState a first) failure := by
  have listed : (done ++ p :: rest)[done.length]? = some p := by simp
  have same := start.unique dispatch.take
  rw [same] at isOpen ⊢
  rintro (⟨validator, asks, fails⟩ | ⟨data, found, fails⟩)
  · obtain ⟨verdict, answers⟩ := dispatch.answered _ p listed isOpen validator asks
    cases fails.symm.trans answers
  · obtain ⟨i, member, turn, rfl⟩ := (dispatch.invoked _ p listed data).2 ⟨isOpen, found⟩
    obtain ⟨isProbe, before, resolves⟩ := dispatch.called i member
    rw [turn] at isProbe before
    cases listed.symm.trans isProbe
    rw [before, fails] at resolves
    cases resolves

/-! ## A run and its log -/

theorem open_concat : p.Open (log ++ [i]) ↔ p.Open log ∧ ¬ i.Closes p := by
  simp [Open, or_imp, forall_and]

theorem skips_concat {skip : Bool} (skips : skip = true ↔ ∃ j ∈ log, j.signal = some .skip) :
    (skip || decide (i.signal = some .skip)) = true ↔ ∃ j ∈ log ++ [i], j.signal = some .skip := by
  rw [Bool.or_eq_true, skips, decide_eq_true_iff]
  simp [or_and_right, exists_or]

theorem inGroups_nil (p : Probe δ) : p.inGroups [] = false := by
  rw [inGroups]
  cases p.group <;> rfl

theorem inGroups_cons (p : Probe δ) (group : Text) (groups : List Text) :
    p.inGroups (group :: groups) = false ↔ p.inGroups groups = false ∧ p.group ≠ some group := by
  rw [inGroups, inGroups]
  cases p.group with
  | none => simp
  | some own => simp [and_comm]

/-- Behind a call that closes every probe the run is over. -/
theorem ends_of_closes {skip : Bool} (dispatch : Dispatch (done ++ [p]) e a (log ++ [i]))
    (closes : ∀ other : Probe δ, i.Closes other)
    (skips : skip = true ↔ ∃ j ∈ log ++ [i], j.signal = some .skip) (rest : List (Probe δ)) :
    Ends (done ++ p :: rest) e a (.ok (i.after, skip)) := by
  rw [List.append_cons, ← lastState_concat a log i]
  refine .completes (dispatch.stop (fun other isOpen => ?_) rest) skips
  exact (open_concat.1 isOpen).2 (closes other)

/-- **From any turn on.**  If the calls so far are the log of the probes so far, and the closed groups
and the wish to skip are theirs, then running the rest ends as the log of all probes says. -/
theorem ends_of_runFrom {closed : List Text} {skip : Bool} (dispatch : Dispatch done e a log)
    (groups : ∀ p : Probe δ, p.inGroups closed = false ↔ p.Open log)
    (skips : skip = true ↔ ∃ i ∈ log, i.signal = some .skip) (rest : List (Probe δ)) :
    Ends (done ++ rest) e a (runFrom e rest closed skip (lastState a log)) := by
  induction rest generalizing done log closed skip with
  | nil =>
      rw [List.append_nil, runFrom]
      exact .completes dispatch skips
  | cons p rest ih =>
      rw [runFrom]
      by_cases inside : p.inGroups closed = true
      · have shut : ¬ p.Open log := by simp [← groups, inside]
        rw [if_pos inside, List.append_cons]
        exact ih (dispatch.pass fun isOpen => absurd isOpen shut) groups skips
      have isOpen := (groups p).1 (eq_false_of_ne_true inside)
      rw [if_neg inside]
      rcases matched : p.match? e (lastState a log).tracer with failure | _ | data
      · exact .fails rfl dispatch isOpen (.inl (match?_eq_error_iff.1 matched))
      · rw [List.append_cons]
        exact ih (dispatch.pass fun _ => matched) groups skips
      simp only [Outcome.ok_bind]
      rcases resolved : p.resolve e (lastState a log) data with failure | ⟨after, signal⟩
      · exact .fails rfl dispatch isOpen (.inr ⟨data, match?_eq_some_iff.1 matched, resolved⟩)
      simp only [Outcome.ok_bind]
      -- the resolver is called, and what its call closes decides how the run goes on
      have called := dispatch.invoke isOpen matched resolved
      have skips' := skips_concat (i := call done p a log data after signal) skips
      have goOn (closed' : List Text) (groups' : ∀ other : Probe δ, other.inGroups closed' = false ↔
          other.Open (log ++ [call done p a log data after signal])) := by
        have ends := ih called groups' skips'
        rwa [lastState_concat, ← List.append_cons] at ends
      by_cases stop : signal = some .stop
      · rw [if_pos stop]
        refine ends_of_closes called (fun _ => .inl stop) ?_ rest
        simpa [call, stop] using skips'
      rw [if_neg stop]
      by_cases breaks : p.breaksOnMatch = true
      · rw [if_pos breaks]
        cases member : p.group with
        | none => exact ends_of_closes called (fun _ => .inr ⟨breaks, .inl member⟩) skips' rest
        | some group =>
            refine goOn (group :: closed) fun other => ?_
            rw [inGroups_cons, groups, open_concat]
            simp [Invocation.Closes, call, stop, breaks, member, eq_comm]
      · rw [if_neg breaks]
        refine goOn closed fun other => ?_
        rw [groups, open_concat]
        simp [Invocation.Closes, call, stop, breaks]

end Log

/-! ## One outcome -/

/-- A probe fails in one way. -/
theorem Fails.unique {p : Probe δ} {e : Expr} {a : Analysis} {failure failure' : Failure}
    (one : p.Fails e a failure) (two : p.Fails e a failure') : failure = failure' := by
  simp only [Fails, ← match?_eq_error_iff, ← match?_eq_some_iff] at one two
  rcases one with fails | ⟨data, found, fails⟩ <;> rcases two with fails' | ⟨data', found', fails'⟩
  · cases fails.symm.trans fails'
    rfl
  · cases fails.symm.trans found'
  · cases found.symm.trans fails'
  · cases found.symm.trans found'
    cases fails.symm.trans fails'
    rfl

/-- A run ends in one way. -/
theorem Ends.unique {probes : List (Probe δ)} {e : Expr} {a : Analysis}
    {outcome outcome' : Except Failure (Analysis × Bool)} (one : Ends probes e a outcome)
    (two : Ends probes e a outcome') : outcome = outcome' := by
  cases one with
  | completes dispatch skips =>
      cases two with
      | completes dispatch' skips' =>
          cases dispatch.unique dispatch'
          rw [Bool.eq_iff_iff.2 (skips.trans skips'.symm)]
      | fails split start isOpen fails =>
          subst split
          exact absurd fails (dispatch.not_fails start isOpen)
  | @fails before after p log failure split start isOpen fails =>
      cases two with
      | completes dispatch skips =>
          subst split
          exact absurd fails (dispatch.not_fails start isOpen)
      | @fails before' after' p' log' failure' split' start' isOpen' fails' =>
          -- neither of the two probes that fail comes before the other
          have same : before = before' ∧ p = p' := by
            rcases List.append_eq_append_iff.1 (split.symm.trans split') with
              ⟨_ | ⟨first, more⟩, rfl, rest⟩ | ⟨_ | ⟨first, more⟩, rfl, rest⟩
            · cases rest
              exact ⟨(List.append_nil before).symm, rfl⟩
            · cases rest
              exact absurd fails (start'.not_fails start isOpen)
            · cases rest
              exact ⟨List.append_nil before', rfl⟩
            · cases rest
              exact absurd fails' (start.not_fails start' isOpen')
          obtain ⟨rfl, rfl⟩ := same
          cases start.unique start'
          rw [fails.unique fails']

/-- **A run is what its log says.**  For every list of probes, whatever their validators, resolvers,
groups and signals, running it on an expression gives exactly what the log of its calls gives: the
state of the last one, and the wish to skip if one of them has it.  Where a validator or a resolver
fails whose turn it is, the run fails in that way.  And the log is the only one. -/
theorem run_eq_iff_ends (probes : List (Probe δ)) (e : Expr) (a : Analysis)
    (outcome : Except Failure (Analysis × Bool)) :
    (run probes e a = outcome ↔ Ends probes e a outcome) ∧
      { log | Dispatch probes e a log }.Subsingleton := by
  have ends : Ends probes e a (run probes e a) := by
    apply ends_of_runFrom (dispatch_nil e a) _ _ probes
    · intro p
      simp [Open, inGroups_nil]
    · simp
  constructor
  · constructor
    · rintro rfl
      exact ends
    · intro other
      exact ends.unique other
  · intro log one log' two
    exact one.unique two

/-- A probe that matches everything and records its own name. -/
def recording (name : Text) (group : Option Text) (breaksOnMatch : Bool) (signal : Option Signal) :
    Probe Unit where
  name := name
  validators := [fun _ _ => .ok ⟨true, ()⟩]
  resolve := fun _ a _ => .ok (a.addDependency name none false, signal)
  teardown := none
  breaksOnMatch := breaksOnMatch
  group := group

-- `a` closes its group, so `b` does not run; `c` closes everything and asks to skip
example :
    ∃ a, run [recording "a" (some "loads") true none, recording "b" (some "loads") false none,
        recording "c" none true (some .skip), recording "d" none false none] .missing
          (.start Analysis.inMemory false) = .ok (a, true) ∧
      a.dependencies.map (·.specifier) = ["a", "c"] :=
  ⟨_, rfl, rfl⟩

end Probe

end HiddenLoads
