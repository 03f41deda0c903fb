/-
# HiddenLoads.Proofs.Visit -- what a pass does at one expression

A visit with the default probes is three steps: the tracer observes the expression, the probe
for `require` is asked, and the probe for `import` is asked if the first one does not match
(`Pass.visit_eq`).  Whatever matches, a visit adds records at the span of the expression and
changes nothing else that is reported (`Analysis.Records`), and only a load whose first argument
is a call keeps the pass from going inside.
-/
import HiddenLoads.Pass
import HiddenLoads.Proofs.Observe
import HiddenLoads.Proofs.Traversal

namespace HiddenLoads

set_option autoImplicit false

def Expr.isSite : Expr → Bool
  | .call .. | .importFrom .. => true
  | _ => false

/-! ## Records at one span -/

namespace Analysis

/-- Between two states of a pass, records at one span have been added; the names keep their
meanings. -/
structure Records (site : Span) (a a' : Analysis) : Prop where
  tracer : a'.tracer = a.tracer
  dependencies : ∃ found, a'.dependencies = a.dependencies ++ found ∧
    ∀ d ∈ found, d.location = some site
  warnings : ∃ raised, a'.warnings = a.warnings ++ raised ∧
    ∀ w ∈ raised, w = ⟨Warning.unsafeImport, some site, none⟩

namespace Records

variable {site : Span} {a a' a'' : Analysis}

theorem of_eq (tracer : a'.tracer = a.tracer) (dependencies : a'.dependencies = a.dependencies)
    (warnings : a'.warnings = a.warnings) : Records site a a' :=
  ⟨tracer, ⟨[], by simp [dependencies]⟩, ⟨[], by simp [warnings]⟩⟩

theorem refl (site : Span) (a : Analysis) : Records site a a := .of_eq rfl rfl rfl

theorem trans (one : Records site a a') (two : Records site a' a'') : Records site a a'' := by
  obtain ⟨found, grown, at₁⟩ := one.dependencies
  obtain ⟨found', grown', at₂⟩ := two.dependencies
  obtain ⟨raised, warned, is₁⟩ := one.warnings
  obtain ⟨raised', warned', is₂⟩ := two.warnings
  refine ⟨two.tracer.trans one.tracer, ⟨found ++ found', ?_, ?_⟩, ⟨raised ++ raised', ?_, ?_⟩⟩
  · rw [grown', grown, List.append_assoc]
  · exact fun d inside => (List.mem_append.1 inside).elim (at₁ d) (at₂ d)
  · rw [warned', warned, List.append_assoc]
  · exact fun w inside => (List.mem_append.1 inside).elim (is₁ w) (is₂ w)

end Records

def Grows (a a' : Analysis) : Prop :=
  a.dependencies <+: a'.dependencies ∧ a.warnings <+: a'.warnings

theorem Records.grows {site : Span} {a a' : Analysis} (records : Records site a a') :
    Grows a a' := by
  obtain ⟨found, grown, _⟩ := records.dependencies
  obtain ⟨raised, warned, _⟩ := records.warnings
  exact ⟨⟨found, grown.symm⟩, ⟨raised, warned.symm⟩⟩

theorem addDependency_records (a : Analysis) (specifier : Text) (site : Span) (dynamic : Bool) :
    Records site a (a.addDependency specifier (some site) dynamic) := by
  rw [addDependency]
  split
  · exact .refl site a
  · exact ⟨rfl, ⟨[_], rfl, by simp⟩, ⟨[], by simp⟩⟩

theorem addUnsafe_records (a : Analysis) (site : Span) : Records site a (a.addUnsafe site) :=
  ⟨rfl, ⟨[], by simp [addUnsafe, addWarning]⟩, ⟨[_], rfl, by simp⟩⟩

end Analysis

namespace Probe.Require

open Analysis

theorem addSpecifier_records (a : Analysis) (specifier : Text) (site : Span) :
    Records site a (addSpecifier a specifier site) := by
  rw [addSpecifier]
  split
  · exact addUnsafe_records a site
  · exact addDependency_records a specifier site false

theorem addSpecifier?_records (a : Analysis) (specifier : Option Text) (site : Span) :
    Records site a (addSpecifier? a specifier site) := by
  cases specifier with
  | some text => exact addSpecifier_records a text site
  | none => exact addUnsafe_records a site

/-- The joined pieces of an array are a specifier like any other. -/
theorem addSpecifier_strip (a : Analysis) (joined : Text) (site : Span) :
    addSpecifier a joined.strip site =
      if joined.strip = [] then a.addUnsafe site
      else a.addDependency joined.strip (some site) false := by
  rw [addSpecifier, Text.isBlank_strip]
  simp only [decide_eq_true_eq]

theorem addAll_records (site : Span) (specifiers : List Text) (a : Analysis) :
    Records site a (specifiers.foldl (fun a s => a.addDependency s (some site) true) a) := by
  induction specifiers generalizing a with
  | nil => exact .refl site a
  | cons s specifiers ih => exact (addDependency_records a s site true).trans (ih _)

theorem addRecovered_records (a : Analysis) (r : Recovery) (site : Span) :
    Records site a (addRecovered a r site) := by
  rw [addRecovered]
  split
  · exact (addAll_records site r.specifiers a).trans (addUnsafe_records _ site)
  · exact addAll_records site r.specifiers a

/-- A load behind a call raises no warning only if the walk ends without suspicion. -/
theorem not_suspicious_of_quiet {a : Analysis} {r : Recovery} {site : Span}
    (quiet : (addRecovered a r site).warnings = []) : r.suspicious = false := by
  cases suspicious : r.suspicious with
  | false => rfl
  | true => simp [addRecovered, suspicious, addUnsafe, addWarning] at quiet

def hidesCall : Expr → Bool
  | .call _ _ (.call .. :: _) => true
  | _ => false

/-- A first argument that is no call gives a specifier, if one can be read off; a call gives what
the walk through it recovers. -/
theorem resolveArgument_cases {a a' : Analysis} {site : Span} {argument : Expr}
    {signal : Option Signal} (resolved : resolveArgument site argument a = .ok (a', signal)) :
    ((∀ span callee arguments, argument ≠ .call span callee arguments) ∧ signal = none ∧
      ∃ specifier, a' = addSpecifier? a specifier site) ∨
    ∃ span callee arguments recovered, argument = .call span callee arguments ∧
      signal = some .skip ∧ Recovery.walk a.tracer argument = .ok recovered ∧
      a' = addRecovered a recovered site := by
  cases argument with
  | identifier span name =>
      cases resolved
      exact .inl ⟨nofun, rfl, a.tracer.literals.get? name, rfl⟩
  | string span value =>
      cases resolved
      exact .inl ⟨nofun, rfl, some value, rfl⟩
  | array span elements =>
      cases resolved
      exact .inl ⟨nofun, rfl, some _, (addSpecifier_strip a _ site).symm⟩
  | binary span operator left right =>
      obtain ⟨text, _, resolved⟩ := Outcome.bind_eq_ok_iff.1 resolved
      cases resolved
      exact .inl ⟨nofun, rfl, text, rfl⟩
  | call span callee arguments =>
      obtain ⟨recovered, walked, resolved⟩ := Outcome.bind_eq_ok_iff.1 resolved
      cases resolved
      exact .inr ⟨span, callee, arguments, recovered, rfl, rfl, walked, rfl⟩
  | _ =>
      cases resolved
      exact .inl ⟨nofun, rfl, none, rfl⟩

theorem resolveArgument_records {a a' : Analysis} {site : Span} {argument : Expr}
    {signal : Option Signal} (resolved : resolveArgument site argument a = .ok (a', signal)) :
    Records site a a' := by
  rcases resolveArgument_cases resolved with
    ⟨_, _, specifier, rfl⟩ | ⟨_, _, _, recovered, _, _, _, rfl⟩
  · exact addSpecifier?_records a specifier site
  · exact addRecovered_records a recovered site

theorem resolve_cons (location : Span) (callee argument : Expr) (more : List Expr) (a : Analysis)
    (name : Option Text) :
    resolve (.call location callee (argument :: more)) a name =
      resolveArgument location argument
        (if name = some evaluator then { a with viaEval := true } else a) := rfl

/-- The mark of `eval` does not touch what names mean. -/
theorem tracer_flagged (a : Analysis) (name : Option Text) :
    (if name = some evaluator then { a with viaEval := true } else a).tracer = a.tracer := by
  split <;> rfl

/-- Resolving a load adds records at its span. -/
theorem resolve_records {e : Expr} {a a' : Analysis} {name : Option Text}
    {signal : Option Signal} (resolved : resolve e a name = .ok (a', signal)) :
    Records e.span a a' := by
  unfold resolve at resolved
  split at resolved
  · refine .trans ?_ (resolveArgument_records resolved)
    split <;> exact .of_eq rfl rfl rfl
  · cases resolved
    exact .refl _ a

/-- Resolving a load asks to skip its inside exactly if its first argument is a call. -/
theorem resolve_signal {e : Expr} {a a' : Analysis} {name : Option Text}
    {signal : Option Signal} (resolved : resolve e a name = .ok (a', signal)) :
    signal = if hidesCall e then some .skip else none := by
  unfold resolve at resolved
  split at resolved
  case h_1 location callee argument more =>
      rcases resolveArgument_cases resolved with ⟨other, rfl, _⟩ | ⟨_, _, _, _, rfl, rfl, _⟩
      · cases argument with
        | call span callee arguments => exact absurd rfl (other span callee arguments)
        | _ => rfl
      · rfl
  case h_2 bare =>
      cases resolved
      have plain : hidesCall e = false := by
        unfold hidesCall
        split
        · exact absurd rfl (bare _ _ _ _)
        · rfl
      rw [plain]
      rfl

/-- Only calls are loads through `require`. -/
theorem match?_of_not_call {e : Expr} (t : Tracer)
    (other : ∀ span callee arguments, e ≠ .call span callee arguments) :
    Probe.require.match? e t = .ok none := by
  cases e with
  | call span callee arguments => exact absurd rfl (other span callee arguments)
  | _ => rfl

theorem not_missing {e : Expr} {t : Tracer} {name : Option Text}
    (matched : Probe.require.match? e t = .ok (some name)) : e.isMissing = false := by
  cases e with
  | missing => cases matched
  | _ => rfl

end Probe.Require

namespace Probe.Import

/-- What the probe for `import` adds at an expression. -/
def settle : Expr → Analysis → Analysis
  | .importFrom location (.string _ value), a => a.addDependency value (some location) false
  | .call location (.other _ .importToken _) (.string _ value :: _), a =>
      a.addDependency value (some location) false
  | .call location (.other _ .importToken _) (_ :: _), a => a.addUnsafe location
  | _, a => a

/-- The probe for `import` never fails and never asks for anything. -/
theorem runFrom_importing (e : Expr) (a : Analysis) :
    Probe.runFrom e [Probe.importing] [] false a = .ok (settle e a, false) := by
  cases e with
  | importFrom location source => cases source <;> rfl
  | call location callee arguments =>
      cases callee with
      | other span kind nested =>
          cases kind with
          | importToken =>
              cases arguments with
              | nil => rfl
              | cons argument more => cases argument <;> rfl
          | _ => rfl
      | _ => rfl
  | _ => rfl

theorem settle_records (e : Expr) (a : Analysis) : Analysis.Records e.span a (settle e a) := by
  fun_cases settle e a with
  | case1 | case2 => exact Analysis.addDependency_records a _ _ false
  | case3 => exact Analysis.addUnsafe_records a _
  | case4 => exact .refl _ a

end Probe.Import

namespace Pass

/-- The default probes at one expression: `require` first, and `import` if that does not match. -/
theorem run_defaultProbes (e : Expr) (a : Analysis) :
    Probe.run defaultProbes e a =
      Probe.require.match? e a.tracer >>= fun
        | some name =>
            Probe.Require.resolve e a name >>= fun r => .ok (r.1, decide (r.2 = some .skip))
        | none => .ok (Probe.Import.settle e a, false) := by
  have opened : Probe.require.inGroups [] = false := rfl
  rw [Probe.run, defaultProbes, Probe.runFrom, opened]
  cases matched : Probe.require.match? e a.tracer with
  | error f => rfl
  | ok name? =>
      cases name? with
      | none => exact Probe.Import.runFrom_importing e a
      | some name =>
          simp only [Bool.false_eq_true, if_false, Outcome.ok_bind]
          cases resolved : Probe.Require.resolve e a name with
          | error f =>
              have failed : Probe.require.resolve e a name = .error f := resolved
              rw [failed]
              rfl
          | ok r =>
              obtain ⟨a', signal⟩ := r
              have done : Probe.require.resolve e a name = .ok (a', signal) := resolved
              rw [done]
              have noStop : signal ≠ some .stop := by
                rw [Probe.Require.resolve_signal resolved]
                split <;> decide
              simp only [Outcome.ok_bind, noStop, if_false]
              rfl

/-- A visit with the default probes. -/
theorem visit_eq (e : Expr) (a : Analysis) :
    visit defaultProbes e a =
      a.tracer.observe e >>= fun tracer => Probe.require.match? e tracer >>= fun
        | some name =>
            Probe.Require.resolve e { a with tracer } name >>= fun r =>
              .ok (r.1, if Probe.Require.hidesCall e then [] else e.children)
        | none =>
            if e.isMissing then .error .missingNode
            else .ok (Probe.Import.settle e { a with tracer }, e.children) := by
  rw [visit]
  cases observed : a.tracer.observe e with
  | error f => rfl
  | ok tracer =>
      simp only [Outcome.ok_bind]
      rw [run_defaultProbes]
      cases matched : Probe.require.match? e tracer with
      | error f => rfl
      | ok name? =>
          cases name? with
          | none => rfl
          | some name =>
              simp only [Outcome.ok_bind]
              cases resolved : Probe.Require.resolve e { a with tracer } name with
              | error f => rfl
              | ok r =>
                  obtain ⟨a', signal⟩ := r
                  simp only [Outcome.ok_bind]
                  rw [Probe.Require.resolve_signal resolved, Probe.Require.not_missing matched]
                  cases Probe.Require.hidesCall e <;> rfl

/-- A visit to a call that the probe for `require` matches. -/
theorem visit_of_match {a : Analysis} {location : Span} {callee : Expr} {arguments : List Expr}
    {name : Option Text}
    (matched : Probe.require.match? (.call location callee arguments) a.tracer = .ok (some name)) :
    visit defaultProbes (.call location callee arguments) a =
      Probe.Require.resolve (.call location callee arguments) a name >>= fun r =>
        .ok (r.1, if Probe.Require.hidesCall (.call location callee arguments) then []
          else callee :: arguments) := by
  rw [visit_eq, Tracer.observe_call, Outcome.ok_bind, matched]
  rfl

/-- A visit to a call of `require`, while the name has its own meaning. -/
theorem visit_load {a : Analysis} (knows : a.tracer.KnowsLoader) (location span : Span)
    (argument : Expr) (more : List Expr) :
    visit defaultProbes (.call location (.identifier span Tracer.loader) (argument :: more)) a =
      Probe.Require.resolveArgument location argument a >>= fun r =>
        .ok (r.1, if Probe.Require.hidesCall
            (.call location (.identifier span Tracer.loader) (argument :: more)) then []
          else .identifier span Tracer.loader :: argument :: more) := by
  have matched : Probe.require.match?
      (.call location (.identifier span Tracer.loader) (argument :: more)) a.tracer =
      .ok (some (some Tracer.loader)) := by
    simp only [Probe.match?, Probe.require, Probe.firstMatch, Probe.Require.isLoad, Expr.callee?,
      Expr.name?, Outcome.ok_bind, knows.lookup]
    rfl
  rw [visit_of_match matched]
  rfl

/-- What a visit leaves behind: names as the tracer observed them, and records at the span of
the expression.  Only a load that hides a call keeps the pass from going inside. -/
theorem visit_cases {e : Expr} {a a' : Analysis} {inside : List Expr}
    (visited : visit defaultProbes e a = .ok (a', inside)) :
    ∃ tracer, a.tracer.observe e = .ok tracer ∧ Analysis.Records e.span { a with tracer } a' ∧
      (inside = e.children ∨
        inside = [] ∧ Probe.Require.hidesCall e = true ∧
          ∃ name, Probe.require.match? e tracer = .ok (some name) ∧
            Probe.Require.resolve e { a with tracer } name = .ok (a', some .skip)) := by
  rw [visit_eq] at visited
  obtain ⟨tracer, observed, visited⟩ := Outcome.bind_eq_ok_iff.1 visited
  obtain ⟨name?, matched, visited⟩ := Outcome.bind_eq_ok_iff.1 visited
  refine ⟨tracer, observed, ?_⟩
  cases name? with
  | none =>
      simp only at visited
      split at visited
      · cases visited
      · cases visited
        exact ⟨Probe.Import.settle_records e _, .inl rfl⟩
  | some name =>
      obtain ⟨⟨a', signal⟩, resolved, visited⟩ := Outcome.bind_eq_ok_iff.1 visited
      cases visited
      refine ⟨Probe.Require.resolve_records resolved, ?_⟩
      have asked := Probe.Require.resolve_signal resolved
      cases hides : Probe.Require.hidesCall e with
      | false => exact .inl rfl
      | true =>
          rw [hides] at asked
          cases asked
          exact .inr ⟨rfl, rfl, name, matched, resolved⟩

/-- Only calls and declarations with a source leave records. -/
theorem visit_quiet {e : Expr} {a a' : Analysis} {inside : List Expr}
    (visited : visit defaultProbes e a = .ok (a', inside)) (quiet : e.isSite = false) :
    a'.dependencies = a.dependencies ∧ a'.warnings = a.warnings := by
  have unmatched (t : Tracer) : Probe.require.match? e t = .ok none :=
    Probe.Require.match?_of_not_call t fun _ _ _ isCall => by rw [isCall] at quiet; cases quiet
  rw [visit_eq] at visited
  obtain ⟨tracer, _, visited⟩ := Outcome.bind_eq_ok_iff.1 visited
  rw [unmatched, Outcome.ok_bind] at visited
  simp only at visited
  split at visited
  · cases visited
  · cases visited
    cases e with
    | call | importFrom => cases quiet
    | _ => exact ⟨rfl, rfl⟩

/-- A visit goes inside an expression, or stays out of it. -/
theorem visit_prunes {δ : Type} {probes : List (Probe δ)} : Traversal.Prunes (visit probes) := by
  intro e a a' inside visited
  obtain ⟨tracer, _, visited⟩ := Outcome.bind_eq_ok_iff.1 visited
  obtain ⟨⟨a'', skip⟩, _, visited⟩ := Outcome.bind_eq_ok_iff.1 visited
  cases skip with
  | true =>
      cases visited
      exact .inl rfl
  | false =>
      simp only [Bool.false_eq_true, if_false] at visited
      split at visited <;> cases visited
      exact .inr rfl

theorem visit_grows {e : Expr} {a a' : Analysis} {inside : List Expr}
    (visited : visit defaultProbes e a = .ok (a', inside)) : Analysis.Grows a a' := by
  obtain ⟨tracer, _, records, _⟩ := visit_cases visited
  exact records.grows

/-- What a visit has recorded is still there at the end. -/
theorem visited_of_arrives {root e : Expr} {a a' r : Analysis} {path : List Nat}
    (done : Traversal.all (visit defaultProbes) [root] a = .ok r)
    (arrives : Traversal.Arrives (visit defaultProbes) root a path e a') :
    ∃ a'' inside, visit defaultProbes e a' = .ok (a'', inside) ∧ Analysis.Grows a'' r :=
  Traversal.visited_of_arrives visit_prunes Analysis.Grows
    (fun _ => ⟨List.prefix_rfl, List.prefix_rfl⟩)
    (fun _ _ _ one two => ⟨one.1.trans two.1, one.2.trans two.2⟩)
    (fun _ _ _ _ visited => visit_grows visited) done arrives

/-! ## The pass as a traversal -/

theorem walkFrom_eq_run {δ : Type} (probes : List (Probe δ)) (fuel : Nat) (stack : List Expr)
    (a : Analysis) :
    walkFrom probes fuel stack a = Traversal.run (visit probes) fuel stack a := by
  induction fuel generalizing stack a with
  | zero => rfl
  | succ fuel ih =>
      cases stack with
      | nil => rfl
      | cons e stack =>
          rw [walkFrom, Traversal.run_cons]
          congr 1
          funext r
          exact ih _ _

/-- A pass is a traversal, at the end of which the hooks of the probes run. -/
theorem walk_eq_all {δ : Type} (probes : List (Probe δ)) (root : Expr) (a : Analysis) :
    walk probes root a =
      Traversal.all (visit probes) [root] a >>= fun r => .ok (Probe.finish probes r) := by
  rw [walk, walkFrom_eq_run, Traversal.all]
  rfl

/-- With the default probes the mark of `eval` is taken back at the end. -/
theorem walk_eq (root : Expr) (a : Analysis) :
    walk defaultProbes root a =
      Traversal.all (visit defaultProbes) [root] a >>= fun r => .ok { r with viaEval := false } :=
  walk_eq_all defaultProbes root a

theorem passed_of_walk {root : Expr} {a r : Analysis} (done : walk defaultProbes root a = .ok r) :
    ∃ r', Traversal.all (visit defaultProbes) [root] a = .ok r' ∧
      r = { r' with viaEval := false } := by
  rw [walk_eq] at done
  obtain ⟨r', passed, rest⟩ := Outcome.bind_eq_ok_iff.1 done
  cases rest
  exact ⟨r', passed, rfl⟩

end Pass

end HiddenLoads
