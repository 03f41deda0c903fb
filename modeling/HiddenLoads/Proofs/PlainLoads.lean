/-
# HiddenLoads.Proofs.PlainLoads -- which plain loads a report without warnings names

A plain load is `require("value")`.  While no expression binds `require`, the name keeps its
meaning through the pass, so every plain load that the pass comes to is recorded.  The pass comes
to all of them except those inside a load whose first argument is a call: that load raises a
warning, unless a `path.join` of strings clears it.

So in a report without warnings the plain loads that are missing are exactly those inside a
cleared load (`Pass.Covered`), and there are such reports: in `joinedBesidePlain` the cleared load
has a second argument, which nothing has looked at.

With warnings or without, a plain load is missing only if the visit to an expression around it
ended with the signal to skip its inside (`Pass.Skipped`).
-/
import HiddenLoads.Proofs.Recovery
import HiddenLoads.Proofs.Visit

namespace HiddenLoads

set_option autoImplicit false

open Traversal

namespace Pass

/-- While nothing in a source binds `require`, the name has its own meaning wherever the pass
comes. -/
theorem knowsLoader_of_arrives {root e : Expr} {a a' : Analysis} {path : List Nat}
    (unbound : ∀ inner ∈ root.within, Tracer.loader ∉ inner.bound)
    (knows : a.tracer.KnowsLoader) (arrives : Arrives (visit defaultProbes) root a path e a') :
    a'.tracer.KnowsLoader := by
  refine arrives.keeps visit_prunes (·.tracer.KnowsLoader) knows ?_
  intro path e a₁ a₂ inside arrives visited knows
  obtain ⟨tracer, observed, records, _⟩ := visit_cases visited
  have after := knows.of_touches (Tracer.observe_touches observed)
    (unbound e (arrives.mem_within visit_prunes))
  rw [records.tracer]
  exact after

/-- The expression is `require("value")` at a span, perhaps with more arguments, and the value is
not blank. -/
def IsPlainLoad (e : Expr) (location : Span) (value : Text) : Prop :=
  value.isBlank = false ∧ ∃ calleeSpan valueSpan more,
    e = .call location (.identifier calleeSpan Tracer.loader) (.string valueSpan value :: more)

/-- A visit to a plain load adds one record, that of its value, and goes inside. -/
theorem visit_plain {e : Expr} {location : Span} {value : Text} {a : Analysis}
    (plain : IsPlainLoad e location value) (knows : a.tracer.KnowsLoader) :
    visit defaultProbes e a =
      .ok ({ a with dependencies := a.dependencies ++
        [⟨Analysis.withoutSlash value, some location, false, a.viaEval⟩] }, e.children) := by
  obtain ⟨nonblank, calleeSpan, valueSpan, more, rfl⟩ := plain
  have recorded : Probe.Require.addSpecifier a value location =
      { a with dependencies := a.dependencies ++
        [⟨Analysis.withoutSlash value, some location, false, a.viaEval⟩] } := by
    rw [Probe.Require.addSpecifier, Analysis.addDependency, nonblank]
    rfl
  rw [visit_load knows, Probe.Require.resolveArgument, recorded]
  rfl

/-- A visit to a plain load records it. -/
theorem recorded_of_visit {e : Expr} {location : Span} {value : Text} {a a' : Analysis}
    {inside : List Expr} (plain : IsPlainLoad e location value) (knows : a.tracer.KnowsLoader)
    (visited : visit defaultProbes e a = .ok (a', inside)) :
    ∃ d ∈ a'.dependencies, d.location = some location ∧
      d.specifier = Analysis.withoutSlash value := by
  rw [visit_plain plain knows] at visited
  cases visited
  exact ⟨_, List.mem_append_right _ (List.mem_singleton_self _), rfl, rfl⟩

/-! ## Cleared loads -/

/-- A load whose first argument is a call, in which the walk comes to a `path.join` of nothing
but strings: it raises no warning, and the pass does not go inside. -/
def Cleared (t : Tracer) (load : Expr) : Prop :=
  ∃ (location : Span) (callee : Expr) (span : Span) (inner : Expr) (arguments more : List Expr)
      (name : Option Text),
    load = .call location callee (.call span inner arguments :: more) ∧
      Probe.require.match? load t = .ok (some name) ∧
      ∃ path join r, Arrives (Recovery.enter t) (.call span inner arguments) .start path join r ∧
        Recovery.Joins t join

/-- The place lies inside a cleared load. -/
def Covered (root : Expr) (a : Analysis) (path : List Nat) : Prop :=
  ∃ above i below load a', path = above ++ i :: below ∧
    Arrives (visit defaultProbes) root a above load a' ∧ Cleared a'.tracer load

/-- In a pass without warnings, what the pass does not come to lies inside a cleared load. -/
theorem covered_of_pruned {root e : Expr} {a r : Analysis} {path : List Nat}
    (done : all (visit defaultProbes) [root] a = .ok r) (clean : r.warnings = [])
    (place : root.at? path = some e) (pruned : Pruned (visit defaultProbes) root a path) :
    Covered root a path := by
  obtain ⟨above, i, below, load, a₀, a₁, rfl, arrives, nothing⟩ := pruned
  refine ⟨above, i, below, load, a₀, rfl, arrives, ?_⟩
  obtain ⟨tracer, observed, _, leaf | ⟨_, hides, name, matched, resolved⟩⟩ := visit_cases nothing
  · -- Nothing stands inside an expression without children.
    rw [Expr.at?_append, arrives.at? visit_prunes, Option.bind_some, Expr.at?_cons, ← leaf] at place
    cases place
  · obtain ⟨a₂, inside, visited, grows⟩ := visited_of_arrives done arrives
    rw [nothing] at visited
    cases visited
    have quiet : a₁.warnings = [] := List.prefix_nil.1 (clean ▸ grows.2)
    unfold Probe.Require.hidesCall at hides
    split at hides
    case h_2 => cases hides
    case h_1 location callee span inner arguments more _ =>
        cases observed
        rw [Probe.Require.resolve_cons] at resolved
        obtain ⟨recovered, walked, resolved⟩ := Outcome.bind_eq_ok_iff.1 resolved
        cases resolved
        rw [Probe.Require.tracer_flagged] at walked
        have cleared := Probe.Require.not_suspicious_of_quiet quiet
        exact ⟨location, callee, span, inner, arguments, more, name, rfl, matched,
          (Recovery.suspicious_eq_false_iff walked).1 cleared⟩

/-- The pass does not come to what lies inside a cleared load. -/
theorem pruned_of_covered {root : Expr} {a r : Analysis} {path : List Nat}
    (done : all (visit defaultProbes) [root] a = .ok r) (covered : Covered root a path) :
    Pruned (visit defaultProbes) root a path := by
  obtain ⟨above, i, below, load, a₀, rfl, arrives, cleared⟩ := covered
  obtain ⟨location, callee, span, inner, arguments, more, name, rfl, matched, _⟩ := cleared
  obtain ⟨a₁, inside, visited, _⟩ := visited_of_arrives done arrives
  refine ⟨above, i, below, _, a₀, a₁, rfl, arrives, ?_⟩
  rw [visited]
  rw [visit_of_match matched] at visited
  obtain ⟨_, _, visited⟩ := Outcome.bind_eq_ok_iff.1 visited
  cases visited
  rfl

/-- What the pass does not come to is not recorded, if no other load stands at the same span. -/
theorem not_recorded_of_pruned {root : Expr} {a r : Analysis} {path : List Nat} {location : Span}
    (done : all (visit defaultProbes) [root] a = .ok r)
    (pruned : Pruned (visit defaultProbes) root a path)
    (alone : ∀ path' e', root.at? path' = some e' → e'.isSite = true → e'.span = location →
      path' = path)
    (fresh : ∀ d ∈ a.dependencies, d.location ≠ some location) :
    ∀ d ∈ r.dependencies, d.location ≠ some location := by
  refine all_induction visit_prunes
    (fun a => ∀ d ∈ a.dependencies, d.location ≠ some location) done fresh ?_
  intro i e₀ a₀ path' e' a₁ a₂ inside comes arrives visited unrecorded
  obtain ⟨rfl, rfl⟩ := comes_singleton comes
  cases site : e'.isSite with
  | false =>
      rw [(visit_quiet visited site).1]
      exact unrecorded
  | true =>
      obtain ⟨tracer, _, records, _⟩ := visit_cases visited
      obtain ⟨found, grown, at'⟩ := records.dependencies
      intro d inside isHere
      rw [grown] at inside
      rcases List.mem_append.1 inside with old | new
      · exact unrecorded d old isHere
      · have here : e'.span = location := Option.some.inj ((at' d new).symm.trans isHere)
        have same := alone path' e' (arrives.at? visit_prunes) site here
        subst same
        exact pruned.not_arrives arrives

/-- **What a report without warnings says about plain loads.**  Every plain load is recorded,
unless it lies inside a cleared load; and if it does, nothing is recorded at its span. -/
theorem plain_load_recorded_iff_not_covered {root : Expr} {file : Text} {hasErrors : Bool}
    {r : Analysis} (unbound : ∀ inner ∈ root.within, Tracer.loader ∉ inner.bound)
    (done : walk defaultProbes root (.start file hasErrors) = .ok r) (clean : r.warnings = [])
    {path : List Nat} {load : Expr} {location : Span} {value : Text}
    (place : root.at? path = some load) (plain : IsPlainLoad load location value) :
    (¬ Covered root (.start file hasErrors) path →
      ∃ d ∈ r.dependencies, d.location = some location ∧
        d.specifier = Analysis.withoutSlash value) ∧
    (Covered root (.start file hasErrors) path →
      (∀ path' e', root.at? path' = some e' → e'.isSite = true → e'.span = location →
        path' = path) →
      ∀ d ∈ r.dependencies, d.location ≠ some location) := by
  obtain ⟨r', passed, rfl⟩ := passed_of_walk done
  constructor
  · intro uncovered
    rcases arrives_or_pruned visit_prunes passed place with ⟨a', arrives⟩ | pruned
    · have knows := knowsLoader_of_arrives unbound Tracer.knowsLoader_default arrives
      obtain ⟨a'', inside, visited, grows⟩ := visited_of_arrives passed arrives
      obtain ⟨d, recorded, isHere, named⟩ := recorded_of_visit plain knows visited
      exact ⟨d, grows.1.subset recorded, isHere, named⟩
    · exact absurd (covered_of_pruned passed clean place pruned) uncovered
  · intro covered alone
    have unrecorded : ∀ d ∈ r'.dependencies, d.location ≠ some location :=
      not_recorded_of_pruned passed (pruned_of_covered passed covered) alone
        (fun d none => nomatch none)
    exact unrecorded

/-- `path.join("a")` at a column of the first line. -/
def joinAt (column : Nat) : Expr :=
  .call ⟨1, column, 1, column + 14⟩
    (.member ⟨1, column, 1, column + 9⟩ (.identifier ⟨1, column, 1, column + 4⟩ "path")
      (.identifier ⟨1, column + 5, 1, column + 9⟩ "join") false)
    [.string ⟨1, column + 10, 1, column + 13⟩ "a"]

/-- `require(...)` at a column of the first line. -/
def loadAt (column width : Nat) (arguments : List Expr) : Expr :=
  .call ⟨1, column, 1, column + width⟩ (.identifier ⟨1, column, 1, column + 7⟩ "require") arguments

/-- `require(path.join("a")), require("x/")`. -/
def joinedBeforePlain : Expr :=
  .other ⟨1, 0, 1, 38⟩ .sequence
    [loadAt 0 23 [joinAt 8], loadAt 25 13 [.string ⟨1, 33, 1, 37⟩ "x/"]]

/-- Behind a cleared load, a plain load is recorded. -/
theorem joinedBeforePlain_recorded :
    (∀ inner ∈ joinedBeforePlain.within, Tracer.loader ∉ inner.bound) ∧
    ∃ r, walk defaultProbes joinedBeforePlain (.start Analysis.inMemory false) = .ok r ∧
      r.warnings = [] ∧ ∃ d ∈ r.dependencies, d.location = some ⟨1, 25, 1, 38⟩ ∧
        d.specifier = "x" := by
  have unbound : ∀ inner ∈ joinedBeforePlain.within, Tracer.loader ∉ inner.bound := by decide
  have place : joinedBeforePlain.at? [1] = some (loadAt 25 13 [.string ⟨1, 33, 1, 37⟩ "x/"]) := rfl
  refine ⟨unbound, _, rfl, rfl, ?_⟩
  refine (plain_load_recorded_iff_not_covered unbound rfl rfl place ⟨rfl, _, _, _, rfl⟩).1 ?_
  rintro ⟨above, i, below, load, a', split, arrives, location, callee, _, _, _, _, _, isLoad, _⟩
  -- The only expression around the plain load is the sequence.
  cases above with
  | nil =>
      cases arrives
      cases isLoad
  | cons j above => simp at split

/-- `require(path.join("a"), require("x"))`. -/
def joinedBesidePlain : Expr :=
  loadAt 0 37 [joinAt 8, loadAt 24 12 [.string ⟨1, 32, 1, 35⟩ "x"]]

/-- A plain load is lost without a warning. -/
theorem joinedBesidePlain_lost :
    (∀ inner ∈ joinedBesidePlain.within,
      inner.isMissing = false ∧ Tracer.loader ∉ inner.bound) ∧
    ∃ r load, walk defaultProbes joinedBesidePlain (.start Analysis.inMemory false) = .ok r ∧
      r.warnings = [] ∧ joinedBesidePlain.at? [2] = some load ∧
      IsPlainLoad load ⟨1, 24, 1, 36⟩ "x" ∧
      ∀ d ∈ r.dependencies, d.location ≠ some ⟨1, 24, 1, 36⟩ :=
  ⟨by decide, _, _, rfl, rfl, rfl, ⟨rfl, _, _, _, rfl⟩, by decide⟩

/-! ## Loads that no visit skips -/

def Skips (e : Expr) (a : Analysis) : Prop :=
  ∃ tracer a', a.tracer.observe e = .ok tracer ∧
    Probe.run defaultProbes e { a with tracer } = .ok (a', true)

/-- The visit to some expression around the place ended with the signal to skip its inside. -/
def Skipped (root : Expr) (a : Analysis) (path : List Nat) : Prop :=
  ∃ above i below e a', path = above ++ i :: below ∧
    Arrives (visit defaultProbes) root a above e a' ∧ Skips e a'

/-- Only the signal keeps a visit from going inside. -/
theorem skips_of_visit {e : Expr} {a a' : Analysis}
    (visited : visit defaultProbes e a = .ok (a', [])) (within : e.children ≠ []) : Skips e a := by
  obtain ⟨tracer, observed, visited⟩ := Outcome.bind_eq_ok_iff.1 visited
  obtain ⟨⟨a'', skip⟩, ran, visited⟩ := Outcome.bind_eq_ok_iff.1 visited
  cases skip with
  | true => exact ⟨tracer, a'', observed, ran⟩
  | false =>
      simp only [Bool.false_eq_true, if_false] at visited
      split at visited
      · cases visited
      · simp only [Except.ok.injEq, Prod.mk.injEq] at visited
        exact absurd visited.2 within

/-- A pass that ends has come to every place that no visit skipped. -/
theorem arrives_of_not_skipped {root e : Expr} {a r : Analysis} {path : List Nat}
    (done : all (visit defaultProbes) [root] a = .ok r) (place : root.at? path = some e)
    (entered : ¬ Skipped root a path) :
    ∃ a', Arrives (visit defaultProbes) root a path e a' := by
  rcases arrives_or_pruned visit_prunes done place with
    arrives | ⟨above, i, below, e₀, a₀, a₁, rfl, upper, nothing⟩
  · exact arrives
  · have within : e₀.children ≠ [] := by
      intro leaf
      rw [Expr.at?_append, upper.at? visit_prunes, Option.bind_some, Expr.at?_cons, leaf] at place
      cases place
    have skips : Skips e₀ a₀ := skips_of_visit nothing within
    exact absurd ⟨above, i, below, e₀, a₀, rfl, upper, skips⟩ entered

/-- **Every plain load is recorded as such, unless a visit around it skipped it.**  It does not
matter what else the source observes, records or warns about on the way. -/
theorem plain_load_recorded_of_not_skipped {root : Expr} {file : Text} {hasErrors : Bool}
    {r : Analysis} (unbound : ∀ inner ∈ root.within, Tracer.loader ∉ inner.bound)
    (done : walk defaultProbes root (.start file hasErrors) = .ok r)
    {path : List Nat} {load : Expr} {location : Span} {value : Text}
    (place : root.at? path = some load) (plain : IsPlainLoad load location value)
    (entered : ¬ Skipped root (.start file hasErrors) path) :
    ∃ d ∈ r.dependencies, d.location = some location ∧ d.dynamic = false ∧
      d.specifier = Analysis.withoutSlash value := by
  obtain ⟨r', passed, rfl⟩ := passed_of_walk done
  obtain ⟨a, arrives⟩ := arrives_of_not_skipped passed place entered
  have knows := knowsLoader_of_arrives unbound Tracer.knowsLoader_default arrives
  obtain ⟨a', inside, visited, grows⟩ := visited_of_arrives passed arrives
  rw [visit_plain plain knows] at visited
  cases visited
  have recorded := grows.1.subset (List.mem_append_right _ (List.mem_singleton_self _))
  exact ⟨_, recorded, rfl, rfl, rfl⟩

/-- `require("a", require("b/"))`. -/
def plainBesidePlain : Expr :=
  loadAt 0 27 [.string ⟨1, 8, 1, 11⟩ "a", loadAt 13 13 [.string ⟨1, 21, 1, 25⟩ "b/"]]

/-- A load with a text does not skip the load beside the text. -/
theorem plainBesidePlain_recorded :
    (∀ inner ∈ plainBesidePlain.within, Tracer.loader ∉ inner.bound) ∧
    ¬ Skipped plainBesidePlain (.start Analysis.inMemory false) [2] ∧
    ∃ r, walk defaultProbes plainBesidePlain (.start Analysis.inMemory false) = .ok r ∧
      ∃ d ∈ r.dependencies, d.location = some ⟨1, 13, 1, 26⟩ ∧ d.dynamic = false ∧
        d.specifier = "b" := by
  have unbound : ∀ inner ∈ plainBesidePlain.within, Tracer.loader ∉ inner.bound := by decide
  have entered : ¬ Skipped plainBesidePlain (.start Analysis.inMemory false) [2] := by
    rintro ⟨above, i, below, e, a, split, arrives, tracer, a', observed, skips⟩
    -- The only expression around the inner load is the outer one.
    cases above with
    | nil =>
        cases arrives
        cases observed
        cases skips
    | cons j above => simp at split
  have place : plainBesidePlain.at? [2] = some (loadAt 13 13 [.string ⟨1, 21, 1, 25⟩ "b/"]) := rfl
  exact ⟨unbound, entered, _, rfl,
    plain_load_recorded_of_not_skipped unbound rfl place ⟨rfl, _, _, _, rfl⟩ entered⟩

end Pass

end HiddenLoads
