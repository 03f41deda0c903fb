/-
# HiddenLoads.Proofs.Completion -- which literals let every pass complete

A pass over sound expressions completes, and each literal that is not sound ends some pass: behind
a call, digits before a line feed are decoded (`walk_loadOfCall`), and in a sum a number is
written (`walk_loadOfSum`).  So the literals with which every pass completes are known exactly.

A load that the pass comes to leaves a dependency or a warning at its span, with two exceptions
(`Pass.Silent`): the argument is a call, cleared of suspicion, that gives nothing but blank
specifiers, or `import` is called with a blank string.
-/
import HiddenLoads.Proofs.Failures

namespace HiddenLoads

set_option autoImplicit false

open Traversal

namespace Expr

theorem MadeOf.mono {texts texts' : Text → Prop} {numbers numbers' : Number → Prop} {e : Expr}
    (made : e.MadeOf texts numbers) (moreTexts : ∀ t, texts t → texts' t)
    (moreNumbers : ∀ n, numbers n → numbers' n) : e.MadeOf texts' numbers' := by
  intro inner inside
  have admitted := made inner inside
  cases inner with
  | string span value => exact moreTexts value admitted
  | number span value => exact moreNumbers value admitted
  | _ => exact admitted

end Expr

namespace Pass

/-! ## Literals that end a pass -/

/-- `require(x("value"))`. -/
def loadOfCall (value : Text) : Expr :=
  .call .unknown (.identifier .unknown Tracer.loader)
    [.call .unknown (.identifier .unknown "x") [.string .unknown value]]

/-- `require(n + n)`. -/
def loadOfSum (n : Number) : Expr :=
  .call .unknown (.identifier .unknown Tracer.loader)
    [.binary .unknown Expr.plus (.number .unknown n) (.number .unknown n)]

theorem loadOfCall_madeOf {texts : Text → Prop} (numbers : Number → Prop) {value : Text}
    (among : texts value) : (loadOfCall value).MadeOf texts numbers := by
  simp [loadOfCall, Expr.MadeOf, Expr.within, Expr.withinAll, Expr.Admits, among]

theorem loadOfSum_madeOf (texts : Text → Prop) {numbers : Number → Prop} {n : Number}
    (among : numbers n) : (loadOfSum n).MadeOf texts numbers := by
  simp [loadOfSum, Expr.MadeOf, Expr.within, Expr.withinAll, Expr.Admits, among]

theorem looksEncoded_of_uneven {value : Text} (uneven : Hex.Uneven value) :
    Hex.looksEncoded value = true := by
  obtain ⟨digits, rfl, long, _, every⟩ := uneven
  simp [Hex.looksEncoded, Hex.withoutFinalFeed, Text.endsIn, long, every]

/-- Digits before a line feed, an odd number of them, end the pass over a load behind a call. -/
theorem walk_loadOfCall {value : Text} (uneven : Hex.Uneven value) (file : Text)
    (hasErrors : Bool) :
    walk defaultProbes (loadOfCall value) (.start file hasErrors) = .error .badHex := by
  have looks := looksEncoded_of_uneven uneven
  have fails : Hex.decode value = .error .badHex :=
    (Hex.decode_eq_error_iff looks .badHex).2 ⟨rfl, uneven⟩
  have entered (t : Tracer) (r : Recovery) : Recovery.enter t
      (.call .unknown (.identifier .unknown "x") [.string .unknown value]) r = .error .badHex := by
    rw [Recovery.enter, Recovery.visit, Recovery.applyRules, Recovery.encodedText?, if_pos looks]
    simp only [fails]
    rfl
  rw [walk_eq, all_singleton visit_prunes, loadOfCall, visit_load Tracer.knowsLoader_default,
    Probe.Require.resolveArgument, Recovery.walk_eq, all_singleton (Recovery.enter_prunes _),
    entered]
  rfl

/-- An overlong number ends the pass over a load of a sum. -/
theorem walk_loadOfSum {n : Number} (overlong : n.Overlong) (file : Text) (hasErrors : Bool) :
    walk defaultProbes (loadOfSum n) (.start file hasErrors) = .error .tooManyDigits := by
  have fails : n.format = .error .tooManyDigits :=
    (n.format_eq_error_iff .tooManyDigits).2 ⟨rfl, overlong⟩
  rw [walk_eq, all_singleton visit_prunes, loadOfSum, visit_load Tracer.knowsLoader_default,
    Probe.Require.resolveArgument, Expr.text?, if_pos rfl, Expr.fold_sum,
    Expr.fold_leaf _ rfl, Expr.foldLeaf, fails]
  rfl

end Pass

/-! ## What a load leaves behind -/

namespace Analysis

/-- A dependency or an unsafe import is recorded at a span. -/
def Marked (a : Analysis) (site : Span) : Prop :=
  (∃ d ∈ a.dependencies, d.location = some site) ∨
    ⟨Warning.unsafeImport, some site, none⟩ ∈ a.warnings

theorem Marked.mono {a a' : Analysis} {site : Span} (marked : a.Marked site)
    (grows : Grows a a') : a'.Marked site := by
  rcases marked with ⟨d, inside, isHere⟩ | inside
  · exact .inl ⟨d, grows.1.subset inside, isHere⟩
  · exact .inr (grows.2.subset inside)

theorem addUnsafe_marked (a : Analysis) (site : Span) : (a.addUnsafe site).Marked site :=
  .inr (List.mem_append_right _ (List.mem_singleton_self _))

theorem addDependency_marked (a : Analysis) {specifier : Text} (site : Span) (dynamic : Bool)
    (nonblank : specifier.isBlank = false) :
    (a.addDependency specifier (some site) dynamic).Marked site := by
  rw [addDependency, nonblank, if_neg Bool.false_ne_true]
  exact .inl ⟨_, List.mem_append_right _ (List.mem_singleton_self _), rfl⟩

theorem addDependency_of_blank (a : Analysis) {specifier : Text} (location : Option Span)
    (dynamic : Bool) (blank : specifier.isBlank = true) :
    a.addDependency specifier location dynamic = a := by
  rw [addDependency, blank, if_pos rfl]

end Analysis

namespace Probe.Require

open Analysis

theorem addSpecifier_marked (a : Analysis) (specifier : Text) (site : Span) :
    (addSpecifier a specifier site).Marked site := by
  rw [addSpecifier]
  cases blank : specifier.isBlank with
  | true => exact addUnsafe_marked a site
  | false => exact addDependency_marked a site false blank

theorem addSpecifier?_marked (a : Analysis) (specifier : Option Text) (site : Span) :
    (addSpecifier? a specifier site).Marked site := by
  cases specifier with
  | some text => exact addSpecifier_marked a text site
  | none => exact addUnsafe_marked a site

theorem addAll_marked {site : Span} {specifiers : List Text} {specifier : Text} (a : Analysis)
    (inside : specifier ∈ specifiers) (nonblank : specifier.isBlank = false) :
    (specifiers.foldl (fun a s => a.addDependency s (some site) true) a).Marked site := by
  induction specifiers generalizing a with
  | nil => cases inside
  | cons s specifiers ih =>
      rcases List.mem_cons.1 inside with rfl | inside
      · exact (addDependency_marked a site true nonblank).mono (addAll_records site specifiers _).grows
      · exact ih _ inside

theorem addAll_of_blank (site : Span) {specifiers : List Text} (a : Analysis)
    (blank : ∀ s ∈ specifiers, s.isBlank = true) :
    specifiers.foldl (fun a s => a.addDependency s (some site) true) a = a := by
  induction specifiers with
  | nil => rfl
  | cons s specifiers ih =>
      rw [List.foldl_cons, addDependency_of_blank a _ true (blank s List.mem_cons_self)]
      exact ih fun s inside => blank s (List.mem_cons_of_mem _ inside)

/-- What a call recovered leaves nothing at all if it is cleared and blank. -/
theorem addRecovered_of_blank (a : Analysis) {r : Recovery} (site : Span)
    (cleared : r.suspicious = false) (blank : ∀ s ∈ r.specifiers, s.isBlank = true) :
    addRecovered a r site = a := by
  rw [addRecovered, cleared, addAll_of_blank site a blank]
  rfl

/-- Otherwise it leaves a dependency or a warning. -/
theorem addRecovered_marked (a : Analysis) {r : Recovery} (site : Span)
    (audible : ¬ (r.suspicious = false ∧ ∀ s ∈ r.specifiers, s.isBlank = true)) :
    (addRecovered a r site).Marked site := by
  rw [addRecovered]
  cases suspicious : r.suspicious with
  | true => exact addUnsafe_marked _ site
  | false =>
      have some : ∃ s ∈ r.specifiers, s.isBlank = false := by
        by_contra none
        refine audible ⟨suspicious, fun s inside => ?_⟩
        by_contra nonblank
        exact none ⟨s, inside, Bool.not_eq_true _ ▸ nonblank⟩
      obtain ⟨s, inside, nonblank⟩ := some
      exact addAll_marked a inside nonblank

end Probe.Require

namespace Pass

def IsLoad (t : Tracer) (e : Expr) : Prop :=
  (∃ name, Probe.require.match? e t = .ok (some name)) ∨
    ∃ location span nested arguments, e = .call location (.other span .importToken nested) arguments

/-- The loads that leave nothing behind although they have an argument. -/
inductive Silent (t : Tracer) : Expr → Prop
  /-- The argument of `require` is a call, cleared of suspicion, that gives blank specifiers. -/
  | recovered {location span : Span} {callee inner : Expr} {arguments more : List Expr}
      {name : Option Text} {r : Recovery}
      (matched : Probe.require.match? (.call location callee (.call span inner arguments :: more)) t
        = .ok (some name))
      (walked : Recovery.walk t (.call span inner arguments) = .ok r)
      (cleared : r.suspicious = false) (blank : ∀ s ∈ r.specifiers, s.isBlank = true) :
      Silent t (.call location callee (.call span inner arguments :: more))
  /-- The argument of `import` is a blank string. -/
  | imported {location span valueSpan : Span} {nested more : List Expr} {value : Text}
      (blank : value.isBlank = true) :
      Silent t (.call location (.other span .importToken nested) (.string valueSpan value :: more))

/-- A visit to a call of `import`. -/
theorem visit_import (location span : Span) (nested arguments : List Expr) (a : Analysis) :
    visit defaultProbes (.call location (.other span .importToken nested) arguments) a =
      .ok (Probe.Import.settle (.call location (.other span .importToken nested) arguments) a,
        .other span .importToken nested :: arguments) := by
  rw [visit_eq, Tracer.observe_call]
  rfl

theorem marked_of_resolve {location : Span} {callee argument : Expr} {more : List Expr}
    {a a' : Analysis} {name : Option Text} {signal : Option Signal}
    (matched : Probe.require.match? (.call location callee (argument :: more)) a.tracer =
      .ok (some name))
    (resolved : Probe.Require.resolve (.call location callee (argument :: more)) a name =
      .ok (a', signal))
    (audible : ¬ Silent a.tracer (.call location callee (argument :: more))) :
    a'.Marked location := by
  rw [Probe.Require.resolve_cons] at resolved
  rcases Probe.Require.resolveArgument_cases resolved with
    ⟨_, _, specifier, rfl⟩ | ⟨span, inner, arguments, r, rfl, _, walked, rfl⟩
  · exact Probe.Require.addSpecifier?_marked _ specifier location
  · rw [Probe.Require.tracer_flagged] at walked
    refine Probe.Require.addRecovered_marked _ location fun quiet => ?_
    exact audible (.recovered matched walked quiet.1 quiet.2)

/-- A load that is not silent leaves a dependency or a warning at its span. -/
theorem marked_of_visit {location : Span} {callee argument : Expr} {more inside : List Expr}
    {a a' : Analysis} (load : IsLoad a.tracer (.call location callee (argument :: more)))
    (visited : visit defaultProbes (.call location callee (argument :: more)) a = .ok (a', inside))
    (audible : ¬ Silent a.tracer (.call location callee (argument :: more))) :
    a'.Marked location := by
  rcases load with ⟨name, matched⟩ | ⟨_, span, nested, _, isImport⟩
  · rw [visit_of_match matched] at visited
    obtain ⟨⟨a', signal⟩, resolved, visited⟩ := Outcome.bind_eq_ok_iff.1 visited
    cases visited
    exact marked_of_resolve matched resolved audible
  · cases isImport
    rw [visit_import] at visited
    cases visited
    cases argument with
    | string valueSpan value =>
        cases blank : value.isBlank with
        | true => exact absurd (.imported blank) audible
        | false => exact Analysis.addDependency_marked _ location false blank
    | _ => exact Analysis.addUnsafe_marked _ location

/-- A silent load leaves the records as they were. -/
theorem unchanged_of_visit {e : Expr} {a a' : Analysis} {inside : List Expr}
    (silent : Silent a.tracer e) (visited : visit defaultProbes e a = .ok (a', inside)) :
    a'.dependencies = a.dependencies ∧ a'.warnings = a.warnings := by
  cases silent with
  | @recovered location span callee inner arguments more name r matched walked cleared blank =>
      rw [visit_of_match matched] at visited
      obtain ⟨⟨a', signal⟩, resolved, visited⟩ := Outcome.bind_eq_ok_iff.1 visited
      cases visited
      rw [Probe.Require.resolve_cons, Probe.Require.resolveArgument,
        Probe.Require.tracer_flagged] at resolved
      simp only [walked, Outcome.ok_bind] at resolved
      rw [Probe.Require.addRecovered_of_blank _ location cleared blank] at resolved
      cases resolved
      split <;> exact ⟨rfl, rfl⟩
  | @imported location span valueSpan nested more value blank =>
      rw [visit_import] at visited
      cases visited
      rw [Probe.Import.settle, Analysis.addDependency_of_blank _ _ false blank]
      exact ⟨rfl, rfl⟩

/-! ## The two together -/

/-- **Which literals let every pass complete, and what loads leave behind.**  Every pass over
expressions made of these literals completes, or follows a name for ever, exactly if none of the
texts is an odd number of digits before a line feed and none of the numbers is overlong.  And when
a pass completes, every load with an argument that it has come to left a dependency or an
unsafe import at its span, or is silent and left nothing. -/
theorem completes_iff_literals_sound (texts : Text → Prop) (numbers : Number → Prop) :
    ((∀ root : Expr, root.MadeOf texts numbers → ∀ file hasErrors f,
        walk defaultProbes root (.start file hasErrors) = .error f → f = .endlessAlias) ↔
      (∀ t, texts t → ¬ Hex.Uneven t) ∧ ∀ n, numbers n → ¬ n.Overlong) ∧
    ∀ root file hasErrors r, walk defaultProbes root (.start file hasErrors) = .ok r →
      ∀ path location callee argument more a,
        Arrives (visit defaultProbes) root (.start file hasErrors) path
          (.call location callee (argument :: more)) a →
        IsLoad a.tracer (.call location callee (argument :: more)) →
        (¬ Silent a.tracer (.call location callee (argument :: more)) → r.Marked location) ∧
        (Silent a.tracer (.call location callee (argument :: more)) → ∀ a' inside,
          visit defaultProbes (.call location callee (argument :: more)) a = .ok (a', inside) →
          a'.dependencies = a.dependencies ∧ a'.warnings = a.warnings) := by
  refine ⟨⟨fun complete => ⟨fun t among uneven => ?_, fun n among overlong => ?_⟩, ?_⟩, ?_⟩
  · cases complete _ (loadOfCall_madeOf numbers among) [] false _ (walk_loadOfCall uneven [] false)
  · cases complete _ (loadOfSum_madeOf texts among) [] false _ (walk_loadOfSum overlong [] false)
  · rintro ⟨soundTexts, soundNumbers⟩ root made file hasErrors f fails
    exact walk_tame _ (made.mono soundTexts soundNumbers) f fails
  · intro root file hasErrors r done path location callee argument more a arrives load
    obtain ⟨r', passed, rfl⟩ := passed_of_walk done
    refine ⟨fun audible => ?_, fun silent a' inside => unchanged_of_visit silent⟩
    obtain ⟨a', inside, visited, grows⟩ := visited_of_arrives passed arrives
    exact (marked_of_visit load visited audible).mono grows

/-- `require("x")`. -/
def loadOfText : Expr :=
  .call ⟨1, 0, 1, 12⟩ (.identifier ⟨1, 0, 1, 7⟩ "require") [.string ⟨1, 8, 1, 11⟩ "x"]

/-- A load of a text that is no digits ends no pass and leaves its mark. -/
theorem loadOfText_marked :
    (∀ file hasErrors f,
      walk defaultProbes loadOfText (.start file hasErrors) = .error f → f = .endlessAlias) ∧
    ∃ r, walk defaultProbes loadOfText (.start Analysis.inMemory false) = .ok r ∧
      r.Marked ⟨1, 0, 1, 12⟩ := by
  obtain ⟨complete, left⟩ := completes_iff_literals_sound (· = "x") fun _ => False
  constructor
  · refine complete.2 ⟨?_, fun _ none => none.elim⟩ loadOfText ?_
    · rintro _ rfl ⟨digits, ends, long, _⟩
      have single : List.length ("x" : Text) = 1 := rfl
      rw [ends, List.length_append] at single
      omega
    · simp [loadOfText, Expr.MadeOf, Expr.within, Expr.withinAll, Expr.Admits]
  · refine ⟨_, rfl, (left loadOfText _ _ _ rfl [] _ _ _ _ _ (.here _ _) ?_).1 ?_⟩
    · exact .inl ⟨some Tracer.loader, rfl⟩
    · rintro ⟨⟩

/-- `require(f("abcde\n"))`. -/
def loadBehindFeed : Expr :=
  .call ⟨1, 0, 1, 21⟩ (.identifier ⟨1, 0, 1, 7⟩ "require")
    [.call ⟨1, 8, 1, 20⟩ (.identifier ⟨1, 8, 1, 9⟩ "f") [.string ⟨1, 10, 1, 19⟩ "abcde\n"]]

/-- Five digits before a line feed end the pass, and no warning is raised. -/
theorem loadBehindFeed_fails :
    (∀ inner ∈ loadBehindFeed.within, inner.isMissing = false) ∧
    walk defaultProbes loadBehindFeed (.start Analysis.inMemory false) = .error .badHex :=
  ⟨by decide, rfl⟩

end Pass

end HiddenLoads
