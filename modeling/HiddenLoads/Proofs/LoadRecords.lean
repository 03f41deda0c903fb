/-
# HiddenLoads.Proofs.LoadRecords -- how many records a load leaves

A load whose first argument is no call leaves exactly one record: a dependency if a specifier can be
read off, and an unsafe import otherwise.  A load behind a call leaves one record for every
recovered specifier that is not blank, and one more if the suspicion is not lifted.

Hence a load behind a call may leave nothing.  Both have to come together: a `path.join` of strings
lifts the suspicion, and whatever the calls inside the argument give is blank
(`Probe.Require.Quiet`).  The shortest such load is `require(path.join(" "))`, while
`require(" ")` is an unsafe import.
-/
import HiddenLoads.Proofs.Rules
import HiddenLoads.Proofs.Visit

namespace HiddenLoads

set_option autoImplicit false

namespace Analysis

def recordCount (a : Analysis) : Nat := a.dependencies.length + a.warnings.length

theorem recordCount_addUnsafe (a : Analysis) (site : Span) :
    (a.addUnsafe site).recordCount = a.recordCount + 1 := by
  simp [recordCount, addUnsafe, addWarning, Nat.add_assoc]

theorem recordCount_addDependency (a : Analysis) (specifier : Text) (location : Option Span)
    (dynamic : Bool) :
    (a.addDependency specifier location dynamic).recordCount =
      a.recordCount + if specifier.isBlank then 0 else 1 := by
  rw [addDependency]
  cases specifier.isBlank with
  | true => rfl
  | false =>
      simp only [recordCount, Bool.false_eq_true, if_false, List.length_append, List.length_singleton]
      omega

/-- Records at a span are told apart from those before by their number. -/
theorem Records.exists_added {site : Span} {a a' : Analysis} (records : Records site a a') :
    ∃ found raised, a'.dependencies = a.dependencies ++ found ∧
      a'.warnings = a.warnings ++ raised ∧ (∀ d ∈ found, d.location = some site) ∧
      (∀ w ∈ raised, w = ⟨Warning.unsafeImport, some site, none⟩) ∧
      a'.recordCount = a.recordCount + (found.length + raised.length) := by
  obtain ⟨found, grown, located⟩ := records.dependencies
  obtain ⟨raised, warned, isUnsafe⟩ := records.warnings
  refine ⟨found, raised, grown, warned, located, isUnsafe, ?_⟩
  rw [recordCount, recordCount, grown, warned, List.length_append, List.length_append]
  omega

end Analysis

namespace Probe.Require

open Analysis

theorem recordCount_addSpecifier? (a : Analysis) (specifier : Option Text) (site : Span) :
    (addSpecifier? a specifier site).recordCount = a.recordCount + 1 := by
  cases specifier with
  | none => exact recordCount_addUnsafe a site
  | some text =>
      rw [addSpecifier?, addSpecifier]
      cases blank : text.isBlank with
      | true => exact recordCount_addUnsafe a site
      | false => simp [recordCount_addDependency, blank]

theorem recordCount_addAll (site : Span) (specifiers : List Text) (a : Analysis) :
    (specifiers.foldl (fun a s => a.addDependency s (some site) true) a).recordCount =
      a.recordCount + specifiers.countP (fun s => !s.isBlank) := by
  induction specifiers generalizing a with
  | nil => rfl
  | cons s specifiers ih =>
      rw [List.foldl_cons, ih, recordCount_addDependency, List.countP_cons]
      cases s.isBlank with
      | true => simp
      | false => simp; omega

/-- A load behind a call leaves a record for every specifier that is not blank, and one for the
suspicion. -/
theorem recordCount_addRecovered (a : Analysis) (r : Recovery) (site : Span) :
    (addRecovered a r site).recordCount =
      a.recordCount + (r.specifiers.countP (fun s => !s.isBlank) + if r.suspicious then 1 else 0) := by
  rw [addRecovered]
  cases r.suspicious with
  | true =>
      simp only [if_true]
      rw [recordCount_addUnsafe, recordCount_addAll, Nat.add_assoc]
  | false => exact recordCount_addAll site r.specifiers a

/-- The argument is a call in which some call joins, and whatever the calls in it give is blank. -/
def Quiet (t : Tracer) (argument : Expr) : Prop :=
  (∃ span callee arguments, argument = .call span callee arguments) ∧
  (∃ inner ∈ Recovery.reached argument, ∃ text, Recovery.Gives t inner .join text) ∧
  ∀ inner ∈ Recovery.reached argument, ∀ rule text, Recovery.Gives t inner rule text →
    text.isBlank = true

/-- The walk through a quiet argument ends without suspicion and with blank specifiers only. -/
theorem quiet_iff_of_walk {t : Tracer} {span : Span} {callee : Expr} {arguments : List Expr}
    {r : Recovery} (walked : Recovery.walk t (.call span callee arguments) = .ok r) :
    Quiet t (.call span callee arguments) ↔
      r.suspicious = false ∧ ∀ s ∈ r.specifiers, s.isBlank = true := by
  rw [Recovery.cleared_iff walked]
  constructor
  · rintro ⟨_, joined, blank⟩
    refine ⟨joined, fun s recovered => ?_⟩
    obtain ⟨_, inner, inside, rule, gives⟩ := (Recovery.mem_specifiers_iff walked s).1 recovered
    exact blank inner inside rule s gives
  · rintro ⟨joined, blank⟩
    refine ⟨⟨span, callee, arguments, rfl⟩, joined, fun inner inside rule text gives => ?_⟩
    by_cases empty : text = []
    · rw [empty]
      rfl
    · exact blank text ((Recovery.mem_specifiers_iff walked text).2 ⟨empty, inner, inside, rule, gives⟩)

/-- **A load with an argument leaves a record, unless the argument is quiet.**  All records are at
the span of the load, and it is exactly one if the argument is no call. -/
theorem load_recorded_iff_not_quiet {a a' : Analysis} {location : Span} {callee argument : Expr}
    {more : List Expr} {name : Option Text} {signal : Option Signal}
    (resolved : resolve (.call location callee (argument :: more)) a name = .ok (a', signal)) :
    ∃ found raised, a'.dependencies = a.dependencies ++ found ∧
      a'.warnings = a.warnings ++ raised ∧ (∀ d ∈ found, d.location = some location) ∧
      (∀ w ∈ raised, w = ⟨Warning.unsafeImport, some location, none⟩) ∧
      (1 ≤ found.length + raised.length ↔ ¬ Quiet a.tracer argument) ∧
      ((∀ span callee arguments, argument ≠ .call span callee arguments) →
        found.length + raised.length = 1) := by
  obtain ⟨found, raised, grown, warned, located, isUnsafe, count⟩ :=
    (resolve_records resolved).exists_added
  refine ⟨found, raised, grown, warned, located, isUnsafe, ?_⟩
  rw [resolve_cons] at resolved
  have flagged : (if name = some evaluator then { a with viaEval := true } else a).recordCount =
      a.recordCount := by
    split <;> rfl
  rcases resolveArgument_cases resolved with
    ⟨other, _, specifier, rfl⟩ | ⟨span, inner, arguments, r, rfl, _, walked, rfl⟩
  · rw [recordCount_addSpecifier?, flagged] at count
    have one : found.length + raised.length = 1 := by omega
    have loud : ¬ Quiet a.tracer argument := fun ⟨⟨_, _, _, isCall⟩, _⟩ => other _ _ _ isCall
    exact ⟨by simp [one, loud], fun _ => one⟩
  · rw [recordCount_addRecovered, flagged, Nat.add_left_cancel_iff] at count
    rw [tracer_flagged] at walked
    refine ⟨?_, fun other => absurd rfl (other span inner arguments)⟩
    rw [quiet_iff_of_walk walked, ← count, Nat.one_le_iff_ne_zero, ne_eq, not_iff_not]
    cases r.suspicious <;> simp

/-- `require(argument)`. -/
def loadOf (argument : Expr) : Expr :=
  .call .unknown (.identifier .unknown "require") [argument]

/-- `require(path.join(" ", "a"))` leaves a dependency, so its argument is not quiet. -/
theorem joinOfBlankAndName_recorded :
    ∃ a', resolve (loadOf (Recovery.joinOf [" ", "a"])) (.start Analysis.inMemory false)
        (some "require") = .ok (a', some .skip) ∧
      a'.dependencies = [⟨" /a", some .unknown, true, false⟩] ∧ a'.warnings = [] ∧
      ¬ Quiet .default (Recovery.joinOf [" ", "a"]) := by
  refine ⟨_, rfl, rfl, rfl, ?_⟩
  obtain ⟨found, raised, grown, _, _, _, recorded, _⟩ := load_recorded_iff_not_quiet (rfl :
    resolve (loadOf (Recovery.joinOf [" ", "a"])) (.start Analysis.inMemory false)
      (some "require") = .ok (_, some .skip))
  refine recorded.1 ?_
  have some : found ≠ [] := by
    rintro rfl
    cases grown
  have := List.length_pos_iff.2 some
  omega

/-- `require(path.join(" "))` leaves no record, and the whole pass over it reports nothing. -/
theorem joinOfBlank_unrecorded :
    (∀ inner ∈ (loadOf (Recovery.joinOf [" "])).within, inner.isMissing = false) ∧
    (∀ a : Analysis, a.tracer = .default →
      resolve (loadOf (Recovery.joinOf [" "])) a (some "require") = .ok (a, some .skip)) ∧
    ∃ r, Pass.walk Pass.defaultProbes (loadOf (Recovery.joinOf [" "]))
        (.start Analysis.inMemory false) = .ok r ∧ r.dependencies = [] ∧ r.warnings = [] := by
  refine ⟨by decide, ?_, _, rfl, rfl, rfl⟩
  rintro ⟨file, tracer, dependencies, warnings, viaEval, hasErrors⟩ rfl
  rfl

end Probe.Require

end HiddenLoads
