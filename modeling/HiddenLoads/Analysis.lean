/-
# HiddenLoads.Analysis -- what a pass over one file has found

A pass collects dependencies, the specifiers of modules that the file loads, and warnings,
constructs that could not be resolved.  Records are only ever added, in the order in which they
are found.  While `viaEval` is set, dependencies are marked as found through `eval`.
-/
import HiddenLoads.Span
import HiddenLoads.Text.Blank
import HiddenLoads.Tracer

namespace HiddenLoads

set_option autoImplicit false

/-- A module that the file loads. -/
structure Dependency where
  specifier : Text
  location : Option Span
  dynamic : Bool
  viaEval : Bool
deriving DecidableEq, Repr

inductive Severity where
  | critical
  | warning
  | information
deriving DecidableEq, Repr

namespace Severity

def name : Severity → Text
  | .critical => "Critical"
  | .warning => "Warning"
  | .information => "Information"

end Severity

/-- A construct that could not be resolved. -/
structure Warning where
  kind : Text
  location : Option Span
  value : Option Text
deriving DecidableEq, Repr

namespace Warning

/-- The kind of a load whose specifier could not be told. -/
def unsafeImport : Text := "unsafe-import"

def severity (w : Warning) : Severity :=
  if w.kind = unsafeImport then .warning else .information

end Warning

/-- The state of a pass over one file. -/
structure Analysis where
  file : Text
  tracer : Tracer
  dependencies : List Dependency
  warnings : List Warning
  viaEval : Bool
  hasErrors : Bool
deriving Repr

namespace Analysis

def start (file : Text) (hasErrors : Bool) : Analysis :=
  ⟨file, .default, [], [], false, hasErrors⟩

/-- The name of a source that is no file. -/
def inMemory : Text := "<memory>"

/-- A specifier without one trailing slash, unless it is nothing else. -/
def withoutSlash (specifier : Text) : Text :=
  if specifier.length > 1 ∧ specifier.endsIn '/' then specifier.dropLast else specifier

/-- A slash is dropped behind something else, and nothing happens to other specifiers. -/
theorem withoutSlash_cases (specifier : Text) :
    (∃ before : Text, before ≠ [] ∧ specifier = before ++ [CodePoint.ofChar '/'] ∧
        withoutSlash specifier = before) ∨
      (∀ before : Text, before ≠ [] → specifier ≠ before ++ [CodePoint.ofChar '/']) ∧
        withoutSlash specifier = specifier := by
  rw [withoutSlash]
  split
  case isTrue slash =>
      obtain ⟨before, rfl⟩ := List.getLast?_eq_some_iff.1 (eq_of_beq slash.2)
      refine .inl ⟨before, ?_, rfl, List.dropLast_concat⟩
      rintro rfl
      exact absurd slash.1 (by decide)
  case isFalse other =>
      refine .inr ⟨?_, rfl⟩
      rintro before nonempty rfl
      refine other ⟨?_, by simp [Text.endsIn]⟩
      have := List.length_pos_iff.2 nonempty
      simp only [List.length_append, List.length_singleton]
      omega

/-- One more dependency; a blank specifier is none. -/
def addDependency (a : Analysis) (specifier : Text) (location : Option Span) (dynamic : Bool) :
    Analysis :=
  if specifier.isBlank then a
  else
    let found := ⟨withoutSlash specifier, location, dynamic, a.viaEval⟩
    { a with dependencies := a.dependencies ++ [found] }

def addWarning (a : Analysis) (kind : Text) (location : Option Span) (value : Option Text) :
    Analysis :=
  { a with warnings := a.warnings ++ [⟨kind, location, value⟩] }

def addUnsafe (a : Analysis) (location : Span) : Analysis :=
  a.addWarning Warning.unsafeImport (some location) none

/-- The specifiers, each once, in the order in which they were found. -/
def dependencyNames (a : Analysis) : List Text := (a.dependencies.map (·.specifier)).eraseDups

/-- There is a warning, or a dependency was found through `eval`. -/
def suspicious (a : Analysis) : Bool :=
  !a.warnings.isEmpty || a.dependencies.any (·.viaEval)

end Analysis

end HiddenLoads
