/-
# HiddenLoads.Proofs.UndeclaredPackages -- the report of undeclared packages

A specifier needs no declaration of its own for one of four reasons (`Manifest.Exemption`), and
every other one is reported once, where it first occurs (`Manifest.Reports`).  One more specifier
keeps that (`Manifest.Reports.add`), and so do all of them.

Each file lists its specifiers once, and the report lists them once over all files.  The first does
not matter for the second: a specifier that is exempt or found already changes nothing, so it can be
left out wherever it comes again (`Manifest.undeclaredFrom_filter`).

The reasons look at the beginning of a specifier and at the package that it points into, which is
the same for every path inside the package (`Specifier.package_within`).
-/
import HiddenLoads.Analysis
import HiddenLoads.Manifest
import HiddenLoads.Proofs.Splitting

namespace HiddenLoads

set_option autoImplicit false

/-! ## Paths inside a package -/

namespace Specifier

open Text

/-- What lies at a path inside of what a specifier points at. -/
def within (s path : Text) : Text := s ++ CodePoint.ofChar '/' :: path

/-- A word without slashes begins the longer specifier only if it begins the shorter one. -/
theorem isPrefixOf_within {word : Text} (free : CodePoint.ofChar '/' ∉ word) (s path : Text) :
    word.isPrefixOf (within s path) = word.isPrefixOf s := by
  rw [Bool.eq_iff_iff, List.isPrefixOf_iff_prefix, List.isPrefixOf_iff_prefix]
  constructor
  · rintro ⟨rest, same⟩
    rcases List.append_eq_append_iff.1 same with ⟨more, isMore, _⟩ | ⟨more, isMore, after⟩
    · exact ⟨more, isMore.symm⟩
    · -- What the word has beyond the specifier begins in the slash, so it has nothing.
      cases more with
      | nil => exact (isMore.trans (List.append_nil s)) ▸ List.prefix_rfl
      | cons c more =>
          rw [List.cons_append, List.cons.injEq] at after
          exact absurd (by simp [isMore, after.1]) free
  · exact fun starts => starts.trans (List.prefix_append _ _)

theorem bare_within (s path : Text) : bare (within s path) = within (bare s) path := by
  rw [bare, isPrefixOf_within (by decide), bare]
  split
  case isTrue starts =>
      have long := (List.isPrefixOf_iff_prefix.1 starts).length_le
      exact List.drop_append_of_le_length long
  case isFalse => rfl

theorem package_of_pieces {s first second : Text} {more : List Text}
    (pieces : splitOn '/' (bare s) = first :: second :: more) :
    package s = if first.beginsIn '@' then first ++ CodePoint.ofChar '/' :: second else first := by
  simp only [package, pieces]

/-- A path inside a package points into it; a scope alone is no package yet. -/
theorem package_within {s : Text}
    (whole : (bare s).beginsIn '@' = false ∨ CodePoint.ofChar '/' ∈ bare s) (path : Text) :
    package (within s path) = package s := by
  have pieces : splitOn '/' (bare (within s path)) = splitOn '/' (bare s) ++ splitOn '/' path := by
    rw [bare_within, within, splitOn_append]
  by_cases marked : CodePoint.ofChar '/' ∈ bare s
  · -- The package is told by the first two pieces, and those are there already.
    obtain ⟨head, rest, cut, free⟩ := List.eq_append_cons_of_mem marked
    obtain ⟨second, more, others⟩ := List.exists_cons_of_ne_nil (splitOn_ne_nil '/' rest)
    have own : splitOn '/' (bare s) = head :: second :: more := by
      rw [cut, splitOn_append, splitOn_of_not_mem free, others]
      rfl
    rw [own, List.cons_append, List.cons_append] at pieces
    rw [package_of_pieces pieces, package_of_pieces own]
  · have unscoped := whole.resolve_right marked
    have own : splitOn '/' (bare s) = [bare s] := splitOn_of_not_mem marked
    obtain ⟨second, more, others⟩ := List.exists_cons_of_ne_nil (splitOn_ne_nil '/' path)
    rw [own, others, List.singleton_append] at pieces
    rw [package_of_pieces pieces, unscoped, if_neg Bool.false_ne_true]
    simp only [package, own]

theorem isLocal_within {s : Text} (nonempty : s ≠ []) (path : Text) :
    isLocal (within s path) = isLocal s := by
  rw [isLocal, isPrefixOf_within (by decide), isLocal]
  cases s with
  | nil => exact absurd rfl nonempty
  | cons c s => rfl

end Specifier

/-! ## The report -/

namespace Manifest

inductive Exemption where
  | file
  | platform
  | declared
  | self

def Exempts (m : Manifest) (s : Text) : Exemption → Prop
  | .file => Specifier.isLocal s = true
  | .platform => Specifier.isBuiltin s = true
  | .declared => Specifier.package s ∈ m.declared
  | .self => m.name = .string (Specifier.package s)

theorem covers_iff (m : Manifest) (s : Text) : m.covers s = true ↔ ∃ reason, m.Exempts s reason := by
  have own : m.name.isString (Specifier.package s) = true ↔ m.Exempts s .self := by
    rw [Exempts]
    cases m.name <;> simp [Json.isString]
  simp only [covers, Bool.or_eq_true, List.contains_iff_mem, own]
  constructor
  · rintro (((isFile | isBuiltin) | declared) | own)
    · exact ⟨.file, isFile⟩
    · exact ⟨.platform, isBuiltin⟩
    · exact ⟨.declared, declared⟩
    · exact ⟨.self, own⟩
  · rintro ⟨reason, exempt⟩
    cases reason with
    | file => exact .inl (.inl (.inl exempt))
    | platform => exact .inl (.inl (.inr exempt))
    | declared => exact .inl (.inr exempt)
    | self => exact .inr exempt

theorem exempts_within (m : Manifest) {s : Text} (nonempty : s ≠ [])
    (whole : (Specifier.bare s).beginsIn '@' = false ∨ CodePoint.ofChar '/' ∈ Specifier.bare s)
    (path : Text) (reason : Exemption) :
    m.Exempts (Specifier.within s path) reason ↔ m.Exempts s reason := by
  have package := Specifier.package_within whole path
  cases reason with
  | file => rw [Exempts, Exempts, Specifier.isLocal_within nonempty]
  | platform =>
      rw [Exempts, Exempts, Specifier.isBuiltin, Specifier.isBuiltin, package,
        Specifier.isPrefixOf_within (by decide)]
  | declared => rw [Exempts, Exempts, package]
  | self => rw [Exempts, Exempts, package]

/-! ## One more specifier -/

/-- The specifier has been dealt with: it is exempt, or has been found. -/
def Settled (m : Manifest) (found : List Text) (s : Text) : Prop := m.covers s = true ∨ s ∈ found

def add (m : Manifest) (found : List Text) (s : Text) : List Text := m.undeclaredFrom found [s]

section Add

variable {m : Manifest} {found : List Text} {s : Text}

theorem add_of_settled (settled : m.Settled found s) : m.add found s = found := by
  have skips : (m.covers s || found.contains s) = true := by
    simpa [Settled] using settled
  exact if_pos skips

theorem add_of_not_settled (other : ¬ m.Settled found s) : m.add found s = found ++ [s] := by
  have takes : ¬ (m.covers s || found.contains s) = true := by
    simpa [Settled] using other
  exact if_neg takes

/-- What has been dealt with stays so. -/
theorem Settled.add {t : Text} (settled : m.Settled found t) : m.Settled (m.add found s) t := by
  by_cases known : m.Settled found s
  · rwa [add_of_settled known]
  · rw [add_of_not_settled known]
    exact settled.imp_right (List.mem_append_left _)

theorem settled_add : m.Settled (m.add found s) s := by
  by_cases known : m.Settled found s
  · rwa [add_of_settled known]
  · rw [add_of_not_settled known]
    exact .inr (List.mem_append_right _ (List.mem_singleton_self s))

end Add

theorem undeclaredFrom_cons (m : Manifest) (found : List Text) (s : Text) (rest : List Text) :
    m.undeclaredFrom found (s :: rest) = m.undeclaredFrom (m.add found s) rest := rfl

theorem undeclaredFrom_append (m : Manifest) (found xs ys : List Text) :
    m.undeclaredFrom found (xs ++ ys) = m.undeclaredFrom (m.undeclaredFrom found xs) ys :=
  List.foldl_append

/-! ## Repetitions -/

/-- What has been dealt with can be left out. -/
theorem undeclaredFrom_filter {m : Manifest} {found : List Text} {s : Text}
    (settled : m.Settled found s) (rest : List Text) :
    m.undeclaredFrom found (rest.filter fun t => !t == s) = m.undeclaredFrom found rest := by
  induction rest generalizing found with
  | nil => rfl
  | cons t rest ih =>
      by_cases same : t = s
      · subst same
        rw [List.filter_cons_of_neg (by simp), ih settled, undeclaredFrom_cons,
          add_of_settled settled]
      · rw [List.filter_cons_of_pos (by simpa using same), undeclaredFrom_cons,
          undeclaredFrom_cons, ih settled.add]

theorem undeclaredFrom_eraseDups (m : Manifest) (found specifiers : List Text) :
    m.undeclaredFrom found specifiers.eraseDups = m.undeclaredFrom found specifiers := by
  match specifiers with
  | [] => rfl
  | s :: rest =>
      have shorter : (rest.filter fun t => !t == s).length < rest.length + 1 :=
        Nat.lt_succ_of_le (List.length_filter_le _ _)
      rw [List.eraseDups_cons, undeclaredFrom_cons, undeclaredFrom_cons,
        undeclaredFrom_eraseDups m (m.add found s) (rest.filter fun t => !t == s),
        undeclaredFrom_filter settled_add]
termination_by specifiers.length

/-- Listing the specifiers of each file once makes no difference. -/
theorem undeclaredFrom_dependencyNames (m : Manifest) (found : List Text)
    (analyses : List Analysis) :
    m.undeclaredFrom found (analyses.flatMap (·.dependencyNames)) =
      m.undeclaredFrom found (analyses.flatMap fun a => a.dependencies.map (·.specifier)) := by
  induction analyses generalizing found with
  | nil => rfl
  | cons a analyses ih =>
      rw [List.flatMap_cons, List.flatMap_cons, undeclaredFrom_append, undeclaredFrom_append, ih,
        Analysis.dependencyNames, undeclaredFrom_eraseDups]

/-! ## First occurrences -/

/-- The list has every specifier once that has been read and is not exempt, in the order in which
they first occur. -/
structure Reports (m : Manifest) (read found : List Text) : Prop where
  nodup : found.Nodup
  mem_iff : ∀ s, s ∈ found ↔ s ∈ read ∧ ∀ reason, ¬ m.Exempts s reason
  ordered : found.Pairwise fun earlier later => read.idxOf earlier < read.idxOf later

namespace Reports

variable {m : Manifest} {read found : List Text}

theorem nil (m : Manifest) : Reports m [] [] :=
  ⟨List.nodup_nil, by simp, List.Pairwise.nil⟩

/-- Reading on does not move what has been found. -/
theorem ordered_concat (reports : Reports m read found) (s : Text) :
    found.Pairwise fun earlier later =>
      (read ++ [s]).idxOf earlier < (read ++ [s]).idxOf later := by
  refine reports.ordered.imp_of_mem fun {earlier later} first second before => ?_
  have early := ((reports.mem_iff earlier).1 first).1
  have late := ((reports.mem_iff later).1 second).1
  rwa [List.idxOf_append, if_pos early, List.idxOf_append, if_pos late]

theorem skip (reports : Reports m read found) {s : Text} (settled : m.Settled found s) :
    Reports m (read ++ [s]) found := by
  refine ⟨reports.nodup, fun t => ?_, reports.ordered_concat s⟩
  rw [reports.mem_iff, List.mem_append, List.mem_singleton]
  refine and_congr_left fun wanting => ⟨.inl, ?_⟩
  rintro (inside | rfl)
  · exact inside
  · rcases settled with covered | known
    · obtain ⟨reason, exempt⟩ := (covers_iff m t).1 covered
      exact absurd exempt (wanting reason)
    · exact ((reports.mem_iff t).1 known).1

theorem take (reports : Reports m read found) {s : Text} (other : ¬ m.Settled found s) :
    Reports m (read ++ [s]) (found ++ [s]) := by
  have wanting (reason : Exemption) : ¬ m.Exempts s reason :=
    fun exempt => other (.inl ((covers_iff m s).2 ⟨reason, exempt⟩))
  have fresh : s ∉ read := fun inside => other (.inr ((reports.mem_iff s).2 ⟨inside, wanting⟩))
  refine ⟨?_, fun t => ?_, ?_⟩
  · refine List.nodup_append.2 ⟨reports.nodup, List.pairwise_singleton _ s, ?_⟩
    rintro t known u isLast rfl
    exact other (.inr (List.mem_singleton.1 isLast ▸ known))
  · rw [List.mem_append, List.mem_append, reports.mem_iff, List.mem_singleton, or_and_right]
    refine or_congr_right ⟨?_, And.left⟩
    rintro rfl
    exact ⟨rfl, wanting⟩
  · refine List.pairwise_append.2 ⟨reports.ordered_concat s, List.pairwise_singleton _ _, ?_⟩
    intro earlier known later isLast
    have inside := ((reports.mem_iff earlier).1 known).1
    rw [List.mem_singleton.1 isLast, List.idxOf_append, if_pos inside, List.idxOf_append,
      if_neg fresh, List.idxOf_cons_self, Nat.zero_add]
    exact List.idxOf_lt_length_of_mem inside

/-- One more specifier is reported if it has not been dealt with. -/
theorem add (reports : Reports m read found) (s : Text) :
    Reports m (read ++ [s]) (m.add found s) := by
  by_cases settled : m.Settled found s
  · rw [add_of_settled settled]
    exact reports.skip settled
  · rw [add_of_not_settled settled]
    exact reports.take settled

theorem run (reports : Reports m read found) (specifiers : List Text) :
    Reports m (read ++ specifiers) (m.undeclaredFrom found specifiers) := by
  induction specifiers generalizing read found with
  | nil =>
      rw [List.append_nil]
      exact reports
  | cons s rest ih =>
      rw [undeclaredFrom_cons, ← List.singleton_append, ← List.append_assoc]
      exact ih (reports.add s)

end Reports

/-- **The report of undeclared packages.**  It is the same whether or not the specifiers of each
analysis are listed once; it has each specifier that is not exempt once, in the order in which they
first occur; and a path inside a package is exempt exactly as the package is. -/
theorem undeclared_reports (m : Manifest) (analyses : List Analysis) :
    m.undeclared (analyses.flatMap (·.dependencyNames)) =
        m.undeclared (analyses.flatMap fun a => a.dependencies.map (·.specifier)) ∧
      Reports m (analyses.flatMap fun a => a.dependencies.map (·.specifier))
        (m.undeclared (analyses.flatMap fun a => a.dependencies.map (·.specifier))) ∧
      ∀ p q : Text, p ≠ [] →
        ((Specifier.bare p).beginsIn '@' = false ∨ CodePoint.ofChar '/' ∈ Specifier.bare p) →
        ∀ reason, m.Exempts p reason ↔ m.Exempts (p ++ CodePoint.ofChar '/' :: q) reason :=
  ⟨undeclaredFrom_dependencyNames m [] analyses, (Reports.nil m).run _,
    fun _ q nonempty whole reason => (exempts_within m nonempty whole q reason).symm⟩

def finding (specifiers : List Text) : Analysis :=
  { Analysis.start Analysis.inMemory false with
    dependencies := specifiers.map fun s => ⟨s, none, false, false⟩ }

/-- Over two files a package that is loaded in both is reported once, and a path inside a declared
package is not. -/
theorem twoFiles_reported :
    let m : Manifest := ⟨.string "app", [Text.ofString "@babel/core"]⟩
    let files := [finding ["pad/left", "fs", "pad/left"], finding ["@babel/core/lib", "pad/left"]]
    m.undeclared (files.flatMap (·.dependencyNames)) = [Text.ofString "pad/left"] ∧
      Reports m ["pad/left", "fs", "pad/left", "@babel/core/lib", "pad/left"] ["pad/left"] ∧
      m.Exempts "@babel/core/lib" .declared := by
  intro m files
  have read : (files.flatMap fun a => a.dependencies.map (·.specifier)) =
      [Text.ofString "pad/left", "fs", "pad/left", "@babel/core/lib", "pad/left"] := by decide
  have listed : m.undeclared [Text.ofString "pad/left", "fs", "pad/left", "@babel/core/lib",
      "pad/left"] = [Text.ofString "pad/left"] := by decide +kernel
  have declared : m.Exempts "@babel/core" .declared :=
    show Specifier.package "@babel/core" ∈ [Text.ofString "@babel/core"] by decide
  obtain ⟨same, reports, within⟩ := undeclared_reports m files
  rw [read, listed] at same reports
  exact ⟨same, reports, (within "@babel/core" "lib" (by decide) (by decide) .declared).1 declared⟩

end Manifest

end HiddenLoads
