/-
# HiddenLoads.Proofs.ScalarExprs -- expressions that bring no surrogate in

The strings and names of a converted source have no surrogates, since they are read from octets and
from string literals (`Expr.scalar_of_convert`).  Numbers are another matter: an element of an array
stands for the code point with its number, any code point.

An expression is clean if neither its texts nor the numbers in its arrays bring a surrogate in
(`Expr.Clean`).  If the names hold texts without surrogates, so is the text that a clean expression
stands for: a literal, the pieces of an array, or a tree of `+` (`Expr.text?_isScalar`).
-/
import HiddenLoads.Proofs.Building
import HiddenLoads.Proofs.Folding
import HiddenLoads.Proofs.Scalars

namespace HiddenLoads

set_option autoImplicit false

open Text

def Number.selectsSurrogate (n : Number) : Bool := n.charCode?.any CodePoint.isSurrogate

def Bindings.Scalar (known : Bindings Text) : Prop :=
  ∀ name text, known.get? name = some text → IsScalar text

namespace Expr

def texts : Expr → List Text
  | .identifier _ name => [name]
  | .string _ value => [value]
  | .pattern _ entries => entries.flatMap fun entry => [entry.key, entry.name]
  | _ => []

def number? : Expr → Option Number
  | .number _ value => some value
  | _ => none

def codes : Expr → List Number
  | .array _ elements => elements.filterMap number?
  | _ => []

/-- No string and no name in the expression has a surrogate. -/
def Scalar (e : Expr) : Prop := ∀ inner ∈ e.within, ∀ text ∈ inner.texts, IsScalar text

/-- The numbers in the arrays of the expression are among these. -/
def CodesIn (codes : Number → Prop) (e : Expr) : Prop :=
  ∀ inner ∈ e.within, ∀ n ∈ inner.codes, codes n

/-- Nothing in the expression brings a surrogate in. -/
structure Clean (e : Expr) : Prop where
  scalar : e.Scalar
  codes : e.CodesIn (·.selectsSurrogate = false)

namespace Clean

variable {e : Expr}

theorem of_codesIn {codes : Number → Prop} (scalar : e.Scalar) (among : e.CodesIn codes)
    (clear : ∀ n, codes n → n.selectsSurrogate = false) : e.Clean :=
  ⟨scalar, fun inner inside n isCode => clear n (among inner inside n isCode)⟩

theorem of_mem {inner : Expr} (clean : e.Clean) (inside : inner ∈ e.within) : inner.Clean :=
  ⟨fun innermost isInner => clean.scalar innermost (within_subset_of_mem inside isInner),
    fun innermost isInner => clean.codes innermost (within_subset_of_mem inside isInner)⟩

theorem child {child : Expr} (clean : e.Clean) (inside : child ∈ e.children) : child.Clean :=
  clean.of_mem (within_subset_of_mem_children inside child.self_mem_within)

theorem string {span : Span} {value : Text} (clean : (Expr.string span value).Clean) :
    IsScalar value :=
  clean.scalar _ (self_mem_within _) value List.mem_cons_self

end Clean

/-! ## Values -/

section Values

variable {known : Bindings Text} {e : Expr} {text : Text}

theorem literal?_isScalar (held : known.Scalar) (clean : e.Clean)
    (reads : literal? known e = some text) : IsScalar text := by
  cases e with
  | string span value =>
      cases reads
      exact clean.string
  | identifier span name => exact held name text reads
  | _ => cases reads

/-- The pieces of an array have no surrogates, unless a number selects one. -/
theorem pieces_isScalar (held : known.Scalar) {span : Span} {elements : List Expr}
    (clean : (array span elements).Clean) :
    ∀ piece ∈ pieces known (array span elements), IsScalar piece := by
  intro piece isPiece
  obtain ⟨element, inside, gives⟩ := List.mem_filterMap.1 isPiece
  cases element with
  | string span' value =>
      rw [piece?] at gives
      split at gives <;> cases gives
      exact (clean.child (e := array span elements) inside).string
  | number span' value =>
      have isCode : value ∈ (array span elements).codes :=
        List.mem_filterMap.2 ⟨_, inside, rfl⟩
      have plain := clean.codes _ (self_mem_within _) value isCode
      obtain ⟨c, selects, rfl⟩ := Option.map_eq_some_iff.1 gives
      simpa [Number.selectsSurrogate, selects] using plain
  | identifier span' name => exact held name piece gives
  | _ => cases gives

theorem foldLeaf_isScalar (held : known.Scalar) (clean : e.Clean) {folded : Folding}
    (folds : foldLeaf known e = .ok folded) : ∀ f ∈ folded.fragments, IsScalar f := by
  unfold foldLeaf at folds
  split at folds
  · cases folds
    exact List.forall_mem_nil IsScalar
  · obtain ⟨digits, formats, folds⟩ := Outcome.bind_eq_ok_iff.1 folds
    cases folds
    simpa using Number.format_isScalar formats
  · cases folds
    exact pieces_isScalar held clean
  · split at folds
    case h_1 reads =>
        cases folds
        simpa using literal?_isScalar held clean reads
    case h_2 =>
        cases folds
        exact List.forall_mem_nil IsScalar

/-- What a tree of `+` folds into has no surrogates. -/
theorem fold_isScalar (held : known.Scalar) (clean : e.Clean) {folded : Folding}
    (folds : fold known e = .ok folded) : ∀ f ∈ folded.fragments, IsScalar f := by
  induction e using operands.induct generalizing folded with
  | case1 span left right ihLeft ihRight =>
      rw [fold_sum] at folds
      obtain ⟨first, foldsLeft, folds⟩ := Outcome.bind_eq_ok_iff.1 folds
      have before := ihLeft (clean.child (by simp [children])) foldsLeft
      unfold Folding.goOn at folds
      split at folds
      · obtain ⟨second, foldsRight, folds⟩ := Outcome.bind_eq_ok_iff.1 folds
        cases folds
        have after := ihRight (clean.child (by simp [children])) foldsRight
        exact List.forall_mem_append.2 ⟨before, after⟩
      · cases folds
        exact before
  | case2 span operator left right other =>
      rw [fold_leaf known (by rw [operands, if_neg other])] at folds
      exact foldLeaf_isScalar held clean folds
  | case3 e leaf =>
      rw [fold_leaf known (operands.eq_2 e leaf)] at folds
      exact foldLeaf_isScalar held clean folds

theorem text?_isScalar (held : known.Scalar) (clean : e.Clean)
    (reads : text? known e = .ok (some text)) : IsScalar text := by
  unfold text? at reads
  split at reads
  · split at reads
    · obtain ⟨folded, folds, reads⟩ := Outcome.bind_eq_ok_iff.1 reads
      have whole : folded.value? = some text := Except.ok.inj reads
      rw [Folding.value?] at whole
      split at whole <;> cases whole
      exact isScalar_flatten (fold_isScalar held clean folds)
    · cases reads
  · exact literal?_isScalar held clean (Except.ok.inj reads)

end Values

/-! ## Converted sources -/

theorem scalar_of_children {e : Expr} (plain : ∀ text ∈ e.texts, IsScalar text)
    (inside : ∀ child ∈ e.children, child.Scalar) : e.Scalar := by
  intro inner isInner
  rw [within_eq, List.mem_cons, mem_withinAll] at isInner
  rcases isInner with rfl | ⟨child, isChild, isInner⟩
  · exact plain
  · exact inside child isChild inner isInner

theorem Scalar.child {e child : Expr} (scalar : e.Scalar) (isChild : child ∈ e.children) :
    child.Scalar :=
  fun inner isInner => scalar inner (within_subset_of_mem_children isChild isInner)

theorem scalar_missing : Scalar .missing := by
  intro inner isMissing
  rw [List.mem_singleton.1 isMissing]
  nofun

section Row

variable {source : Source} {t : Tree} {below : List Expr}

theorem rowText_isScalar (source : Source) (t : Tree) : IsScalar (rowText source t) :=
  Utf8.decodeLossy_isScalar _

theorem rowString_isScalar (source : Source) (t : Tree) : IsScalar (rowString source t) :=
  StringBody.decode_isScalar _

theorem entryOf_isScalar {entry : Entry} (isEntry : entryOf source t = some entry) :
    IsScalar entry.key ∧ IsScalar entry.name := by
  have text := rowText_isScalar source
  have string := rowString_isScalar source
  unfold entryOf at isEntry
  repeat' split at isEntry
  all_goals cases isEntry
  · exact ⟨text _, text _⟩
  · exact ⟨string _, text _⟩
  · exact ⟨text _, text _⟩
  · exact ⟨text _, text _⟩

/-- The strings and names that a row brings in have no surrogates. -/
theorem texts_of_assemble {e : Expr} (built : assemble source t below = .ok e) :
    e ∈ below ∨ ∀ text ∈ e.texts, IsScalar text := by
  unfold assemble at built
  simp only at built
  split at built
  · cases built
    exact .inr (by simp [texts, rowText_isScalar])
  cases isKind : t.kind
  case string =>
      simp only [isKind] at built
      cases built
      exact .inr (by simp [texts, rowString_isScalar])
  case template =>
      simp only [isKind] at built
      split at built
      · cases built
        exact .inr (by simp [texts, rowString_isScalar])
      · cases built
        exact .inr nofun
  case call =>
      simp only [isKind] at built
      obtain ⟨arguments, _, built⟩ := Outcome.bind_eq_ok_iff.1 built
      cases built
      exact .inr nofun
  case parenthesized =>
      simp only [isKind] at built
      split at built
      · split at built
        · cases built
          exact .inr nofun
        · cases built
          exact .inl List.mem_cons_self
      · cases built
        exact .inr nofun
  case objectPattern =>
      simp only [isKind] at built
      cases built
      refine .inr fun text inside => ?_
      obtain ⟨entry, isEntry, inside⟩ := List.mem_flatMap.1 inside
      obtain ⟨u, _, made⟩ := List.mem_filterMap.1 isEntry
      obtain ⟨key, name⟩ := entryOf_isScalar made
      rcases List.mem_pair.1 inside with rfl | rfl
      · exact key
      · exact name
  all_goals
    simp only [isKind] at built
    repeat' split at built
    all_goals
      cases built
      exact .inr nofun

/-- The expression of a row has no surrogates, if those of the rows below have none. -/
theorem scalar_of_row (each : ∀ u ∈ t.pending, ∀ e, convert source u = .ok e → e.Scalar) {e : Expr}
    (made : convert source t = .ok e) : e.Scalar := by
  obtain ⟨below, converted, built⟩ := (convert_eq_ok_iff source t e).1 made
  rcases texts_of_assemble built with passed | plain
  · exact inherit_below each converted e passed
  cases branch : t.kind.isLeaf with
  | true =>
      obtain ⟨_, empty⟩ := eq_nil_of_leaf branch made
      exact scalar_of_children plain (by simp [empty])
  | false =>
      rcases origin_of_assemble branch (align_of_converted branch converted) built with passed | origin
      · exact inherit_below each converted e passed
      · apply scalar_of_children plain
        intro child isChild
        refine (origin child isChild).inherit each (fun _ _ => Scalar.child) branch converted ?_
        intro field _
        by_cases vacant : inRole (t.children.map fun u => (u, part source u)) field = .missing
        · rw [vacant]
          exact scalar_missing
        · exact inherit_role each branch vacant

end Row

/-- The strings and names of a converted source have no surrogates. -/
theorem scalar_of_convert {source : Source} {t : Tree} {e : Expr}
    (made : convert source t = .ok e) : e.Scalar := by
  refine scalar_of_row (fun u isChild e' made' => ?_) made
  have smaller := Tree.size_lt_of_mem_pending isChild
  exact scalar_of_convert made'
termination_by t.size

end Expr

end HiddenLoads
