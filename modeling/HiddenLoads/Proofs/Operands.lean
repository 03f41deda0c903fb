/-
# HiddenLoads.Proofs.Operands -- a `+` is read from the left, all of it or none

Whether a tree of `+` has a text is a question about its operands (`Expr.operands`), and the answer is
all or nothing: `Expr.reduces` says which operands have a text, and `Expr.contribution` is that text.

* If every operand reduces, folding resolves, and the value is what the operands contribute, in order.
* If not, folding stops at the leftmost operand that does not reduce.  Nothing behind it is looked at,
  and what was folded is what the operands before it contribute.

`Folding.Reads` puts the two together.  One operand more in front keeps it (`Reads.cons`), so it holds
of all operands (`foldAll_reads`), and how the tree nests makes no difference (`fold_eq_foldAll`).
-/
import HiddenLoads.Proofs.Folding
import HiddenLoads.Proofs.Literals

namespace HiddenLoads

set_option autoImplicit false

namespace Expr

/-- The operand has a text: it is a string, a number, an array or a name that holds a literal. -/
def reduces (known : Bindings Text) : Expr → Bool
  | .string .. | .number .. | .array .. => true
  | .identifier _ name => known.binds name
  | _ => false

/-- The text of an operand, that of an array being its pieces in one. -/
def contribution (known : Bindings Text) : Expr → Text
  | .string _ value => value
  | .number _ value => value.format.toOption.getD []
  | .array span elements => (pieces known (.array span elements)).flatten
  | .identifier _ name => (known.get? name).getD []
  | _ => []

/-- The operand is there, and it is no integer with more digits than are ever written. -/
def Writable (e : Expr) : Prop :=
  e.isMissing = false ∧ ∀ span value, e = .number span value → ¬ value.Overlong

/-- What folding some operands comes to: the text of all of them, or of those before the leftmost one
that does not reduce. -/
inductive Folding.Reads (known : Bindings Text) : List Expr → Folding → Prop
  | all {operands : List Expr} {fragments : List Text}
      (reduce : ∀ operand ∈ operands, operand.reduces known = true)
      (text : fragments.flatten = operands.flatMap (contribution known)) :
      Reads known operands ⟨fragments, .complete⟩
  | upTo {before after : List Expr} {operand : Expr} {fragments : List Text}
      (reduce : ∀ earlier ∈ before, earlier.reduces known = true)
      (blocks : operand.reduces known = false)
      (text : fragments.flatten = before.flatMap (contribution known)) :
      Reads known (before ++ operand :: after) ⟨fragments, .blocked operand⟩

variable {known : Bindings Text}

/-- An operand that reduces is folded into its text. -/
theorem foldLeaf_of_reduces {e : Expr} (writable : e.Writable) (reduces : e.reduces known = true) :
    ∃ fragments, foldLeaf known e = .ok ⟨fragments, .complete⟩ ∧
      fragments.flatten = e.contribution known := by
  cases e with
  | string span value => exact ⟨[value], rfl, List.append_nil value⟩
  | array span elements => exact ⟨_, rfl, rfl⟩
  | identifier span name =>
      obtain ⟨text, held⟩ := Option.isSome_iff_exists.1 reduces
      refine ⟨[text], ?_, ?_⟩
      · simp [foldLeaf, literal?, held]
      · simp [contribution, held]
  | number span value =>
      obtain ⟨text, written⟩ : ∃ text, value.format = .ok text := by
        cases format : value.format with
        | ok text => exact ⟨text, rfl⟩
        | error failure =>
            obtain ⟨-, overlong⟩ := (Number.format_eq_error_iff value failure).1 format
            exact absurd overlong (writable.2 span value rfl)
      refine ⟨[text], ?_, ?_⟩
      · rw [foldLeaf, written]
        rfl
      · simp [contribution, written, Except.toOption]
  | _ => cases reduces

/-- An operand that does not reduce stops the folding. -/
theorem foldLeaf_of_blocks {e : Expr} (writable : e.Writable) (blocks : e.reduces known = false) :
    foldLeaf known e = .ok ⟨[], .blocked e⟩ := by
  cases e with
  | missing => cases writable.1
  | string | number | array => cases blocks
  | identifier span name =>
      have unbound : known.get? name = none :=
        Option.isNone_iff_eq_none.1 (Option.isSome_eq_false_iff.1 blocks)
      simp [foldLeaf, literal?, unbound]
  | _ => rfl

/-- **One operand more.**  In front of folded operands stands one that reduces. -/
theorem Folding.Reads.cons {e : Expr} {operands : List Expr} {fragments : List Text} {rest : Folding}
    (reads : rest.Reads known operands) (reduces : e.reduces known = true)
    (text : fragments.flatten = e.contribution known) :
    Reads known (e :: operands) ⟨fragments ++ rest.fragments, rest.ending⟩ := by
  cases reads with
  | all reduce same =>
      refine .all (List.forall_mem_cons.2 ⟨reduces, reduce⟩) ?_
      rw [List.flatten_append, List.flatMap_cons, text, same]
  | upTo reduce blocks same =>
      rw [← List.cons_append]
      refine .upTo (List.forall_mem_cons.2 ⟨reduces, reduce⟩) blocks ?_
      rw [List.flatten_append, List.flatMap_cons, text, same]

/-- **All operands.** -/
theorem foldAll_reads {operands : List Expr} (writable : ∀ operand ∈ operands, operand.Writable) :
    ∃ folded, foldAll known operands = .ok folded ∧ folded.Reads known operands := by
  induction operands with
  | nil => exact ⟨⟨[], .complete⟩, rfl, .all (List.forall_mem_nil _) rfl⟩
  | cons e operands ih =>
      obtain ⟨here, more⟩ := List.forall_mem_cons.1 writable
      rw [foldAll]
      cases reduces : e.reduces known with
      | true =>
          obtain ⟨fragments, folds, text⟩ := foldLeaf_of_reduces here reduces
          obtain ⟨rest, goesOn, reads⟩ := ih more
          refine ⟨⟨fragments ++ rest.fragments, rest.ending⟩, ?_, reads.cons reduces text⟩
          rw [folds, goesOn]
          rfl
      | false =>
          refine ⟨⟨[], .blocked e⟩, ?_, ?_⟩
          · rw [foldLeaf_of_blocks here reduces]
            rfl
          · exact Folding.Reads.upTo (List.forall_mem_nil _) reduces rfl

/-- **Folding is all or nothing, and from left to right.**  For every expression the operands of which
are there and can be written, whatever names hold, folding does not fail.  It resolves exactly if every
operand reduces, and the value is then what they contribute, in order.  Otherwise it is blocked at the
leftmost operand that does not reduce, with what the operands before it contribute. -/
theorem fold_reads_operands (known : Bindings Text) {e : Expr}
    (writable : ∀ operand ∈ e.operands, operand.Writable) :
    ∃ folded, fold known e = .ok folded ∧
      (folded.resolved = true ↔ ∀ operand ∈ e.operands, operand.reduces known = true) ∧
      (folded.resolved = true →
        folded.blockedAt? = none ∧ folded.value = e.operands.flatMap (contribution known)) ∧
      (folded.resolved = false → ∃ before operand after,
        e.operands = before ++ operand :: after ∧
        (∀ earlier ∈ before, earlier.reduces known = true) ∧ operand.reduces known = false ∧
        folded.blockedAt? = some operand ∧ folded.value = before.flatMap (contribution known)) := by
  obtain ⟨folded, folds, reads⟩ := foldAll_reads writable
  rw [← fold_eq_foldAll] at folds
  refine ⟨folded, folds, ?_⟩
  generalize e.operands = operands at reads
  cases reads with
  | all reduce text =>
      refine ⟨iff_of_true rfl reduce, fun _ => ⟨rfl, text⟩, ?_⟩
      intro blocked
      cases blocked
  | @upTo before after operand fragments reduce blocks text =>
      refine ⟨iff_of_false Bool.false_ne_true ?_, ?_, ?_⟩
      · intro all
        have reduces := all operand (List.mem_append_right _ List.mem_cons_self)
        exact Bool.false_ne_true (blocks.symm.trans reduces)
      · intro resolved
        cases resolved
      · intro _
        exact ⟨before, operand, after, rfl, reduce, blocks, rfl, text⟩

def callOfF : Expr := .call .unknown (.identifier .unknown "f") []

/-- `("a" + (x + 1)) + ([104, "b"] + (f() + y))`. -/
def blockedSum : Expr :=
  .binary .unknown plus
    (.binary .unknown plus (.string .unknown "a")
      (.binary .unknown plus (.identifier .unknown "x") (.number .unknown (.integer 1))))
    (.binary .unknown plus
      (.array .unknown [.number .unknown (.integer 104), .string .unknown "b"])
      (.binary .unknown plus callOfF (.identifier .unknown "y")))

/-- While `x` holds `c`, the call stands in the way, and `y` behind it is not looked at. -/
theorem blockedSum_reads :
    (∀ operand ∈ blockedSum.operands, operand.Writable) ∧
    ∃ folded before after, fold ⟨[("x", "c")]⟩ blockedSum = .ok folded ∧ folded.resolved = false ∧
      blockedSum.operands = before ++ callOfF :: after ∧ folded.blockedAt? = some callOfF ∧
      folded.value = before.flatMap (contribution ⟨[("x", "c")]⟩) ∧ folded.value = "ac1hb" := by
  have short : ¬ (Number.integer 1).Overlong := by
    intro overlong
    cases (Number.format_eq_error_iff _ .tooManyDigits).2 ⟨rfl, overlong⟩
  have writable : ∀ operand ∈ blockedSum.operands, operand.Writable := by
    intro operand inside
    simp only [blockedSum, callOfF, operands, if_true, List.cons_append, List.nil_append,
      List.mem_cons, List.not_mem_nil, or_false] at inside
    rcases inside with rfl | rfl | rfl | rfl | rfl | rfl
    all_goals refine ⟨rfl, ?_⟩
    all_goals intro span value same
    all_goals cases same
    exact short
  have inside : callOfF ∈ blockedSum.operands := by simp [blockedSum, callOfF, operands]
  obtain ⟨folded, folds, resolves, -, blocks⟩ := fold_reads_operands ⟨[("x", "c")]⟩ writable
  have blocked : folded.resolved = false := by
    apply eq_false_of_ne_true
    intro resolved
    cases resolves.1 resolved callOfF inside
  obtain ⟨before, operand, after, split, -, -, isOperand, value⟩ := blocks blocked
  cases folds
  cases isOperand
  exact ⟨writable, _, before, after, rfl, rfl, split, rfl, value, rfl⟩

end Expr

end HiddenLoads
