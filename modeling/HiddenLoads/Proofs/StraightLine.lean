/-
# HiddenLoads.Proofs.StraightLine -- the literals of a tracer are the store of a program

Declarations and assignments to names, one after the other, are a program without branches, and
its state is a store: the texts that names hold, as far as they are known.  `Store.exec` says what
a statement does to it.  A value is read in the store before the statement, so an assignment may
mention its own name; a value with an unknown operand leaves the name unknown.

A tracer also keeps aliases and modules, and one name can hold a text now, an alias next and a
module after that.  None of it reaches the literals: one observation changes them as one statement
changes the store (`Tracer.literals_of_observe`), and so do any number of them.
-/
import HiddenLoads.Proofs.Folding
import HiddenLoads.Proofs.Observe
import Mathlib.Data.Option.NAry

namespace HiddenLoads

set_option autoImplicit false

/-! ## Programs and stores -/

/-- The values of a straight-line program: strings and names joined by `+`, and what never has a
text, which is a call or an expression of no particular form. -/
inductive Expr.Simple : Expr → Prop
  | sum {e : Expr} (textual : ∀ operand ∈ e.operands, operand.isTextual = true) : Simple e
  | call (span : Span) (callee : Expr) (arguments : List Expr) : Simple (.call span callee arguments)
  | other (span : Span) (kind : Kind) (nested : List Expr) : Simple (.other span kind nested)

inductive Statement where
  /-- The name holds nothing that is known. -/
  | spoil (name : Text)
  /-- The name holds the value. -/
  | set (name : Text) (value : Expr)
  /-- The name holds what it held, and the value behind it. -/
  | append (name : Text) (value : Expr)

/-- How statements are written: `let x`, `let x = value`, `x = value`, `x += value`, and `x` with
any other operator. -/
inductive Statement.Writes : Expr → Statement → Prop
  | declare (span nameSpan : Span) (name : Text) :
      Writes (.declaration span (.identifier nameSpan name)) (.spoil name)
  | define {value : Expr} (span nameSpan : Span) (name : Text) (simple : value.Simple) :
      Writes (.definition span (.identifier nameSpan name) value) (.set name value)
  | assign {value : Expr} (span nameSpan : Span) (name : Text) (simple : value.Simple) :
      Writes (.assignment span "=" (.identifier nameSpan name) value) (.set name value)
  | append {value : Expr} (span nameSpan : Span) (name : Text) (simple : value.Simple) :
      Writes (.assignment span "+=" (.identifier nameSpan name) value) (.append name value)
  | update {operator : Text} (span nameSpan : Span) (name : Text) (value : Expr)
      (notAssign : operator ≠ ("=" : String)) (notAppend : operator ≠ ("+=" : String)) :
      Writes (.assignment span operator (.identifier nameSpan name) value) (.spoil name)

abbrev Store := Text → Option Text

namespace Store

def read (σ : Store) : Expr → Option Text
  | .string _ text => some text
  | .identifier _ name => σ name
  | _ => none

/-- The text of a value: those of its operands in order, if each of them has one. -/
def value (σ : Store) (e : Expr) : Option Text := (e.operands.mapM σ.read).map List.flatten

def exec (σ : Store) : Statement → Store
  | .spoil name => Function.update σ name none
  | .set name e => Function.update σ name (σ.value e)
  | .append name e => Function.update σ name (Option.map₂ (· ++ ·) (σ name) (σ.value e))

/-- The literals of a tracer are read as a store. -/
theorem read_get? (known : Bindings Text) : read known.get? = Expr.literal? known := by
  funext e
  cases e <;> rfl

/-- The tracer reads a simple value as the store does, and never fails at it. -/
theorem text?_of_simple (known : Bindings Text) {e : Expr} (simple : e.Simple) :
    Expr.text? known e = .ok (value known.get? e) := by
  cases simple with
  | sum textual => rw [Expr.text?_of_textual known textual, value, read_get?]
  | call | other => rfl

end Store

/-! ## One observation -/

namespace Tracer

def Binding.text? : Binding → Option Text
  | .literal text => some text
  | _ => none

theorem literals_forget (t : Tracer) (name : Text) :
    (t.forget name).literals.get? = Function.update t.literals.get? name none := by
  funext other
  rw [forget, Bindings.get?_forget, Function.update_apply]

theorem literals_assign (t : Tracer) (name : Text) (binding : Binding) :
    (t.assign name binding).literals.get? =
      Function.update t.literals.get? name binding.text? := by
  cases binding with
  | literal text =>
      funext other
      show ((t.literals.forget name).bind name text).get? other = _
      rw [Bindings.get?_bind, Bindings.get?_forget, Function.update_apply]
      split <;> rfl
  | _ => exact literals_forget t name

/-- A dotted name gives an alias or a module, and never a literal. -/
theorem text?_of_bindingOfName {t : Tracer} {dotted : Text} {binding : Binding}
    (done : t.bindingOfName dotted = .ok binding) : binding.text? = none := by
  obtain ⟨target?, _, done⟩ := Outcome.bind_eq_ok_iff.1 done
  cases target? with
  | some target =>
      cases done
      rfl
  | none =>
      simp only at done
      split at done
      · cases done
        rfl
      · cases done
        split <;> rfl

/-- Whatever else a value may give, the literal is its text. -/
theorem text?_of_bindingOf {t : Tracer} {name : Text} {value : Expr} {text : Option Text}
    {binding : Binding} (reads : Expr.text? t.literals value = .ok text)
    (done : t.bindingOf name value = .ok binding) : binding.text? = text := by
  rw [bindingOf, reads, Outcome.ok_bind] at done
  cases text with
  | some text =>
      cases done
      rfl
  | none =>
      -- Without a text a value may give a module or an alias, but no literal.
      obtain ⟨module?, _, done⟩ := Outcome.bind_eq_ok_iff.1 done
      cases module? with
      | some module =>
          cases done
          rfl
      | none =>
          obtain ⟨dotted?, _, done⟩ := Outcome.bind_eq_ok_iff.1 done
          cases dotted? with
          | none =>
              cases done
              rfl
          | some dotted =>
              simp only at done
              split at done
              · cases done
                rfl
              · exact text?_of_bindingOfName done

/-- An assignment to a name changes the literals as the store changes. -/
theorem literals_of_bind {t t' : Tracer} {span : Span} {name : Text} {value : Expr}
    (simple : value.Simple) (done : t.bind (.identifier span name) value = .ok t') :
    t'.literals.get? = Store.exec t.literals.get? (.set name value) := by
  obtain ⟨binding, binds, done⟩ := Outcome.bind_eq_ok_iff.1 done
  cases done
  rw [literals_assign, text?_of_bindingOf (Store.text?_of_simple t.literals simple) binds]
  rfl

/-- So does appending to a name. -/
theorem literals_of_append {t t' : Tracer} {name : Text} {value : Expr} (simple : value.Simple)
    (done : t.append name value = .ok t') :
    t'.literals.get? = Store.exec t.literals.get? (.append name value) := by
  rw [append, Store.text?_of_simple t.literals simple, Outcome.ok_bind] at done
  rw [Store.exec]
  cases held : t.literals.get? name with
  | none =>
      rw [held] at done
      cases done
      exact literals_forget t name
  | some current =>
      cases addition : Store.value t.literals.get? value with
      | none =>
          rw [held, addition] at done
          cases done
          exact literals_forget t name
      | some text =>
          rw [held, addition] at done
          cases done
          funext other
          rw [Bindings.get?_bind, Function.update_apply]
          rfl

/-- **One step.**  Observing a statement changes the literals as the statement changes the store,
whatever aliases and modules the tracer holds. -/
theorem literals_of_observe {t t' : Tracer} {e : Expr} {s : Statement} (writes : Statement.Writes e s)
    (done : t.observe e = .ok t') : t'.literals.get? = Store.exec t.literals.get? s := by
  cases writes with
  | declare span nameSpan name =>
      cases done
      exact literals_forget t name
  | define span nameSpan name simple =>
      rw [observe] at done
      exact literals_of_bind simple done
  | assign span nameSpan name simple =>
      rw [observe, if_pos rfl] at done
      exact literals_of_bind simple done
  | append span nameSpan name simple =>
      rw [observe, if_neg (by decide)] at done
      simp only [if_true] at done
      exact literals_of_append simple done
  | update span nameSpan name value notAssign notAppend =>
      rw [observe, if_neg notAssign] at done
      simp only [notAppend, if_false] at done
      cases done
      exact literals_forget t name

/-! ## Any number of observations -/

def observeAll (t : Tracer) (es : List Expr) : Except Failure Tracer := es.foldlM observe t

theorem literals_of_observeAll {t t' : Tracer} {es : List Expr} {program : List Statement}
    (writes : List.Forall₂ Statement.Writes es program) (done : t.observeAll es = .ok t') :
    t'.literals.get? = program.foldl Store.exec t.literals.get? := by
  induction writes generalizing t with
  | nil =>
      cases done
      rfl
  | cons first rest ih =>
      rw [observeAll, List.foldlM_cons] at done
      obtain ⟨t₁, observed, done⟩ := Outcome.bind_eq_ok_iff.1 done
      rw [List.foldl_cons, ← literals_of_observe first observed]
      exact ih done

/-- **The literals are the store of the program observed so far.**  After any straight-line program
that could be observed, from any tracer, the literals are the store that running the program leaves
behind; so a tracer with the same literals, but other aliases and modules, ends with the same. -/
theorem literals_eq_store {t t' : Tracer} {es : List Expr} {program : List Statement}
    (writes : List.Forall₂ Statement.Writes es program) (done : t.observeAll es = .ok t') :
    t'.literals.get? = program.foldl Store.exec t.literals.get? ∧
    ∀ other other' : Tracer, other.literals.get? = t.literals.get? →
      other.observeAll es = .ok other' → other'.literals.get? = t'.literals.get? := by
  have here := literals_of_observeAll writes done
  refine ⟨here, ?_⟩
  intro other other' same done'
  have there := literals_of_observeAll writes done'
  rw [there, here, same]

def named (name : Text) : Expr := .identifier .unknown name

def quoted (text : Text) : Expr := .string .unknown text

/-- `let x = "ht"; x = x + "tp"; let y = x + ("/" + x); x = require; x += y;
let x = require("path"); y += "s"; let z; x -= y`. -/
def rebinding : List Expr := [
    .definition .unknown (named "x") (quoted "ht"),
    .assignment .unknown "=" (named "x") (.binary .unknown Expr.plus (named "x") (quoted "tp")),
    .definition .unknown (named "y") (.binary .unknown Expr.plus (named "x")
      (.binary .unknown Expr.plus (quoted "/") (named "x"))),
    .assignment .unknown "=" (named "x") (named "require"),
    .assignment .unknown "+=" (named "x") (named "y"),
    .definition .unknown (named "x") (.call .unknown (named "require") [quoted "path"]),
    .assignment .unknown "+=" (named "y") (quoted "s"),
    .declaration .unknown (named "z"),
    .assignment .unknown "-=" (named "x") (named "y")]

/-- A text, an alias and a module one after the other leave no text behind, and the text that was
read in between stays. -/
theorem rebinding_store :
    ∃ t', default.observeAll rebinding = .ok t' ∧
      t'.literals.get? "y" = some "http/https" ∧ t'.literals.get? "x" = none := by
  obtain ⟨t', done⟩ : ∃ t', default.observeAll rebinding = .ok t' := ⟨_, rfl⟩
  have store := literals_eq_store
    (.cons (.define _ _ _ (.sum (by decide))) <| .cons (.assign _ _ _ (.sum (by decide))) <|
      .cons (.define _ _ _ (.sum (by decide))) <| .cons (.assign _ _ _ (.sum (by decide))) <|
      .cons (.append _ _ _ (.sum (by decide))) <| .cons (.define _ _ _ (.call _ _ _)) <|
      .cons (.append _ _ _ (.sum (by decide))) <| .cons (.declare _ _ _) <|
      .cons (.update _ _ _ _ (by decide) (by decide)) .nil) done
  exact ⟨t', done, congrFun store.1 "y", congrFun store.1 "x"⟩

end Tracer

end HiddenLoads
