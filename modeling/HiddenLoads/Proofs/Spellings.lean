/-
# HiddenLoads.Proofs.Spellings -- who reads a text however it is written

A text need not be written as one string.  `Expr.Spells` lists the ways in which an expression
stands for a text without being run: the string itself, a name that holds it, and a `+` that folds
into it.  As the argument of a load, an array whose pieces join to it is one more
(`Probe.Require.Specifies`).

A load reads all of them alike: what it records depends on the text, and not on how the text is
written.  `eval` and the tracer do not.  They ask for a string or for a name that holds one
(`Expr.literal?`), so a `+` is no text to them (`Expr.literal?_of_spells`).  A call of
`eval("req" + "uire")` is therefore no load and leaves no warning, and the name in
`const p = require("pa" + "th")` stands for no module.
-/
import HiddenLoads.Proofs.Visit

namespace HiddenLoads

set_option autoImplicit false

namespace Expr

def isSum : Expr → Bool
  | .binary _ operator _ _ => operator = plus
  | _ => false

/-- The ways in which an expression stands for a text. -/
inductive Spells (known : Bindings Text) : Expr → Text → Prop
  | string (span : Span) (text : Text) : Spells known (.string span text) text
  | name {name text : Text} (span : Span) (holds : known.get? name = some text) :
      Spells known (.identifier span name) text
  | sum {left right : Expr} {folded : Folding} {text : Text} (span : Span)
      (folds : fold known (.binary span plus left right) = .ok folded)
      (resolved : folded.value? = some text) : Spells known (.binary span plus left right) text

variable {known : Bindings Text} {e : Expr} {text : Text}

/-- Whatever stands for a text is read by `text?`. -/
theorem text?_of_spells (spells : Spells known e text) : text? known e = .ok (some text) := by
  cases spells with
  | string span => rfl
  | name span holds => exact congrArg Except.ok holds
  | sum span folds resolved =>
      rw [text?, if_pos rfl, folds, Outcome.ok_bind, resolved]

/-- Whatever stands for a text is a literal, unless it is a `+`. -/
theorem literal?_of_spells (spells : Spells known e text) :
    literal? known e = if e.isSum then none else some text := by
  cases spells with
  | string span => rfl
  | name span holds => exact holds
  | sum span folds resolved => rfl

end Expr

/-! ## What a load makes of its argument -/

namespace Probe.Require

/-- The arguments that name a specifier: those that stand for it, and the arrays whose pieces join
to it once the blanks around them are dropped. -/
inductive Specifies (known : Bindings Text) : Expr → Text → Prop
  | spelled {argument : Expr} {specifier : Text} (spells : argument.Spells known specifier) :
      Specifies known argument specifier
  | joined {specifier : Text} (span : Span) (elements : List Expr)
      (joins : Text.strip (Expr.pieces known (.array span elements)).flatten = specifier) :
      Specifies known (.array span elements) specifier

/-- The records of a load of one specifier: a dependency, or a warning if it is blank, with the
mark of `eval` set before if the load goes through `eval`. -/
def settled (a : Analysis) (name : Option Text) (location : Span) (specifier : Text) : Analysis :=
  let viaEval := a.viaEval || name = some evaluator
  if specifier.isBlank then
    { a with viaEval, warnings := a.warnings ++ [⟨Warning.unsafeImport, some location, none⟩] }
  else
    { a with viaEval, dependencies := a.dependencies ++
        [⟨Analysis.withoutSlash specifier, some location, false, viaEval⟩] }

/-- An argument that names a specifier is recorded as that specifier. -/
theorem resolveArgument_of_specifies {a : Analysis} {argument : Expr} {specifier : Text}
    (specifies : Specifies a.tracer.literals argument specifier) (location : Span) :
    resolveArgument location argument a = .ok (addSpecifier a specifier location, none) := by
  cases specifies with
  | joined span elements joins => rw [resolveArgument, ← joins, addSpecifier_strip]
  | spelled spells =>
      have reads := Expr.text?_of_spells spells
      cases spells with
      | string span => rfl
      | name span holds => rw [resolveArgument, holds]; rfl
      | sum span => rw [resolveArgument, reads]; rfl

/-- The mark of `eval` is set before the record is made. -/
theorem addSpecifier_flagged (a : Analysis) (name : Option Text) (location : Span)
    (specifier : Text) :
    addSpecifier (if name = some evaluator then { a with viaEval := true } else a) specifier
      location = settled a name location specifier := by
  by_cases through : name = some evaluator <;> cases blank : specifier.isBlank <;>
    simp [addSpecifier, settled, Analysis.addUnsafe, Analysis.addWarning, Analysis.addDependency,
      through, blank]

theorem resolve_of_specifies {a : Analysis} {argument : Expr} {specifier : Text}
    (specifies : Specifies a.tracer.literals argument specifier) (location : Span) (callee : Expr)
    (more : List Expr) (name : Option Text) :
    resolve (.call location callee (argument :: more)) a name =
      .ok (settled a name location specifier, none) := by
  rw [resolve_cons, ← addSpecifier_flagged]
  apply resolveArgument_of_specifies
  rw [tracer_flagged]
  exact specifies

/-- **What a load records depends on its specifier, not on how that is written.**  In every state
of a pass, an argument that names a specifier has the same outcome as the string itself: the same
records, the same mark of `eval` and the same signal.  It is one record, and no signal. -/
theorem resolve_eq_of_specifies {a : Analysis} {argument : Expr} {specifier : Text}
    (specifies : Specifies a.tracer.literals argument specifier) (location span : Span)
    (callee : Expr) (more : List Expr) (name : Option Text) :
    resolve (.call location callee (argument :: more)) a name =
      resolve (.call location callee (.string span specifier :: more)) a name ∧
    resolve (.call location callee (argument :: more)) a name =
      .ok (settled a name location specifier, none) := by
  have written := resolve_of_specifies specifies location callee more name
  have string : Specifies a.tracer.literals (.string span specifier) specifier :=
    .spelled (.string span specifier)
  have plain := resolve_of_specifies string location callee more name
  exact ⟨written.trans plain.symm, written⟩

/-- `("ht" + x) + ([112] + 2)`. -/
def splitHttp2 : Expr :=
  .binary .unknown Expr.plus
    (.binary .unknown Expr.plus (.string .unknown "ht") (.identifier .unknown "x"))
    (.binary .unknown Expr.plus (.array .unknown [.number .unknown (.integer 112)])
      (.number .unknown (.integer 2)))

/-- While `x` holds `t`, the text is `http2`, and so is what a load through `eval` records. -/
theorem splitHttp2_recorded :
    let t := { Tracer.default with literals := Bindings.empty.bind "x" "t" }
    let a := { Analysis.start Analysis.inMemory false with tracer := t }
    Specifies a.tracer.literals splitHttp2 "http2" ∧
    ∃ a', resolve (.call .unknown (.identifier .unknown "f") [splitHttp2]) a (some "eval") =
        .ok (a', none) ∧
      resolve (.call .unknown (.identifier .unknown "f") [.string .unknown "http2"]) a
        (some "eval") = .ok (a', none) ∧
      a'.dependencies = [⟨"http2", some .unknown, false, true⟩] ∧ a'.warnings = [] := by
  intro t a
  have folds : Expr.fold a.tracer.literals splitHttp2 =
      .ok ⟨["ht", "t", "p", "2"], .complete⟩ := rfl
  have specifies : Specifies a.tracer.literals splitHttp2 "http2" := .spelled (.sum _ folds rfl)
  obtain ⟨same, records⟩ := resolve_eq_of_specifies specifies .unknown .unknown
    (.identifier .unknown "f") [] (some "eval")
  exact ⟨specifies, _, records, same.symm.trans records, rfl, rfl⟩

/-! ## What `eval` and the tracer make of theirs -/

/-- While no alias hides `eval`, the name is reported as itself, whether it is traced or not. -/
theorem exists_lookup_evaluator {t : Tracer} (plain : t.aliases.get? evaluator = none)
    (traced : ∀ target, t.traced.get? evaluator = some target → target.name = evaluator) :
    ∃ target?, t.lookup evaluator = .ok target? ∧ ∀ target ∈ target?, target.name = evaluator := by
  cases tracing : t.traced.get? evaluator with
  | some target =>
      refine ⟨some target, Tracer.lookup_of_traced (by decide) plain tracing, ?_⟩
      rintro _ ⟨⟩
      exact traced target tracing
  | none =>
      refine ⟨none, Tracer.lookup_of_untraced (by decide) plain tracing rfl, ?_⟩
      rintro _ ⟨⟩

/-- A call of what `eval` gives for the name of the loader is a load, unless that name is a `+`. -/
theorem isEvalLoad_of_spells {t : Tracer} {e : Expr} (plain : t.aliases.get? evaluator = none)
    (traced : ∀ target, t.traced.get? evaluator = some target → target.name = evaluator)
    (spells : e.Spells t.literals Tracer.loader) (outer inner span : Span)
    (arguments : List Expr) :
    isEvalLoad (.call outer (.call inner (.identifier span evaluator) [e]) arguments) t =
      .ok ⟨!e.isSum, some evaluator⟩ := by
  obtain ⟨target?, looks, reported⟩ := exists_lookup_evaluator plain traced
  have reads := Expr.literal?_of_spells spells
  simp only [isEvalLoad, Expr.callee?, Expr.name?, Outcome.ok_bind, Tracer.lookup?, looks,
    if_true, Expr.literals, List.filterMap_cons, reads, List.filterMap_nil]
  cases target? with
  | none => cases e.isSum <;> rfl
  | some target =>
      simp only [reported target rfl]
      cases e.isSum <;> rfl

end Probe.Require

namespace Tracer

/-- A load gives the module that its argument stands for, unless the argument is a `+`. -/
theorem requiredModule?_of_spells {t : Tracer} {e : Expr} {specifier : Text}
    (knows : t.KnowsLoader) (spells : e.Spells t.literals specifier) (nonempty : specifier ≠ [])
    (span calleeSpan : Span) (more : List Expr) :
    t.requiredModule? (.call span (.identifier calleeSpan loader) (e :: more)) =
      .ok (if e.isSum then none else some (Specifier.bare specifier)) := by
  have reads := Expr.literal?_of_spells spells
  simp only [requiredModule?, Expr.callee?, Expr.name?, Outcome.ok_bind, lookup?, knows.lookup,
    if_true, reads]
  cases e.isSum with
  | true => rfl
  | false => simp [nonempty]

/-- The module that an assignment gives to a name. -/
theorem module?_assign (t : Tracer) (name : Text) (binding : Binding) :
    (t.assign name binding).module? name =
      match binding with
      | .module module => some module
      | _ => none := by
  cases binding <;> simp [assign, forget, module?, Bindings.get?_bind, Bindings.get?_forget]

/-- A name defined by a load stands for the module, unless the argument of the load is a `+`. -/
theorem observe_load {t : Tracer} {e : Expr} {specifier : Text}
    (knows : t.KnowsLoader) (spells : e.Spells t.literals specifier) (nonempty : specifier ≠ [])
    (span nameSpan loadSpan calleeSpan : Span) (name : Text) :
    ∃ t', t.observe (.definition span (.identifier nameSpan name)
        (.call loadSpan (.identifier calleeSpan loader) [e])) = .ok t' ∧
      t'.module? name = if e.isSum then none else some (Specifier.bare specifier) := by
  have loads := requiredModule?_of_spells knows spells nonempty loadSpan calleeSpan []
  have noText : Expr.text? t.literals (.call loadSpan (.identifier calleeSpan loader) [e]) =
      .ok none := rfl
  rw [observe, bind, bindingOf, noText, Outcome.ok_bind, loads, Outcome.ok_bind]
  cases e.isSum with
  | true => exact ⟨_, rfl, module?_assign t name .nothing⟩
  | false => exact ⟨_, rfl, module?_assign t name (.module _)⟩

end Tracer

namespace Expr

open Probe.Require

/-- **`eval` and the tracer read a text exactly if it is not written as a `+`.**  While `eval` has
its own meaning, a call of `eval` with the name of the loader is matched, and while `require` has
its own, a name defined by a load stands for the loaded module; but not if the text is a `+`: then
the call is not matched, and the name stands for no module. -/
theorem read_iff_not_sum {t : Tracer} {e : Expr} {text : Text}
    (spells : e.Spells t.literals text) (nonempty : text ≠ []) :
    (text = Tracer.loader → t.aliases.get? evaluator = none →
      (∀ target, t.traced.get? evaluator = some target → target.name = evaluator) →
      ∀ outer inner span arguments,
        isEvalLoad (.call outer (.call inner (.identifier span evaluator) [e]) arguments) t =
          .ok ⟨!e.isSum, some evaluator⟩) ∧
    (t.KnowsLoader → ∀ span nameSpan loadSpan calleeSpan name,
      ∃ t', t.observe (.definition span (.identifier nameSpan name)
          (.call loadSpan (.identifier calleeSpan Tracer.loader) [e])) = .ok t' ∧
        t'.module? name = if e.isSum then none else some (Specifier.bare text)) := by
  constructor
  · rintro rfl plain traced outer inner span arguments
    exact isEvalLoad_of_spells plain traced spells outer inner span arguments
  · intro knows span nameSpan loadSpan calleeSpan name
    exact Tracer.observe_load knows spells nonempty span nameSpan loadSpan calleeSpan name

/-- `eval(argument)("fs")`. -/
def callOfEval (argument : Expr) : Expr :=
  .call .unknown (.call .unknown (.identifier .unknown "eval") [argument]) [.string .unknown "fs"]

/-- `const p = require(argument)`. -/
def moduleOf (argument : Expr) : Expr :=
  .definition .unknown (.identifier .unknown "p")
    (.call .unknown (.identifier .unknown "require") [argument])

/-- While `x` holds `require`, `eval(x)("fs")` is matched, and `p` in `const p = require(x)`
stands for the module of that name. -/
theorem heldLoader_read :
    let t := { Tracer.default with literals := Bindings.empty.bind "x" "require" }
    isEvalLoad (callOfEval (.identifier .unknown "x")) t = .ok ⟨true, some "eval"⟩ ∧
    ∃ t', t.observe (moduleOf (.identifier .unknown "x")) = .ok t' ∧
      t'.module? "p" = some "require" := by
  intro t
  have knows : t.KnowsLoader := ⟨rfl, rfl⟩
  have traced : ∀ target, t.traced.get? evaluator = some target → target.name = evaluator := by
    rintro _ ⟨⟩
    rfl
  have spells : (Expr.identifier .unknown "x").Spells t.literals Tracer.loader := .name _ rfl
  obtain ⟨matched, named⟩ := read_iff_not_sum spells (by decide)
  exact ⟨matched rfl rfl traced _ _ _ _, named knows _ _ _ _ _⟩

/-- `first + second`. -/
def splitText (first second : Text) : Expr :=
  .binary .unknown plus (.string .unknown first) (.string .unknown second)

/-- `eval("req" + "uire")("fs")` is not matched and leaves no record at all, and `p` in
`const p = require("pa" + "th")` stands for no module. -/
theorem splitText_missed :
    (splitText "req" "uire").Spells Tracer.default.literals "require" ∧
    isEvalLoad (callOfEval (splitText "req" "uire")) Tracer.default =
      .ok ⟨false, some "eval"⟩ ∧
    (∃ r, Pass.walk Pass.defaultProbes (callOfEval (splitText "req" "uire"))
        (.start Analysis.inMemory false) = .ok r ∧ r.dependencies = [] ∧ r.warnings = []) ∧
    (splitText "pa" "th").Spells Tracer.default.literals "path" ∧
    ∃ t', Tracer.default.observe (moduleOf (splitText "pa" "th")) = .ok t' ∧
      t'.module? "p" = none :=
  ⟨.sum _ rfl rfl, rfl, ⟨_, rfl, rfl, rfl⟩, .sum _ rfl rfl, _, rfl, rfl⟩

end Expr

end HiddenLoads
