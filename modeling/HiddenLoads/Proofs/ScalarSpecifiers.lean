/-
# HiddenLoads.Proofs.ScalarSpecifiers -- which specifiers can be written

A report is written in UTF-8, which carries no surrogates.  Folding, decoding, joining and binding
names make none out of expressions that bring none in.  The step is `Pass.visit_scalar`: what the
names hold and what is recorded stays free of surrogates at every visit.

Only one way leads to a surrogate: a number among the elements of an array selects it.  A load of
such an array records it (`Pass.surrogate_of_visit`), for no trimming drops a surrogate.  So the
specifiers of every pass can be written exactly if no number in an array selects a surrogate
(`Pass.specifiers_isScalar_iff`).
-/
import HiddenLoads.Proofs.Holdings
import HiddenLoads.Proofs.Rules
import HiddenLoads.Proofs.ScalarExprs
import HiddenLoads.Proofs.Spellings
import HiddenLoads.Proofs.StraightLine

namespace HiddenLoads

set_option autoImplicit false

open Text Traversal

/-! ## What names hold -/

namespace Tracer

variable {t t' : Tracer}

theorem scalar_bind {known : Bindings Text} (held : known.Scalar) (name : Text) {text : Text}
    (scalar : IsScalar text) : (known.bind name text).Scalar := by
  intro other text' holds
  rw [Bindings.get?_bind] at holds
  split at holds
  · cases holds
    exact scalar
  · exact held other text' holds

theorem scalar_assign (held : t.literals.Scalar) (name : Text) (binding : Binding)
    (scalar : ∀ text, binding.text? = some text → IsScalar text) :
    (t.assign name binding).literals.Scalar := by
  intro other text holds
  rw [literals_assign, Function.update_apply] at holds
  split at holds
  · exact scalar text holds
  · exact held other text holds

theorem scalar_forget (held : t.literals.Scalar) (name : Text) :
    (t.forget name).literals.Scalar :=
  scalar_assign held name .nothing nofun

theorem scalar_assignEntries (held : t.literals.Scalar) (resolved : List (Text × Option Traced)) :
    (t.assignEntries resolved).literals.Scalar := by
  induction resolved generalizing t with
  | nil => exact held
  | cons entry resolved ih =>
      refine ih (scalar_assign held entry.1 _ fun text isText => ?_)
      split at isText <;> cases isText

theorem scalar_of_bind (held : t.literals.Scalar) {target value : Expr} (clean : value.Clean)
    (done : t.bind target value = .ok t') : t'.literals.Scalar := by
  cases target with
  | pattern span entries =>
      obtain ⟨resolved, _, done⟩ := Outcome.bind_eq_ok_iff.1 done
      cases done
      exact scalar_assignEntries held resolved
  | identifier span name =>
      obtain ⟨binding, gives, done⟩ := Outcome.bind_eq_ok_iff.1 done
      cases done
      obtain ⟨text?, reads, _⟩ := Outcome.bind_eq_ok_iff.1 gives
      refine scalar_assign held name binding fun text isText => ?_
      rw [text?_of_bindingOf reads gives] at isText
      subst isText
      exact Expr.text?_isScalar held clean reads
  | _ =>
      cases done
      exact held

theorem scalar_of_append (held : t.literals.Scalar) {name : Text} {value : Expr}
    (clean : value.Clean) (done : t.append name value = .ok t') : t'.literals.Scalar := by
  obtain ⟨addition?, reads, done⟩ := Outcome.bind_eq_ok_iff.1 done
  split at done
  case h_1 current addition holds =>
      cases done
      exact scalar_bind held name
        (isScalar_append.2 ⟨held name current holds, Expr.text?_isScalar held clean reads⟩)
  case h_2 =>
      cases done
      exact scalar_forget held name

/-- Observing an expression brings no surrogate in. -/
theorem scalar_of_observe (held : t.literals.Scalar) {e : Expr} (clean : e.Clean)
    (done : t.observe e = .ok t') : t'.literals.Scalar := by
  rw [observe.eq_def] at done
  split at done
  case h_1 => exact scalar_of_bind held (clean.child (by simp [Expr.children])) done
  case h_2 =>
      cases done
      exact scalar_forget held _
  case h_3 span operator target value =>
      have cleanValue : value.Clean := clean.child (by simp [Expr.children])
      split at done
      · exact scalar_of_bind held cleanValue done
      · split at done
        · split at done
          · exact scalar_of_append held cleanValue done
          · cases done
            exact scalar_forget held _
        · cases done
          exact held
  case h_4 =>
      cases done
      exact held

end Tracer

/-! ## What a walk recovers -/

namespace Recovery

variable {t : Tracer} {e : Expr}

/-- The values of strings have no surrogates. -/
theorem strings?_isScalar {arguments : List Expr} (clean : ∀ e ∈ arguments, e.Clean)
    {parts : List Text} (strings : strings? arguments = some parts) :
    ∀ part ∈ parts, IsScalar part := by
  induction arguments generalizing parts with
  | nil =>
      cases strings
      nofun
  | cons argument arguments ih =>
      obtain ⟨first, clean⟩ := List.forall_mem_cons.1 clean
      rw [strings?, List.mapM_cons] at strings
      obtain ⟨value, isString, strings⟩ := Option.bind_eq_some_iff.1 strings
      obtain ⟨values, others, strings⟩ := Option.bind_eq_some_iff.1 strings
      cases strings
      refine List.forall_mem_cons.2 ⟨?_, ih clean others⟩
      cases argument with
      | string span text =>
          cases isString
          exact first.string
      | _ => cases isString

/-- Whatever rule a call gives a text by, the text has no surrogates. -/
theorem gives_isScalar (clean : e.Clean) {rule : Rule} {text : Text}
    (gives : Gives t e rule text) : IsScalar text := by
  have arguments {meaning : Text} {first : Expr} {more : List Expr}
      (calls : Calls t e meaning first more) : ∀ argument ∈ first :: more, argument.Clean := by
    obtain ⟨span, callee, rfl, _⟩ := calls
    exact fun argument inside => clean.child (List.mem_cons_of_mem _ inside)
  cases gives with
  | hexadecimal isCall encoded decodes => exact Hex.decode_isScalar decodes
  | base64 calls reads decodes => exact Base64.decode?_isScalar decodes
  | buffer calls =>
      have unnamed : (Bindings.empty : Bindings Text).Scalar := nofun
      have pieces := Expr.pieces_isScalar unnamed (arguments calls _ List.mem_cons_self)
      exact (isScalar_flatten pieces).of_subset (strip_subset _)
  | resolve calls => exact (arguments calls _ List.mem_cons_self).string
  | join calls strings => exact Join.path_isScalar (strings?_isScalar (arguments calls) strings)

/-- What a walk recovers has no surrogates. -/
theorem specifiers_isScalar (clean : e.Clean) {r : Recovery} (done : walk t e = .ok r) :
    ∀ s ∈ r.specifiers, IsScalar s := by
  intro s recovered
  obtain ⟨_, inner, inside, rule, gives⟩ := (mem_specifiers_iff done s).1 recovered
  exact gives_isScalar (clean.of_mem (reached_subset e inside)) gives

end Recovery

/-! ## One visit -/

/-- Neither what names hold nor what is recorded has a surrogate. -/
structure Analysis.Scalar (a : Analysis) : Prop where
  literals : a.tracer.literals.Scalar
  specifiers : ∀ d ∈ a.dependencies, IsScalar d.specifier

namespace Analysis

variable {a : Analysis}

theorem withoutSlash_subset (specifier : Text) : withoutSlash specifier ⊆ specifier := by
  rcases withoutSlash_cases specifier with ⟨before, _, rfl, dropped⟩ | ⟨_, kept⟩
  · rw [dropped]
    exact List.subset_append_left _ _
  · rw [kept]
    exact List.Subset.refl specifier

theorem Scalar.addDependency (scalar : a.Scalar) {specifier : Text} (plain : IsScalar specifier)
    (location : Option Span) (dynamic : Bool) :
    (a.addDependency specifier location dynamic).Scalar := by
  rw [Analysis.addDependency]
  split
  · exact scalar
  · refine ⟨scalar.literals, List.forall_mem_append.2 ⟨scalar.specifiers, ?_⟩⟩
    simpa using plain.of_subset (withoutSlash_subset specifier)

theorem Scalar.addUnsafe (scalar : a.Scalar) (site : Span) : (a.addUnsafe site).Scalar :=
  ⟨scalar.literals, scalar.specifiers⟩

end Analysis

namespace Probe

open Analysis

theorem Require.addSpecifier?_scalar {a : Analysis} (scalar : a.Scalar) (specifier : Option Text)
    (plain : ∀ text, specifier = some text → IsScalar text) (site : Span) :
    (addSpecifier? a specifier site).Scalar := by
  cases specifier with
  | none => exact scalar.addUnsafe site
  | some text =>
      rw [addSpecifier?, addSpecifier]
      split
      · exact scalar.addUnsafe site
      · exact scalar.addDependency (plain text rfl) _ _

theorem Require.addRecovered_scalar {a : Analysis} (scalar : a.Scalar) {r : Recovery}
    (plain : ∀ s ∈ r.specifiers, IsScalar s) (site : Span) : (addRecovered a r site).Scalar := by
  have added : ∀ (specifiers : List Text) (a : Analysis), a.Scalar →
      (∀ s ∈ specifiers, IsScalar s) →
      (specifiers.foldl (fun a s => a.addDependency s (some site) true) a).Scalar := by
    intro specifiers
    induction specifiers with
    | nil => exact fun a scalar _ => scalar
    | cons s specifiers ih =>
        intro a scalar plain
        obtain ⟨first, plain⟩ := List.forall_mem_cons.1 plain
        exact ih _ (scalar.addDependency first _ _) plain
  rw [addRecovered]
  split
  · exact (added r.specifiers a scalar plain).addUnsafe site
  · exact added r.specifiers a scalar plain

/-- The records of a load have no surrogates. -/
theorem Require.resolveArgument_scalar {a a' : Analysis} (scalar : a.Scalar) {site : Span}
    {argument : Expr} (clean : argument.Clean) {signal : Option Signal}
    (resolved : resolveArgument site argument a = .ok (a', signal)) : a'.Scalar := by
  have held := scalar.literals
  cases argument with
  | identifier span name =>
      cases resolved
      exact addSpecifier?_scalar scalar _ (held name) site
  | string span value =>
      cases resolved
      refine addSpecifier?_scalar scalar (some value) (fun text isText => ?_) site
      cases isText
      exact clean.string
  | array span elements =>
      cases resolved
      have joined := (isScalar_flatten (Expr.pieces_isScalar held clean)).of_subset (strip_subset _)
      split
      · exact scalar.addUnsafe site
      · exact scalar.addDependency joined _ _
  | binary span operator left right =>
      obtain ⟨text?, reads, resolved⟩ := Outcome.bind_eq_ok_iff.1 resolved
      cases resolved
      refine addSpecifier?_scalar scalar text? (fun text isText => ?_) site
      exact Expr.text?_isScalar held clean (isText ▸ reads)
  | call span callee arguments =>
      obtain ⟨recovered, walked, resolved⟩ := Outcome.bind_eq_ok_iff.1 resolved
      cases resolved
      exact addRecovered_scalar scalar (Recovery.specifiers_isScalar clean walked) site
  | _ =>
      cases resolved
      exact scalar.addUnsafe site

theorem Require.resolve_scalar {e : Expr} {a a' : Analysis} (scalar : a.Scalar) (clean : e.Clean)
    {name : Option Text} {signal : Option Signal} (resolved : resolve e a name = .ok (a', signal)) :
    a'.Scalar := by
  unfold resolve at resolved
  split at resolved
  case h_1 location callee argument more =>
      have cleanArgument : argument.Clean := clean.child (by simp [Expr.children])
      refine resolveArgument_scalar ?_ cleanArgument resolved
      split
      · exact ⟨scalar.literals, scalar.specifiers⟩
      · exact scalar
  case h_2 =>
      cases resolved
      exact scalar

theorem Import.settle_scalar {a : Analysis} (scalar : a.Scalar) {e : Expr} (clean : e.Clean) :
    (settle e a).Scalar := by
  fun_cases settle e a with
  | case1 location span value =>
      have specifier : (Expr.string span value).Clean := clean.child (by simp [Expr.children])
      exact scalar.addDependency specifier.string _ _
  | case2 location _ _ span value =>
      have specifier : (Expr.string span value).Clean := clean.child (by simp [Expr.children])
      exact scalar.addDependency specifier.string _ _
  | case3 => exact scalar.addUnsafe _
  | case4 => exact scalar

end Probe

namespace Pass

open Analysis

/-- **One step.**  A visit to an expression that brings no surrogate in keeps them out. -/
theorem visit_scalar {e : Expr} {a a' : Analysis} {inside : List Expr} (scalar : a.Scalar)
    (clean : e.Clean) (visited : visit defaultProbes e a = .ok (a', inside)) : a'.Scalar := by
  rw [visit_eq] at visited
  obtain ⟨tracer, observed, visited⟩ := Outcome.bind_eq_ok_iff.1 visited
  have held := Tracer.scalar_of_observe scalar.literals clean observed
  have observedScalar : Scalar { a with tracer } := ⟨held, scalar.specifiers⟩
  obtain ⟨name?, _, visited⟩ := Outcome.bind_eq_ok_iff.1 visited
  cases name? with
  | none =>
      simp only at visited
      split at visited
      · cases visited
      · cases visited
        exact Probe.Import.settle_scalar observedScalar clean
  | some name =>
      obtain ⟨⟨a', signal⟩, resolved, visited⟩ := Outcome.bind_eq_ok_iff.1 visited
      cases visited
      exact Probe.Require.resolve_scalar observedScalar clean resolved

theorem start_scalar (file : Text) (hasErrors : Bool) : (Analysis.start file hasErrors).Scalar :=
  ⟨nofun, nofun⟩

/-- In every state that a pass comes to, there are no surrogates. -/
theorem scalar_of_arrives {root e : Expr} {a a' : Analysis} {path : List Nat} (clean : root.Clean)
    (scalar : a.Scalar) (arrives : Arrives (visit defaultProbes) root a path e a') : a'.Scalar :=
  arrives.keeps visit_prunes Scalar scalar fun _ _ _ _ _ arrives visited scalar =>
    visit_scalar scalar (clean.of_mem (arrives.mem_within visit_prunes)) visited

/-- At the end of a pass there are none either. -/
theorem scalar_of_walk {root : Expr} {a r : Analysis} (clean : root.Clean) (scalar : a.Scalar)
    (done : walk defaultProbes root a = .ok r) : r.Scalar := by
  obtain ⟨r', passed, rfl⟩ := passed_of_walk done
  have kept : r'.Scalar := by
    refine all_induction visit_prunes Scalar passed scalar ?_
    intro i e a₀ path e' a' a'' inside comes arrives visited before
    obtain ⟨rfl, rfl⟩ := comes_singleton comes
    exact visit_scalar before (clean.of_mem (arrives.mem_within visit_prunes)) visited
  exact ⟨kept.literals, kept.specifiers⟩

end Pass

/-! ## Numbers in arrays -/

/-- Trimming drops nothing but blanks. -/
theorem Text.mem_strip {t : Text} {c : CodePoint} (inside : c ∈ t) (solid : c.isBlank = false) :
    c ∈ t.strip := by
  have kept : ∀ u : Text, c ∈ u → c ∈ u.dropWhile CodePoint.isBlank := by
    intro u inside
    have split := List.takeWhile_append_dropWhile (p := CodePoint.isBlank) (l := u)
    rw [← split, List.mem_append] at inside
    refine inside.resolve_left fun dropped => ?_
    rw [List.all_eq_true.1 List.all_takeWhile c dropped] at solid
    cases solid
  exact List.mem_reverse.2 (kept _ (List.mem_reverse.2 (kept t inside)))

/-- The slash that is dropped at the end is no surrogate. -/
theorem Analysis.mem_withoutSlash {specifier : Text} {c : CodePoint} (inside : c ∈ specifier)
    (surrogate : c.isSurrogate = true) : c ∈ withoutSlash specifier := by
  rcases withoutSlash_cases specifier with ⟨before, _, rfl, dropped⟩ | ⟨_, kept⟩
  · rw [dropped]
    refine (List.mem_append.1 inside).resolve_right fun isSlash => ?_
    rw [List.mem_singleton.1 isSlash, CodePoint.isSurrogate_ofChar] at surrogate
    cases surrogate
  · rwa [kept]

/-- A surrogate that a number selects is among the joined pieces of the array. -/
theorem Expr.exists_surrogate (known : Bindings Text) {span : Span} {elements : List Expr}
    {n : Number} (isCode : n ∈ (array span elements).codes) (selects : n.selectsSurrogate = true) :
    ∃ c ∈ Text.strip (pieces known (array span elements)).flatten, c.isSurrogate = true := by
  obtain ⟨element, isElement, isNumber⟩ := List.mem_filterMap.1 isCode
  cases selected : n.charCode? with
  | none => simp [Number.selectsSurrogate, selected] at selects
  | some c =>
      have surrogate : c.isSurrogate = true := by
        simpa [Number.selectsSurrogate, selected] using selects
      cases element with
      | number span' value =>
          cases isNumber
          have isPiece : [c] ∈ pieces known (array span elements) :=
            List.mem_filterMap.2 ⟨_, isElement, by rw [piece?, selected]; rfl⟩
          have joined := List.mem_flatten.2 ⟨[c], isPiece, List.mem_singleton_self c⟩
          exact ⟨c, mem_strip joined (CodePoint.isBlank_of_isSurrogate surrogate), surrogate⟩
      | _ => cases isNumber

namespace Pass

/-- A load of an array in which a number selects a surrogate records a specifier with it. -/
theorem surrogate_of_visit {location span : Span} {callee : Expr} {elements more : List Expr}
    {a a' : Analysis} {inside : List Expr} {name : Option Text}
    (matched : Probe.require.match? (.call location callee (.array span elements :: more))
      a.tracer = .ok (some name)) {n : Number} (isCode : n ∈ (Expr.array span elements).codes)
    (selects : n.selectsSurrogate = true)
    (visited : visit defaultProbes (.call location callee (.array span elements :: more)) a =
      .ok (a', inside)) :
    ∃ d ∈ a'.dependencies, d.location = some location ∧ ¬ IsScalar d.specifier := by
  obtain ⟨c, inJoined, surrogate⟩ := Expr.exists_surrogate a.tracer.literals isCode selects
  obtain ⟨joined, isJoined⟩ : ∃ text, Text.strip
      (Expr.pieces a.tracer.literals (.array span elements)).flatten = text := ⟨_, rfl⟩
  rw [isJoined] at inJoined
  rw [visit_of_match matched,
    Probe.Require.resolve_of_specifies (.joined span elements isJoined)] at visited
  cases visited
  have solid : joined.isBlank = false := by
    rw [← isJoined, isBlank_strip, isJoined]
    exact decide_eq_false (List.ne_nil_of_mem inJoined)
  have recorded : (Probe.Require.settled a name location joined).dependencies =
      a.dependencies ++ [⟨Analysis.withoutSlash joined, some location, false,
        a.viaEval || decide (name = some Probe.Require.evaluator)⟩] := by
    simp [Probe.Require.settled, solid]
  refine ⟨_, recorded ▸ List.mem_append_right _ List.mem_cons_self, rfl, fun scalar => ?_⟩
  have none := scalar c (Analysis.mem_withoutSlash inJoined surrogate)
  rw [surrogate] at none
  cases none

/-- It is still there at the end of the pass. -/
theorem surrogate_of_walk {root callee : Expr} {location span : Span} {elements more : List Expr}
    {a a' r : Analysis} {path : List Nat} {name : Option Text}
    (done : walk defaultProbes root a = .ok r)
    (arrives : Arrives (visit defaultProbes) root a path
      (.call location callee (.array span elements :: more)) a')
    (matched : Probe.require.match? (.call location callee (.array span elements :: more))
      a'.tracer = .ok (some name))
    (selects : ∃ n ∈ (Expr.array span elements).codes, n.selectsSurrogate = true) :
    ∃ d ∈ r.dependencies, d.location = some location ∧ ¬ IsScalar d.specifier := by
  obtain ⟨n, isCode, selects⟩ := selects
  obtain ⟨r', passed, rfl⟩ := passed_of_walk done
  obtain ⟨a'', inside, visited, grows⟩ := visited_of_arrives passed arrives
  obtain ⟨d, isRecord, there, broken⟩ := surrogate_of_visit matched isCode selects visited
  exact ⟨d, grows.1.subset isRecord, there, broken⟩

/-! ## Both directions -/

/-- `require([n, ...])`. -/
def loadOfCodes (ns : List Number) : Expr :=
  .call .unknown (.identifier .unknown Tracer.loader)
    [.array .unknown (ns.map (.number .unknown))]

theorem mem_within_loadOfCodes {ns : List Number} {inner : Expr}
    (inside : inner ∈ (loadOfCodes ns).within) :
    inner = loadOfCodes ns ∨ inner = .identifier .unknown Tracer.loader ∨
      inner = .array .unknown (ns.map (.number .unknown)) ∨
      ∃ n ∈ ns, inner = .number .unknown n := by
  simpa [loadOfCodes, Expr.within, Expr.withinAll, Expr.mem_withinAll, eq_comm] using inside

theorem loadOfCodes_scalar (ns : List Number) : (loadOfCodes ns).Scalar := by
  intro inner inside
  rcases mem_within_loadOfCodes inside with rfl | rfl | rfl | ⟨n, _, rfl⟩ <;>
    simp [loadOfCodes, Expr.texts, Tracer.loader]

theorem loadOfCodes_codesIn {codes : Number → Prop} {ns : List Number}
    (among : ∀ n ∈ ns, codes n) : (loadOfCodes ns).CodesIn codes := by
  intro inner inside
  rcases mem_within_loadOfCodes inside with rfl | rfl | rfl | ⟨n, _, rfl⟩
  case inr.inr.inl =>
      simpa [Expr.codes, List.filterMap_map, Function.comp_def, Expr.number?] using among
  all_goals exact List.forall_mem_nil codes

/-- **Which numbers let every specifier be written.**  Whatever the strings and names of a source
are, no specifier that a pass records has a surrogate, and UTF-8 carries them all, exactly if no
number in an array selects a surrogate.  Wherever one does, a load of the array records a specifier
with it.  The strings and names of a converted source have no surrogates. -/
theorem specifiers_isScalar_iff (codes : Number → Prop) :
    ((∀ root : Expr, root.Scalar → root.CodesIn codes → ∀ file hasErrors,
        (∀ path e a, Arrives (visit defaultProbes) root (.start file hasErrors) path e a →
          ∀ d ∈ a.dependencies, IsScalar d.specifier) ∧
        ∀ r, walk defaultProbes root (.start file hasErrors) = .ok r → ∀ d ∈ r.dependencies,
          IsScalar d.specifier ∧ ∃ bytes, Utf8.encode? d.specifier = some bytes) ↔
      ∀ n, codes n → n.selectsSurrogate = false) ∧
    (∀ root file hasErrors r, walk defaultProbes root (.start file hasErrors) = .ok r →
      ∀ path location callee span elements more a name,
        Arrives (visit defaultProbes) root (.start file hasErrors) path
          (.call location callee (.array span elements :: more)) a →
        Probe.require.match? (.call location callee (.array span elements :: more)) a.tracer =
          .ok (some name) →
        (∃ n ∈ (Expr.array span elements).codes, n.selectsSurrogate = true) →
        ∃ d ∈ r.dependencies, d.location = some location ∧ ¬ IsScalar d.specifier) ∧
    ∀ source t e, Expr.ofTree source t = .ok e → e.Scalar := by
  refine ⟨⟨fun written n among => ?_, fun clear root scalar among file hasErrors => ?_⟩, ?_, ?_⟩
  · obtain ⟨r, done⟩ : ∃ r, walk defaultProbes (loadOfCodes [n]) (.start [] false) = .ok r :=
      ⟨_, rfl⟩
    cases selects : n.selectsSurrogate with
    | false => rfl
    | true =>
        obtain ⟨d, isRecord, _, broken⟩ := surrogate_of_walk done (.here _ _) rfl
          ⟨n, List.mem_cons_self, selects⟩
        have plain := (written _ (loadOfCodes_scalar [n])
          (loadOfCodes_codesIn (by simpa using among)) [] false).2 r done d isRecord
        exact absurd plain.1 broken
  · have clean : root.Clean := .of_codesIn scalar among clear
    refine ⟨fun path e a arrives => ?_, fun r done d isRecord => ?_⟩
    · exact (scalar_of_arrives clean (start_scalar file hasErrors) arrives).specifiers
    · have plain := (scalar_of_walk clean (start_scalar file hasErrors) done).specifiers d isRecord
      exact ⟨plain, isScalar_iff_encode?.1 plain⟩
  · intro root file hasErrors r done path location callee span elements more a name
    exact surrogate_of_walk done
  · intro source t e made
    rw [Expr.ofTree_eq_convert] at made
    exact Expr.scalar_of_convert made

/-- The numbers of `f` and `s` select no surrogates, and the specifier can be written. -/
theorem loadOfLetters_written :
    ∃ r, walk defaultProbes (loadOfCodes [.integer 0x66, .integer 0x73])
        (.start Analysis.inMemory false) = .ok r ∧
      (["fs"] : List Text) = r.dependencies.map (·.specifier) ∧
      ∀ d ∈ r.dependencies,
        IsScalar d.specifier ∧ ∃ bytes, Utf8.encode? d.specifier = some bytes := by
  have written := (specifiers_isScalar_iff (· ∈ [.integer 0x66, .integer 0x73])).1.2 (by decide)
    (loadOfCodes [.integer 0x66, .integer 0x73]) (loadOfCodes_scalar _)
    (loadOfCodes_codesIn fun _ among => among) Analysis.inMemory false
  exact ⟨_, rfl, rfl, written.2 _ rfl⟩

/-- The only specifier of `require([0xD800])` is a surrogate, which UTF-8 does not carry. -/
theorem loadOfSurrogate_unwritable :
    (∀ inner ∈ (loadOfCodes [.integer 0xD800]).within, inner.isMissing = false) ∧
    (loadOfCodes [.integer 0xD800]).Scalar ∧
    ∃ r, walk defaultProbes (loadOfCodes [.integer 0xD800]) (.start Analysis.inMemory false) =
        .ok r ∧
      r.dependencies.map (·.specifier) = [[0xD800]] ∧ Utf8.encode? [0xD800] = none :=
  ⟨by decide, loadOfCodes_scalar _, _, rfl, rfl, rfl⟩

end Pass

end HiddenLoads
