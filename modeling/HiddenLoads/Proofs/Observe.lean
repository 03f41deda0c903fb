/-
# HiddenLoads.Proofs.Observe -- what observing an expression leaves alone

Observing an expression touches the names that the expression binds (`Expr.bound`) and no
others, and the traced names are never touched at all (`Tracer.observe_touches`).  What it does to
them is one of five things (`Tracer.Effect`).  A traced name that no alias hides is found at once,
whatever else the tracer knows (`Tracer.lookup_of_traced`); so a name that no expression binds keeps
its meaning through a whole pass.
-/
import HiddenLoads.Proofs.Lookup
import HiddenLoads.Proofs.Outcome
import HiddenLoads.Tracer.Observe

namespace HiddenLoads

set_option autoImplicit false

namespace Expr

def names : Expr → List Text
  | .identifier _ name => [name]
  | .pattern _ entries => entries.map (·.name)
  | _ => []

/-- The names that the target of a declaration or an assignment holds. -/
def bound : Expr → List Text
  | .declaration _ target | .definition _ target _ | .assignment _ _ target _ => target.names
  | _ => []

end Expr

namespace Tracer

/-- Between two tracers, these names at most have other bindings. -/
structure Touches (names : List Text) (t t' : Tracer) : Prop where
  literals : ∀ name, name ∉ names → t'.literals.get? name = t.literals.get? name
  aliases : ∀ name, name ∉ names → t'.aliases.get? name = t.aliases.get? name
  modules : ∀ name, name ∉ names → t'.modules.get? name = t.modules.get? name
  traced : t'.traced = t.traced

namespace Touches

theorem refl (names : List Text) (t : Tracer) : Touches names t t :=
  ⟨fun _ _ => rfl, fun _ _ => rfl, fun _ _ => rfl, rfl⟩

theorem symm {names : List Text} {t t' : Tracer} (touches : Touches names t t') :
    Touches names t' t where
  literals name apart := (touches.literals name apart).symm
  aliases name apart := (touches.aliases name apart).symm
  modules name apart := (touches.modules name apart).symm
  traced := touches.traced.symm

theorem trans {names : List Text} {t₁ t₂ t₃ : Tracer} (one : Touches names t₁ t₂)
    (two : Touches names t₂ t₃) : Touches names t₁ t₃ where
  literals name apart := (two.literals name apart).trans (one.literals name apart)
  aliases name apart := (two.aliases name apart).trans (one.aliases name apart)
  modules name apart := (two.modules name apart).trans (one.modules name apart)
  traced := two.traced.trans one.traced

theorem mono {names names' : List Text} {t t' : Tracer} (touches : Touches names t t')
    (more : names ⊆ names') : Touches names' t t' where
  literals name apart := touches.literals name fun inside => apart (more inside)
  aliases name apart := touches.aliases name fun inside => apart (more inside)
  modules name apart := touches.modules name fun inside => apart (more inside)
  traced := touches.traced

end Touches

theorem forget_touches (t : Tracer) (name : Text) : Touches [name] t (t.forget name) where
  literals other apart := by
    rw [forget, Bindings.get?_forget, if_neg (List.ne_of_not_mem_cons apart)]
  aliases other apart := by
    rw [forget, Bindings.get?_forget, if_neg (List.ne_of_not_mem_cons apart)]
  modules other apart := by
    rw [forget, Bindings.get?_forget, if_neg (List.ne_of_not_mem_cons apart)]
  traced := rfl

theorem assign_touches (t : Tracer) (name : Text) (binding : Binding) :
    Touches [name] t (t.assign name binding) := by
  refine (forget_touches t name).trans ?_
  have bound {α : Type} (b : Bindings α) (value : α) (other : Text) (apart : other ∉ [name]) :
      (b.bind name value).get? other = b.get? other := by
    rw [Bindings.get?_bind, if_neg (List.ne_of_not_mem_cons apart)]
  cases binding with
  | literal text => exact ⟨bound _ text, fun _ _ => rfl, fun _ _ => rfl, rfl⟩
  | module module => exact ⟨fun _ _ => rfl, fun _ _ => rfl, bound _ module, rfl⟩
  | «alias» target => exact ⟨fun _ _ => rfl, bound _ target, fun _ _ => rfl, rfl⟩
  | nothing => exact .refl [name] _

theorem assignEntries_touches (t : Tracer) (resolved : List (Text × Option Traced)) :
    Touches (resolved.map (·.1)) t (t.assignEntries resolved) := by
  induction resolved generalizing t with
  | nil => exact .refl [] t
  | cons entry resolved ih =>
      refine ((assign_touches t entry.1 _).mono ?_).trans ((ih _).mono ?_)
      · exact List.cons_subset_cons _ (List.nil_subset _)
      · exact List.subset_cons_self _ _

theorem names_of_mapM {lookup : Entry → Except Failure (Option Traced)} {entries : List Entry}
    {resolved : List (Text × Option Traced)}
    (done : entries.mapM (fun entry => do .ok (entry.name, ← lookup entry)) = .ok resolved) :
    resolved.map (·.1) = entries.map (·.name) := by
  induction entries generalizing resolved with
  | nil =>
      cases done
      rfl
  | cons entry entries ih =>
      rw [List.mapM_cons] at done
      obtain ⟨first, one, done⟩ := Outcome.bind_eq_ok_iff.1 done
      obtain ⟨rest, more, done⟩ := Outcome.bind_eq_ok_iff.1 done
      obtain ⟨target, _, one⟩ := Outcome.bind_eq_ok_iff.1 one
      cases one
      cases done
      rw [List.map_cons, List.map_cons, ih more]

/-- The meanings of the keys of a pattern come with the names of its entries. -/
theorem names_of_resolveEntries {t : Tracer} {value : Expr} {entries : List Entry}
    {resolved : List (Text × Option Traced)}
    (done : t.resolveEntries value entries = .ok resolved) :
    resolved.map (·.1) = entries.map (·.name) := by
  obtain ⟨module?, _, done⟩ := Outcome.bind_eq_ok_iff.1 done
  cases module? with
  | some module =>
      cases done
      simp
  | none =>
      obtain ⟨name?, _, done⟩ := Outcome.bind_eq_ok_iff.1 done
      cases name? with
      | none =>
          cases done
          simp
      | some dotted => exact names_of_mapM done

theorem bind_touches {t t' : Tracer} {target value : Expr} (done : t.bind target value = .ok t') :
    Touches target.names t t' := by
  cases target with
  | pattern span entries =>
      obtain ⟨resolved, found, done⟩ := Outcome.bind_eq_ok_iff.1 done
      cases done
      rw [Expr.names, ← names_of_resolveEntries found]
      exact assignEntries_touches t resolved
  | identifier span name =>
      obtain ⟨binding, _, done⟩ := Outcome.bind_eq_ok_iff.1 done
      cases done
      exact assign_touches t name binding
  | _ =>
      cases done
      exact .refl _ t

theorem append_touches {t t' : Tracer} {name : Text} {value : Expr}
    (done : t.append name value = .ok t') : Touches [name] t t' := by
  obtain ⟨addition?, _, done⟩ := Outcome.bind_eq_ok_iff.1 done
  split at done
  · cases done
    refine ⟨fun other apart => ?_, fun _ _ => rfl, fun _ _ => rfl, rfl⟩
    rw [Bindings.get?_bind, if_neg (List.ne_of_not_mem_cons apart)]
  · cases done
    exact forget_touches t name

/-- Observing an expression touches the names that it binds. -/
theorem observe_touches {t t' : Tracer} {e : Expr} (done : t.observe e = .ok t') :
    Touches e.bound t t' := by
  rw [observe.eq_def] at done
  split at done
  case h_1 => exact bind_touches done
  case h_2 _ span' name =>
      cases done
      exact forget_touches t name
  case h_3 _ operator target value =>
      split at done
      · exact bind_touches done
      · split at done
        · split at done
          · exact append_touches done
          · cases done
            exact forget_touches t _
        · cases done
          exact .refl _ t
  case h_4 =>
      cases done
      exact .refl _ t

inductive Effect (t : Tracer) : Tracer → Prop
  | nothing : Effect t t
  | forget (name : Text) : Effect t (t.forget name)
  | append {name current addition : Text} {value : Expr}
      (held : t.literals.get? name = some current)
      (reads : Expr.text? t.literals value = .ok (some addition)) :
      Effect t { t with literals := t.literals.bind name (current ++ addition) }
  | assign {name : Text} {value : Expr} {binding : Binding}
      (gives : t.bindingOf name value = .ok binding) : Effect t (t.assign name binding)
  | destructure {value : Expr} {entries : List Entry} {resolved : List (Text × Option Traced)}
      (means : t.resolveEntries value entries = .ok resolved) : Effect t (t.assignEntries resolved)

theorem effect_of_bind {t t' : Tracer} {target value : Expr} (done : t.bind target value = .ok t') :
    t.Effect t' := by
  cases target with
  | pattern span entries =>
      obtain ⟨resolved, means, done⟩ := Outcome.bind_eq_ok_iff.1 done
      cases done
      exact .destructure means
  | identifier span name =>
      obtain ⟨binding, gives, done⟩ := Outcome.bind_eq_ok_iff.1 done
      cases done
      exact .assign gives
  | _ =>
      cases done
      exact .nothing

theorem effect_of_append {t t' : Tracer} {name : Text} {value : Expr}
    (done : t.append name value = .ok t') : t.Effect t' := by
  obtain ⟨addition?, reads, done⟩ := Outcome.bind_eq_ok_iff.1 done
  split at done
  case h_1 current addition held =>
      cases done
      exact .append held reads
  case h_2 =>
      cases done
      exact .forget name

/-- An observation that succeeds does one of these. -/
theorem effect_of_observe {t t' : Tracer} {e : Expr} (done : t.observe e = .ok t') :
    t.Effect t' := by
  rw [observe.eq_def] at done
  split at done
  case h_1 => exact effect_of_bind done
  case h_2 _ span' name =>
      cases done
      exact .forget name
  case h_3 _ operator target value =>
      split at done
      · exact effect_of_bind done
      · split at done
        · split at done
          · exact effect_of_append done
          · cases done
            exact .forget _
        · cases done
          exact .nothing
  case h_4 =>
      cases done
      exact .nothing

theorem observe_call (t : Tracer) (span : Span) (callee : Expr) (arguments : List Expr) :
    t.observe (.call span callee arguments) = .ok t := rfl

/-- Following a name begins with one step, and ends there unless the step renames. -/
theorem lookup_eq_of_move (t : Tracer) {name : Text} (nonempty : name ≠ []) :
    t.lookup name =
      match t.move name with
      | .found target => .ok (some target)
      | .untraced => .ok none
      | .rename next =>
          t.follow (t.lengthLimit name)
            (Nat.pow (t.alphabetSize name + 1) (t.lengthLimit name)) [name] next := by
  have short : segmentCount name ≤ t.lengthLimit name :=
    Nat.le_trans (Nat.le_max_left _ _) (Nat.le_add_right _ _)
  cases moved : t.move name <;>
    rw [lookup, if_neg nonempty, stepLimit, follow_succ, if_neg (by simp),
      if_neg (Nat.not_lt.2 short), moved]

/-- A traced name that no alias hides is found at once. -/
theorem lookup_of_traced {t : Tracer} {name : Text} {target : Traced} (nonempty : name ≠ [])
    (plain : t.aliases.get? name = none) (traced : t.traced.get? name = some target) :
    t.lookup name = .ok (some target) := by
  have found : t.move name = .found target := by rw [move, plain, traced]
  rw [lookup_eq_of_move t nonempty, found]

/-- A name without a dot that is neither traced nor an alias means nothing. -/
theorem lookup_of_untraced {t : Tracer} {name : Text} (nonempty : name ≠ [])
    (plain : t.aliases.get? name = none) (untraced : t.traced.get? name = none)
    (whole : (name.cut '.').2 = []) : t.lookup name = .ok none := by
  have ends : t.move name = .untraced := by
    rw [move, plain, untraced]
    simp [whole]
  rw [lookup_eq_of_move t nonempty, ends]

/-! ## The name `require` -/

structure KnowsLoader (t : Tracer) : Prop where
  plain : t.aliases.get? loader = none
  traced : t.traced.get? loader = some ⟨loader, loader⟩

theorem knowsLoader_default : KnowsLoader default := ⟨rfl, rfl⟩

theorem KnowsLoader.lookup {t : Tracer} (knows : KnowsLoader t) :
    t.lookup loader = .ok (some ⟨loader, loader⟩) :=
  lookup_of_traced (by decide) knows.plain knows.traced

theorem KnowsLoader.of_touches {names : List Text} {t t' : Tracer} (knows : KnowsLoader t)
    (touches : Touches names t t') (apart : loader ∉ names) : KnowsLoader t' :=
  ⟨(touches.aliases loader apart).trans knows.plain, by rw [touches.traced, knows.traced]⟩

end Tracer

end HiddenLoads
