/-
# HiddenLoads.Proofs.GlobalObjects -- global objects in front of a name change nothing

The members of a global object are the globals themselves, so `window.require` should mean what
`require` means.  While the object is bound to nothing else, and as long as names with a dot are never
bound, following `window.n` has `n` for its next name (`renames_of_global`), and a name means what the
next one means.  This does not depend on where following goes from there: the aliases of `n` may lead
back to `window.n`, to a name that grows for ever, or to nothing.

So any number of global objects in front of a name leave its meaning alone
(`lookup_behind_globals`).
-/
import HiddenLoads.Proofs.Following
import HiddenLoads.Proofs.StraightLine

namespace HiddenLoads

set_option autoImplicit false

namespace Tracer

variable {t t' : Tracer} {es : List Expr}

/-- Observing several expressions touches the names that they bind. -/
theorem observeAll_touches (done : t.observeAll es = .ok t') : Touches (es.flatMap Expr.bound) t t' := by
  induction es generalizing t with
  | nil =>
      cases done
      exact .refl _ _
  | cons e es ih =>
      rw [observeAll, List.foldlM_cons] at done
      obtain ⟨t₁, observed, done⟩ := Outcome.bind_eq_ok_iff.1 done
      rw [List.flatMap_cons]
      apply Touches.trans ((observe_touches observed).mono _) ((ih done).mono _)
      · exact List.subset_append_left _ _
      · exact List.subset_append_right _ _

/-- The name is that of a global object, and the tracer knows it as nothing else. -/
structure IsGlobal (t : Tracer) (object : Text) : Prop where
  listed : object ∈ globalObjects
  noAlias : t.aliases.get? object = none
  noModule : t.modules.get? object = none

theorem IsGlobal.whole {object : Text} (isGlobal : t.IsGlobal object) :
    CodePoint.ofChar '.' ∉ object := by
  have all : ∀ global ∈ globalObjects, CodePoint.ofChar '.' ∉ global := by decide
  exact all object isGlobal.listed

section Observed

variable (observed : default.observeAll es = .ok t)
  (whole : ∀ e ∈ es, ∀ name ∈ e.bound, CodePoint.ofChar '.' ∉ name)
  {object : Text} (isGlobal : t.IsGlobal object)

include observed whole isGlobal

/-- The member of a global object is not known by itself: no alias has a dot in it, and no traced name
begins with a global object. -/
theorem own?_of_global (name : Text) : t.own? (dot object name) = none := by
  have touches := observeAll_touches observed
  have unbound : dot object name ∉ es.flatMap Expr.bound := by
    intro inside
    obtain ⟨e, member, binds⟩ := List.mem_flatMap.1 inside
    exact whole e member _ binds (by simp [dot])
  have plain : t.aliases.get? (dot object name) = none := touches.aliases _ unbound
  have untraced : t.traced.get? (dot object name) = none := by
    have apart : ∀ entry ∈ default.traced.entries, (entry.1.cut '.').1 ∉ globalObjects := by decide
    rw [touches.traced]
    by_contra traced
    obtain ⟨target, found⟩ := Option.ne_none_iff_exists'.1 traced
    have outside := apart _ (Bindings.mem_of_get? found)
    rw [cut_dot isGlobal.whole] at outside
    exact outside isGlobal.listed
  rw [own?, plain, untraced]
  rfl

/-- Behind a global object stands the next name on the way. -/
theorem renames_of_global {name : Text} (more : name ≠ []) : t.Renames (dot object name) name := by
  have unknown := own?_of_global observed whole isGlobal name
  rw [Renames, move_of_unbound isGlobal.whole more unknown isGlobal.noModule isGlobal.noAlias,
    if_pos isGlobal.listed]

/-- A global object in front of a name changes nothing. -/
theorem lookup_of_global (name : Text) :
    t.lookup (dot object name) = t.lookup name ∧ (t.Exits (dot object name) ↔ t.Exits name) := by
  by_cases empty : name = []
  · -- an object with nothing behind the dot means as little as no name at all
    subst empty
    obtain ⟨plain, untraced⟩ := Option.or_eq_none_iff.1 (own?_of_global observed whole isGlobal [])
    have nothing : t.lookup (dot object []) = .ok none := by
      apply lookup_of_untraced (dot_ne_nil object []) plain untraced
      rw [cut_dot isGlobal.whole]
    exact ⟨nothing, iff_of_true (exits_of_lookup nothing) (exits_nil t)⟩
  · have step := renames_of_global observed whole isGlobal empty
    exact ⟨lookup_of_renames step, step.exits_iff⟩

end Observed

/-- **Global objects in front of a name are transparent.**  After any observations that bind no name
with a dot in it, and for global objects that are bound neither as an alias nor as a module, a name
behind any number of them means what the name means by itself; and following the one comes to an end
exactly if following the other does. -/
theorem lookup_behind_globals (observed : default.observeAll es = .ok t)
    (whole : ∀ e ∈ es, ∀ name ∈ e.bound, CodePoint.ofChar '.' ∉ name) {objects : List Text}
    (areGlobal : ∀ object ∈ objects, t.IsGlobal object) (name : Text) :
    t.lookup (objects.foldr dot name) = t.lookup name ∧
      (t.Exits (objects.foldr dot name) ↔ t.Exits name) := by
  induction objects with
  | nil => exact ⟨rfl, Iff.rfl⟩
  | cons object objects ih =>
      obtain ⟨isGlobal, more⟩ := List.forall_mem_cons.1 areGlobal
      obtain ⟨same, exits⟩ := lookup_of_global observed whole isGlobal (objects.foldr dot name)
      obtain ⟨same', exits'⟩ := ih more
      exact ⟨same.trans same', exits.trans exits'⟩

/-- `const { w } = require("globalThis")`. -/
def globalAsW : Expr :=
  .definition .unknown (.pattern .unknown [⟨"w", "w"⟩])
    (.call .unknown (.identifier .unknown "require") [.string .unknown "globalThis"])

/-- After `const { w } = require("globalThis")` the way of `w.x` comes by `globalThis.w.x`, and the other
way round: each of the two names is met again from the other, and both mean nothing, with two more
objects in front of them as well. -/
theorem memberOfW_transparent :
    ∃ t, default.observeAll [globalAsW] = .ok t ∧
      t.Renames "w.x" "globalThis.w.x" ∧ t.Renames "globalThis.w.x" "w.x" ∧
      t.IsGlobal "self" ∧ t.IsGlobal "globalThis" ∧
      t.lookup "self.globalThis.w.x" = t.lookup "w.x" ∧ t.lookup "w.x" = .ok none := by
  obtain ⟨t, observed⟩ : ∃ t, default.observeAll [globalAsW] = .ok t := ⟨_, rfl⟩
  have whole : ∀ e ∈ [globalAsW], ∀ name ∈ e.bound, CodePoint.ofChar '.' ∉ name := by decide
  have isSelf : t.IsGlobal "self" := by
    cases observed
    exact ⟨by decide, rfl, rfl⟩
  have isThis : t.IsGlobal "globalThis" := by
    cases observed
    exact ⟨by decide, rfl, rfl⟩
  have areGlobal : ∀ object ∈ [Text.ofString "self", Text.ofString "globalThis"], t.IsGlobal object := by
    simpa using ⟨isSelf, isThis⟩
  have same := (lookup_behind_globals observed whole areGlobal "w.x").1
  cases observed
  exact ⟨_, rfl, rfl, rfl, isSelf, isThis, same, rfl⟩

end Tracer

end HiddenLoads
