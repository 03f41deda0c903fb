/-
# HiddenLoads.Proofs.Failures -- when a pass can fail

Everything that a pass computes is made of a few steps that can fail: following a name, writing a
number, decoding hexadecimal digits, and going into a part that the tree lacks.  An expression is
sound (`Expr.Sound`) if it lacks nothing and all its literals can be written and decoded.  On a
sound expression every step is tame (`Outcome.Tame`): it fails only if following a name never
ends.  From the steps this carries over to whole passes (`Pass.walk_tame`).
-/
import HiddenLoads.Proofs.Folding
import HiddenLoads.Proofs.Literals
import HiddenLoads.Proofs.Recovery
import HiddenLoads.Proofs.Visit

namespace HiddenLoads

set_option autoImplicit false

namespace Outcome

/-- The outcome is no failure, unless following a name never ends. -/
def Tame {α : Type} (x : Except Failure α) : Prop := ∀ f, x = .error f → f = .endlessAlias

theorem tame_ok {α : Type} (a : α) : Tame (.ok a : Except Failure α) := fun _ fails => nomatch fails

theorem tame_bind {α β : Type} {x : Except Failure α} {k : α → Except Failure β} (first : Tame x)
    (rest : ∀ a, Tame (k a)) : Tame (x >>= k) := by
  intro f fails
  rcases bind_eq_error_iff.1 fails with fails | ⟨a, _, fails⟩
  · exact first f fails
  · exact rest a f fails

theorem tame_mapM {α β : Type} {k : α → Except Failure β} (each : ∀ a, Tame (k a)) (as : List α) :
    Tame (as.mapM k) := by
  induction as with
  | nil => exact tame_ok []
  | cons a as ih =>
      rw [List.mapM_cons]
      exact tame_bind (each a) fun b => tame_bind ih fun bs => tame_ok (b :: bs)

end Outcome

open Outcome

/-! ## Sound expressions -/

namespace Expr

/-- Something stands here, and if it is a literal, it is among these. -/
def Admits (texts : Text → Prop) (numbers : Number → Prop) : Expr → Prop
  | .missing => False
  | .string _ value => texts value
  | .number _ value => numbers value
  | _ => True

def MadeOf (texts : Text → Prop) (numbers : Number → Prop) (e : Expr) : Prop :=
  ∀ inner ∈ e.within, inner.Admits texts numbers

/-- The expression lacks nothing, and all its literals can be decoded and written. -/
def Sound (e : Expr) : Prop := e.MadeOf (fun t => ¬ Hex.Uneven t) (fun n => ¬ n.Overlong)

theorem Sound.self {e : Expr} (sound : e.Sound) :
    e.Admits (fun t => ¬ Hex.Uneven t) (fun n => ¬ n.Overlong) := sound e e.self_mem_within

theorem Sound.of_mem {e inner : Expr} (sound : e.Sound) (inside : inner ∈ e.within) :
    inner.Sound := fun innermost isInnermost =>
  sound innermost (within_subset_of_mem inside isInnermost)

theorem Sound.child {e child : Expr} (sound : e.Sound) (inside : child ∈ e.children) :
    child.Sound := fun inner isInner =>
  sound inner (within_subset_of_mem_children inside isInner)

end Expr

theorem Number.format_tame {n : Number} (short : ¬ n.Overlong) : Tame n.format :=
  fun f fails => absurd ((n.format_eq_error_iff f).1 fails).2 short

/-! ## Values and names -/

namespace Expr

variable (known : Bindings Text)

theorem foldLeaf_tame {e : Expr} (sound : e.Sound) : Tame (foldLeaf known e) := by
  unfold foldLeaf
  split
  · exact tame_ok _
  · exact tame_bind (Number.format_tame sound.self) fun text => tame_ok _
  · exact tame_ok _
  · split <;> exact tame_ok _

theorem fold_tame {e : Expr} (sound : e.Sound) : Tame (fold known e) := by
  induction e using operands.induct with
  | case1 span left right first second =>
      rw [fold_sum]
      refine tame_bind (first (sound.child (by simp [children]))) fun folded => ?_
      unfold Folding.goOn
      split
      · exact tame_bind (second (sound.child (by simp [children]))) fun more => tame_ok _
      · exact tame_ok _
  | case2 span operator left right other =>
      rw [fold_leaf known (by rw [operands, if_neg other])]
      exact foldLeaf_tame known sound
  | case3 e leaf =>
      rw [fold_leaf known (operands.eq_2 e leaf)]
      exact foldLeaf_tame known sound

theorem text?_tame {e : Expr} (sound : e.Sound) : Tame (text? known e) := by
  unfold text?
  split
  · split
    · exact tame_bind (fold_tame known sound) fun folded => tame_ok _
    · exact tame_ok _
  · exact tame_ok _

theorem propertyName?_tame {property : Expr} (sound : property.Sound) (computed : Bool) :
    Tame (propertyName? known property computed) := by
  unfold propertyName?
  split
  · exact tame_ok _
  · exact tame_ok _
  · exact tame_bind (Number.format_tame sound.self) fun text => tame_ok _
  · exact text?_tame known sound

theorem segments_tame {e : Expr} (sound : e.Sound) : Tame (segments known e) := by
  induction e using segments.induct with
  | case1 span object property computed ih =>
      rw [segments]
      refine tame_bind (propertyName?_tame known (sound.child (by simp [children])) computed)
        fun name => ?_
      exact tame_bind (ih (sound.child (by simp [children]))) fun names => tame_ok _
  | case2 | case3 => exact tame_ok _
  | case4 e notMember notName notString =>
      rw [segments.eq_4 known e notMember notName notString]
      exact tame_ok _

theorem name?_tame {e : Expr} (sound : e.Sound) : Tame (name? known e) := by
  unfold name?
  split
  · exact tame_ok _
  · exact tame_bind (segments_tame known sound) fun names => tame_ok _
  · exact tame_ok _

theorem callee?_tame (through : Bool) {e : Expr} (sound : e.Sound) :
    Tame (callee? known through e) := by
  induction e using callee?.induct through with
  | case1 span span' callee arguments arguments' enters ih =>
      rw [callee?, if_pos enters]
      exact ih (sound.child (by simp [children]))
  | case2 span span' callee arguments arguments' stays =>
      rw [callee?, if_neg stays]
      exact tame_ok _
  | case3 span callee arguments notCall =>
      rw [callee?.eq_2 known through span callee arguments notCall]
      exact name?_tame known (sound.child (by simp [children]))
  | case4 e notNested notCall =>
      rw [callee?.eq_3 known through e notNested notCall]
      exact tame_ok _

end Expr

/-! ## The tracer -/

namespace Tracer

theorem lookup_tame (t : Tracer) (name : Text) : Tame (t.lookup name) :=
  fun _ fails => (regrowth_of_lookup fails).1

theorem lookup?_tame (t : Tracer) (name : Option Text) : Tame (t.lookup? name) := by
  cases name with
  | some name => exact lookup_tame t name
  | none => exact tame_ok none

theorem requiredModule?_tame (t : Tracer) {e : Expr} (sound : e.Sound) :
    Tame (t.requiredModule? e) := by
  unfold requiredModule?
  split
  · refine tame_bind (Expr.callee?_tame t.literals false sound) fun name => ?_
    refine tame_bind (lookup?_tame t name) fun target? => ?_
    repeat' split
    all_goals exact tame_ok _
  · exact tame_ok _

theorem bindingOfName_tame (t : Tracer) (dotted : Text) : Tame (t.bindingOfName dotted) := by
  refine tame_bind (lookup_tame t dotted) fun target? => ?_
  repeat' split
  all_goals exact tame_ok _

theorem bindingOf_tame (t : Tracer) (name : Text) {value : Expr} (sound : value.Sound) :
    Tame (t.bindingOf name value) := by
  refine tame_bind (Expr.text?_tame t.literals sound) fun text? => ?_
  split
  · exact tame_ok _
  refine tame_bind (requiredModule?_tame t sound) fun module? => ?_
  split
  · exact tame_ok _
  refine tame_bind (Expr.name?_tame t.literals sound) fun dotted? => ?_
  split
  · split
    · exact tame_ok _
    · exact bindingOfName_tame t _
  · exact tame_ok _

theorem resolveEntries_tame (t : Tracer) {value : Expr} (sound : value.Sound)
    (entries : List Entry) : Tame (t.resolveEntries value entries) := by
  refine tame_bind (requiredModule?_tame t sound) fun module? => ?_
  split
  · exact tame_ok _
  refine tame_bind (Expr.name?_tame t.literals sound) fun dotted? => ?_
  split
  · exact tame_mapM (fun entry => tame_bind (lookup_tame t _) fun target? => tame_ok _) entries
  · exact tame_ok _

theorem bind_tame (t : Tracer) (target : Expr) {value : Expr} (sound : value.Sound) :
    Tame (t.bind target value) := by
  unfold bind
  split
  · exact tame_bind (resolveEntries_tame t sound _) fun resolved => tame_ok _
  · exact tame_bind (bindingOf_tame t _ sound) fun binding => tame_ok _
  · exact tame_ok _

theorem append_tame (t : Tracer) (name : Text) {value : Expr} (sound : value.Sound) :
    Tame (t.append name value) := by
  refine tame_bind (Expr.text?_tame t.literals sound) fun addition? => ?_
  split <;> exact tame_ok _

theorem observe_tame (t : Tracer) {e : Expr} (sound : e.Sound) : Tame (t.observe e) := by
  unfold observe
  split
  · exact bind_tame t _ (sound.child (by simp [Expr.children]))
  · exact tame_ok _
  · have value := sound.child (List.mem_cons_of_mem _ (List.mem_singleton_self _))
    split
    · exact bind_tame t _ value
    · split
      · split
        · exact append_tame t _ value
        · exact tame_ok _
      · exact tame_ok _
  · exact tame_ok _

end Tracer

/-! ## The walk through an argument -/

namespace Recovery

theorem calleeMeaning?_tame (t : Tracer) {callee : Expr} (sound : callee.Sound) :
    Tame (calleeMeaning? t callee) := by
  refine tame_bind (Expr.name?_tame t.literals sound) fun name? => ?_
  split
  · refine tame_bind (Tracer.lookup_tame t _) fun target? => ?_
    split <;> exact tame_ok _
  · exact tame_ok _

theorem encodedText?_eq_some {e : Expr} {digits : Text} (encoded : encodedText? e = some digits) :
    (∃ span, e = .string span digits) ∧ Hex.looksEncoded digits = true := by
  unfold encodedText? at encoded
  split at encoded
  · split at encoded
    · cases encoded
      exact ⟨⟨_, rfl⟩, by assumption⟩
    · cases encoded
  · cases encoded

theorem applyRules_tame (t : Tracer) {callee first : Expr} (arguments : List Expr) (r : Recovery)
    (soundCallee : callee.Sound) (soundFirst : first.Sound) :
    Tame (applyRules t callee first arguments r) := by
  unfold applyRules
  split
  case h_1 digits encoded =>
      -- Whatever is taken for encoded text can be decoded.
      obtain ⟨⟨span, rfl⟩, looks⟩ := encodedText?_eq_some encoded
      have decodes : Tame (Hex.decode digits) := fun f fails =>
        absurd ((Hex.decode_eq_error_iff looks f).1 fails).2 soundFirst.self
      exact tame_bind decodes fun text => tame_ok _
  case h_2 =>
      refine tame_bind (calleeMeaning?_tame t soundCallee) fun meaning? => ?_
      split <;> exact tame_ok _

theorem enter_tame (t : Tracer) {e : Expr} (r : Recovery) (sound : e.Sound) :
    Tame (enter t e r) := by
  refine tame_bind ?_ fun next => tame_ok _
  unfold visit
  split
  · exact applyRules_tame t _ r (sound.child (by simp [Expr.children]))
      (sound.child (by simp [Expr.children]))
  · exact absurd sound.self id
  · exact tame_ok _

theorem walk_tame (t : Tracer) {e : Expr} (sound : e.Sound) : Tame (walk t e) := by
  intro f fails
  rw [walk_eq, Traversal.all_eq_error_iff (enter_prunes t)] at fails
  obtain ⟨path, inner, r, arrives, fails⟩ := fails
  exact enter_tame t r (sound.of_mem (arrives.mem_within (enter_prunes t))) f fails

end Recovery

/-! ## The probes and the pass -/

namespace Probe.Require

theorem isLoad_tame (t : Tracer) {e : Expr} (sound : e.Sound) : Tame (isLoad e t) := by
  unfold isLoad
  split
  · refine tame_bind (Expr.callee?_tame t.literals false sound) fun name? => ?_
    split
    · exact tame_ok _
    · refine tame_bind (Tracer.lookup_tame t _) fun target? => ?_
      split <;> exact tame_ok _
  · exact tame_ok _

theorem isEvalLoad_tame (t : Tracer) {e : Expr} (sound : e.Sound) : Tame (isEvalLoad e t) := by
  unfold isEvalLoad
  split
  · refine tame_bind (Expr.callee?_tame t.literals true sound) fun name? => ?_
    refine tame_bind (Tracer.lookup?_tame t name?) fun target? => ?_
    simp only
    repeat' split
    all_goals exact tame_ok _
  · exact tame_ok _

theorem match?_tame (t : Tracer) {e : Expr} (sound : e.Sound) :
    Tame (Probe.require.match? e t) := by
  refine tame_bind (isLoad_tame t sound) fun verdict => ?_
  split
  · exact tame_ok _
  refine tame_bind (isEvalLoad_tame t sound) fun verdict => ?_
  split <;> exact tame_ok _

theorem resolveArgument_tame (site : Span) {argument : Expr} (a : Analysis)
    (sound : argument.Sound) : Tame (resolveArgument site argument a) := by
  unfold resolveArgument
  split
  · exact tame_ok _
  · exact tame_ok _
  · exact tame_ok _
  · exact tame_bind (Expr.text?_tame a.tracer.literals sound) fun text => tame_ok _
  · exact tame_bind (Recovery.walk_tame a.tracer sound) fun recovered => tame_ok _
  · exact tame_ok _

theorem resolve_tame {e : Expr} (a : Analysis) (name : Option Text) (sound : e.Sound) :
    Tame (resolve e a name) := by
  unfold resolve
  split
  · exact resolveArgument_tame _ _ (sound.child (by simp [Expr.children]))
  · exact tame_ok _

end Probe.Require

namespace Pass

theorem visit_tame {e : Expr} (a : Analysis) (sound : e.Sound) :
    Tame (visit defaultProbes e a) := by
  rw [visit_eq]
  refine tame_bind (Tracer.observe_tame a.tracer sound) fun tracer => ?_
  refine tame_bind (Probe.Require.match?_tame tracer sound) fun name? => ?_
  cases name? with
  | some name => exact tame_bind (Probe.Require.resolve_tame _ name sound) fun r => tame_ok _
  | none =>
      simp only
      split
      case isTrue missing =>
          cases e with
          | missing => exact absurd sound.self id
          | _ => cases missing
      case isFalse => exact tame_ok _

/-- A pass over a sound expression fails only if following a name never ends. -/
theorem walk_tame {root : Expr} (a : Analysis) (sound : root.Sound) :
    Tame (walk defaultProbes root a) := by
  rw [walk_eq]
  refine tame_bind ?_ fun r => tame_ok _
  intro f fails
  rw [Traversal.all_eq_error_iff visit_prunes] at fails
  obtain ⟨path, inner, a', arrives, fails⟩ := fails
  exact visit_tame a' (sound.of_mem (arrives.mem_within visit_prunes)) f fails

end Pass

end HiddenLoads
