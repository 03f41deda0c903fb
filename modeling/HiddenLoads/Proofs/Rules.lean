/-
# HiddenLoads.Proofs.Rules -- what the walk recovers, and by which rule

Where the walk through the argument of a load comes is a matter of the argument alone:
`Recovery.reached` lists the argument and everything inside it in source order, except what stands
inside a call with encoded text.  The walk is one visit after the other along that list
(`Recovery.walk_eq_foldlM`).

What a call gives, and by which rule, depends neither on the calls before it nor on those after it
(`Recovery.Gives`).  So the recovered specifiers are the texts that the calls of the list give
(`Recovery.mem_specifiers_iff`), and the suspicion is lifted if one of the calls is a `path.join` of
strings (`Recovery.cleared_iff`).  The two have nothing to do with each other: a join beside a call
that decodes clears the load of the decoded specifier as well.
-/
import HiddenLoads.Proofs.Recovery

namespace HiddenLoads

set_option autoImplicit false

namespace Recovery

/-! ## The way of the walk -/

mutual

/-- What the walk comes to from an expression, in order. -/
def reached (e : Expr) : List Expr :=
  e :: if isEncoded e then [] else reachedAll e.children
termination_by (e.size, 0)
decreasing_by exact e.children_lex

def reachedAll : List Expr → List Expr
  | [] => []
  | e :: es => reached e ++ reachedAll es
termination_by es => (Expr.sizeAll es, 1)
decreasing_by
  · exact e.head_lex es
  · exact e.tail_lex es

end

theorem mem_reachedAll {es : List Expr} {inner : Expr} :
    inner ∈ reachedAll es ↔ ∃ e ∈ es, inner ∈ reached e := by
  induction es with
  | nil => simp [reachedAll]
  | cons e es ih => simp [reachedAll, ih]

/-- The walk stays inside the expression that it begins at. -/
theorem reached_subset (e : Expr) : reached e ⊆ e.within := by
  intro inner isReached
  rw [reached, List.mem_cons] at isReached
  rcases isReached with rfl | isReached
  · exact inner.self_mem_within
  · split at isReached
    · cases isReached
    · obtain ⟨child, isChild, isReached⟩ := mem_reachedAll.1 isReached
      have smaller := Expr.size_lt_of_mem_children isChild
      exact Expr.within_subset_of_mem_children isChild (reached_subset child isReached)
termination_by e.size

/-- One visit of the walk, without the answer whether to go inside. -/
def step (t : Tracer) (r : Recovery) (e : Expr) : Except Failure Recovery :=
  visit t e r >>= fun next => .ok next.1

/-- The walk goes inside every expression, except a call with encoded text. -/
theorem visit_enters {t : Tracer} {e : Expr} {r r' : Recovery} {go : Bool}
    (visited : visit t e r = .ok (r', go)) : go = !isEncoded e := by
  rcases visit_cases visited with
    ⟨span, callee, first, more, digits, text, rfl, encoded, _, _, rfl⟩ |
    ⟨meaning, first, more, ⟨span, callee, rfl, plain, _⟩, _, rfl⟩ | ⟨plain, _, _, rfl⟩
  · simp [isEncoded, encoded]
  · simp [isEncoded, plain]
  · simp [plain]

theorem all_enter_eq_foldlM (t : Tracer) (es : List Expr) (r : Recovery) :
    Traversal.all (enter t) es r = (reachedAll es).foldlM (step t) r := by
  match es with
  | [] =>
      rw [reachedAll]
      rfl
  | e :: es =>
      have positive := e.size_eq
      rw [Traversal.all_cons (enter_prunes t), reachedAll, reached, List.cons_append,
        List.foldlM_cons, enter, step]
      cases visited : visit t e r with
      | error f => rfl
      | ok next =>
          obtain ⟨r', go⟩ := next
          simp only [Outcome.ok_bind, List.foldlM_append]
          rw [visit_enters visited]
          cases isEncoded e with
          | true => exact all_enter_eq_foldlM t es r'
          | false =>
              show Traversal.all (enter t) e.children r' >>= Traversal.all (enter t) es = _
              rw [all_enter_eq_foldlM t e.children r']
              congr 1
              funext r''
              exact all_enter_eq_foldlM t es r''
termination_by Expr.sizeAll es
decreasing_by
  all_goals simp only [Expr.sizeAll]; omega

/-- The walk is one visit after the other along the way. -/
theorem walk_eq_foldlM (t : Tracer) (e : Expr) :
    walk t e = (reached e).foldlM (step t) start := by
  rw [walk_eq, all_enter_eq_foldlM, reachedAll, reachedAll, List.append_nil]

/-! ## The rules -/

inductive Rule where
  | hexadecimal
  | base64
  | buffer
  | resolve
  | join
deriving DecidableEq, Repr

inductive Gives (t : Tracer) (e : Expr) : Rule → Text → Prop
  | hexadecimal {span : Span} {callee first : Expr} {more : List Expr} {digits text : Text}
      (isCall : e = .call span callee (first :: more)) (encoded : encodedText? first = some digits)
      (decodes : Hex.decode digits = .ok text) : Gives t e .hexadecimal text
  | base64 {first : Expr} {more : List Expr} {payload text : Text} {others : List Text}
      (calls : Calls t e "atob" first more)
      (reads : Expr.literals t.literals (first :: more) = payload :: others)
      (decodes : Base64.decode? payload = some text) : Gives t e .base64 text
  | buffer {span : Span} {elements more : List Expr}
      (calls : Calls t e "Buffer.from" (.array span elements) more) :
      Gives t e .buffer (Text.strip (Expr.pieces .empty (.array span elements)).flatten)
  | resolve {span : Span} {value : Text} {more : List Expr}
      (calls : Calls t e "require.resolve" (.string span value) more) : Gives t e .resolve value
  | join {first : Expr} {more : List Expr} {parts : List Text} (calls : Calls t e "path.join" first more)
      (strings : strings? (first :: more) = some parts) : Gives t e .join (Join.path parts)

theorem joins_iff {t : Tracer} {e : Expr} : Joins t e ↔ ∃ text, Gives t e .join text := by
  constructor
  · rintro ⟨span, callee, first, more, parts, isCall, plain, means, strings⟩
    exact ⟨_, .join ⟨span, callee, isCall, plain, means⟩ strings⟩
  · rintro ⟨_, gives⟩
    cases gives with
    | join calls strings =>
        obtain ⟨span, callee, isCall, plain, means⟩ := calls
        exact ⟨span, callee, _, _, _, isCall, plain, means, strings⟩

/-- A visit to a call whose callee has a meaning. -/
theorem step_of_calls {t : Tracer} {e first : Expr} {more : List Expr} {meaning : Text}
    (calls : Calls t e meaning first more) (r : Recovery) :
    step t r e = .ok (decodeCall t meaning first (first :: more) r) := by
  obtain ⟨span, callee, rfl, plain, means⟩ := calls
  rw [step, visit, applyRules, plain]
  simp only [means]
  rfl

/-- A call adds what it gives. -/
theorem step_of_gives {t : Tracer} {e : Expr} {rule : Rule} {text : Text} (gives : Gives t e rule text)
    (r : Recovery) :
    step t r e = .ok ⟨(r.add text).specifiers, r.suspicious && rule ≠ .join⟩ := by
  have kept (rule : Rule) (other : rule ≠ .join) :
      r.add text = ⟨(r.add text).specifiers, r.suspicious && rule ≠ .join⟩ := by
    simp [other, ← add_suspicious r text]
  cases gives with
  | @hexadecimal span callee first more digits _ isCall encoded decodes =>
      rw [isCall, step, visit, applyRules, encoded]
      simp only [decodes]
      exact congrArg Except.ok (kept _ (by decide))
  | base64 calls reads decodes =>
      rw [step_of_calls calls]
      unfold decodeCall
      rw [if_pos rfl, reads]
      simp only [decodes]
      exact congrArg Except.ok (kept _ (by decide))
  | buffer calls =>
      rw [step_of_calls calls, decodeCall, if_neg (by decide), if_pos rfl]
      exact congrArg Except.ok (kept _ (by decide))
  | resolve calls =>
      rw [step_of_calls calls, decodeCall, if_neg (by decide), if_neg (by decide), if_pos rfl]
      exact congrArg Except.ok (kept _ (by decide))
  | join calls strings =>
      rw [step_of_calls calls, decodeCall_join, strings]
      simp

/-- A call adds nothing, unless it gives something. -/
theorem eq_or_gives_of_calls {t : Tracer} {e first : Expr} {more : List Expr} {meaning : Text}
    (calls : Calls t e meaning first more) (r : Recovery) :
    decodeCall t meaning first (first :: more) r = r ∨ ∃ rule text, Gives t e rule text := by
  unfold decodeCall
  split
  case isTrue isDecoder =>
      subst isDecoder
      cases reads : Expr.literals t.literals (first :: more) with
      | nil => exact .inl rfl
      | cons payload others =>
          cases decodes : Base64.decode? payload with
          | none => exact .inl (by simp only [decodes])
          | some text => exact .inr ⟨_, _, .base64 calls reads decodes⟩
  case isFalse =>
      split
      case isTrue isBuffer =>
          subst isBuffer
          cases first with
          | array span elements => exact .inr ⟨_, _, .buffer calls⟩
          | _ => exact .inl rfl
      case isFalse =>
          split
          case isTrue isResolver =>
              subst isResolver
              cases first with
              | string span value => exact .inr ⟨_, _, .resolve calls⟩
              | _ => exact .inl rfl
          case isFalse =>
              split
              case isTrue isJoin =>
                  subst isJoin
                  cases strings : strings? (first :: more) with
                  | none => exact .inl rfl
                  | some parts => exact .inr ⟨_, _, .join calls strings⟩
              case isFalse => exact .inl rfl

theorem eq_or_gives_of_step {t : Tracer} {e : Expr} {r r' : Recovery}
    (stepped : step t r e = .ok r') : r' = r ∨ ∃ rule text, Gives t e rule text := by
  obtain ⟨⟨r', go⟩, visited, stepped⟩ := Outcome.bind_eq_ok_iff.1 stepped
  cases stepped
  rcases visit_cases visited with
    ⟨span, callee, first, more, digits, text, isCall, encoded, decodes, _⟩ |
    ⟨meaning, first, more, calls, rfl, _⟩ | ⟨_, _, rfl, _⟩
  · exact .inr ⟨_, _, .hexadecimal isCall encoded decodes⟩
  · exact eq_or_gives_of_calls calls r
  · exact .inl rfl

theorem mem_add {r : Recovery} {text s : Text} :
    s ∈ (r.add text).specifiers ↔ s ∈ r.specifiers ∨ s ≠ [] ∧ s = text := by
  unfold add
  split
  case isTrue known => grind
  case isFalse new => grind

/-- A visit adds the specifier that the call gives. -/
theorem mem_specifiers_of_step {t : Tracer} {e : Expr} {r r' : Recovery}
    (stepped : step t r e = .ok r') (s : Text) :
    s ∈ r'.specifiers ↔ s ∈ r.specifiers ∨ s ≠ [] ∧ ∃ rule, Gives t e rule s := by
  constructor
  · intro inside
    rcases eq_or_gives_of_step stepped with rfl | ⟨rule, text, gives⟩
    · exact .inl inside
    · rw [step_of_gives gives] at stepped
      cases stepped
      rcases mem_add.1 inside with old | ⟨nonempty, rfl⟩
      · exact .inl old
      · exact .inr ⟨nonempty, rule, gives⟩
  · rintro (old | ⟨nonempty, rule, gives⟩)
    · rcases eq_or_gives_of_step stepped with rfl | ⟨rule, text, gives⟩
      · exact old
      · rw [step_of_gives gives] at stepped
        cases stepped
        exact mem_add.2 (.inl old)
    · rw [step_of_gives gives] at stepped
      cases stepped
      exact mem_add.2 (.inr ⟨nonempty, rfl⟩)

/-- A visit lifts the suspicion if the call joins. -/
theorem cleared_of_step {t : Tracer} {e : Expr} {r r' : Recovery}
    (stepped : step t r e = .ok r') :
    r'.suspicious = false ↔ r.suspicious = false ∨ ∃ text, Gives t e .join text := by
  obtain ⟨⟨r', go⟩, visited, stepped⟩ := Outcome.bind_eq_ok_iff.1 stepped
  cases stepped
  rw [visit_suspicious visited, joins_iff]

/-! ## What the walk ends with -/

/-- The recovered specifiers are what the calls on the way give. -/
theorem mem_specifiers_iff {t : Tracer} {e : Expr} {r : Recovery} (done : walk t e = .ok r)
    (s : Text) :
    s ∈ r.specifiers ↔ s ≠ [] ∧ ∃ inner ∈ reached e, ∃ rule, Gives t inner rule s := by
  rw [walk_eq_foldlM] at done
  rw [Outcome.gains_of_foldlM (P := (s ∈ ·.specifiers))
    (fun _ _ _ stepped => mem_specifiers_of_step stepped s) done]
  constructor
  · rintro (none | ⟨inner, inside, nonempty, gives⟩)
    · cases none
    · exact ⟨nonempty, inner, inside, gives⟩
  · rintro ⟨nonempty, inner, inside, gives⟩
    exact .inr ⟨inner, inside, nonempty, gives⟩

/-- The suspicion is lifted if some call on the way joins. -/
theorem cleared_iff {t : Tracer} {e : Expr} {r : Recovery} (done : walk t e = .ok r) :
    r.suspicious = false ↔ ∃ inner ∈ reached e, ∃ text, Gives t inner .join text := by
  rw [walk_eq_foldlM] at done
  rw [Outcome.gains_of_foldlM (P := (·.suspicious = false))
    (fun _ _ _ stepped => cleared_of_step stepped) done]
  simp [start]

/-- Whatever the calls on the way give that is not empty, they give by joining. -/
def OnlyJoins (t : Tracer) (e : Expr) : Prop :=
  ∀ inner ∈ reached e, ∀ rule text, Gives t inner rule text → text ≠ [] → rule = .join

/-- **A load is cleared soundly exactly if nothing but joins, or no join at all, is on the way.**
With nothing but joins every recovered specifier is a joined path.  Otherwise some specifier has been
recovered by another rule, and a single join on the way clears it too. -/
theorem cleared_only_by_joins_iff {t : Tracer} {e : Expr} {r : Recovery} (done : walk t e = .ok r) :
    ((r.suspicious = false → OnlyJoins t e) ↔
      OnlyJoins t e ∨ ∀ inner ∈ reached e, ∀ text, ¬ Gives t inner .join text) ∧
    (OnlyJoins t e → ∀ s ∈ r.specifiers, ∃ inner ∈ reached e, Gives t inner .join s) ∧
    (¬ OnlyJoins t e → ∃ s ∈ r.specifiers, ∃ inner ∈ reached e, ∃ rule, rule ≠ .join ∧
      Gives t inner rule s) := by
  refine ⟨?_, ?_, ?_⟩
  · rw [cleared_iff done]
    constructor
    · intro sound
      by_cases joined : ∃ inner ∈ reached e, ∃ text, Gives t inner .join text
      · exact .inl (sound joined)
      · exact .inr fun inner inside text gives => joined ⟨inner, inside, text, gives⟩
    · rintro (only | unjoined) ⟨inner, inside, text, gives⟩
      · exact only
      · exact absurd gives (unjoined inner inside text)
  · intro only s recovered
    obtain ⟨nonempty, inner, inside, rule, gives⟩ := (mem_specifiers_iff done s).1 recovered
    cases only inner inside rule s gives nonempty
    exact ⟨inner, inside, gives⟩
  · intro other
    simp only [OnlyJoins, not_forall] at other
    obtain ⟨inner, inside, rule, s, gives, nonempty, disguised⟩ := other
    have recovered := (mem_specifiers_iff done s).2 ⟨nonempty, inner, inside, rule, gives⟩
    exact ⟨s, recovered, inner, inside, rule, disguised, gives⟩

theorem eq_call_of_gives {t : Tracer} {e : Expr} {rule : Rule} {text : Text}
    (gives : Gives t e rule text) : ∃ span callee arguments, e = .call span callee arguments := by
  cases gives with
  | hexadecimal isCall => exact ⟨_, _, _, isCall⟩
  | base64 calls | buffer calls | resolve calls | join calls =>
      obtain ⟨span, callee, isCall, _⟩ := calls
      exact ⟨span, callee, _, isCall⟩

/-- A call that joins gives by no other rule. -/
theorem eq_join_of_gives {t : Tracer} {e : Expr} {rule : Rule} {text joined : Text}
    (gives : Gives t e rule text) (joins : Gives t e .join joined) : rule = .join := by
  have same := (step_of_gives gives start).symm.trans (step_of_gives joins start)
  rw [Except.ok.injEq, Recovery.mk.injEq] at same
  simpa [start] using same.2

/-- `path.join(...)`. -/
def joinOf (parts : List Text) : Expr :=
  .call .unknown
    (.member .unknown (.identifier .unknown "path") (.identifier .unknown "join") false)
    (parts.map (.string .unknown))

/-- `path.join("lib", "../index.js")` is cleared, and its specifier is the joined path. -/
theorem joinOf_cleared :
    OnlyJoins .default (joinOf ["lib", "../index.js"]) ∧
    ∃ r, walk .default (joinOf ["lib", "../index.js"]) = .ok r ∧ r.suspicious = false ∧
      r.specifiers = ["index.js"] ∧
      ∀ s ∈ r.specifiers, ∃ inner ∈ reached (joinOf ["lib", "../index.js"]),
        Gives .default inner .join s := by
  have gives : Gives .default (joinOf ["lib", "../index.js"]) .join
      (Join.path ["lib", "../index.js"]) := .join ⟨_, _, rfl, rfl, rfl⟩ rfl
  have only : OnlyJoins .default (joinOf ["lib", "../index.js"]) := by
    intro inner inside rule text given _
    obtain ⟨span, callee, arguments, isCall⟩ := eq_call_of_gives given
    have same : inner = joinOf ["lib", "../index.js"] := by
      subst isCall
      simpa [joinOf, reached, reachedAll, isEncoded, Expr.children, encodedText?] using inside
    subst same
    exact eq_join_of_gives given gives
  have done : walk .default (joinOf ["lib", "../index.js"]) = .ok ⟨["index.js"], false⟩ := rfl
  exact ⟨only, _, done, rfl, rfl, (cleared_only_by_joins_iff done).2.1 only⟩

/-- `atob("Zm9v")`. -/
def decoderOfFoo : Expr :=
  .call .unknown (.identifier .unknown "atob") [.string .unknown "Zm9v"]

/-- `f(path.join("a"), atob("Zm9v"))`. -/
def joinBesideDecoder : Expr :=
  .call .unknown (.identifier .unknown "f") [joinOf ["a"], decoderOfFoo]

/-- The join clears the load, although `foo` was decoded. -/
theorem joinBesideDecoder_cleared :
    (∀ inner ∈ joinBesideDecoder.within, inner.isMissing = false) ∧
    walk .default joinBesideDecoder = .ok ⟨["a", "foo"], false⟩ ∧
    decoderOfFoo ∈ reached joinBesideDecoder ∧ Gives .default decoderOfFoo .base64 "foo" := by
  refine ⟨by decide, rfl, ?_, .base64 ⟨_, _, rfl, rfl, rfl⟩ rfl rfl⟩
  simp [joinBesideDecoder, joinOf, reached, reachedAll, isEncoded, Expr.children, encodedText?]

end Recovery

end HiddenLoads
