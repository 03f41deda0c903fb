/-
# HiddenLoads.Proofs.PrunedOrder -- the walk as a list of calls

The walk through the argument of a load keeps a stack and a list of what it has recovered.  What it
computes can be said without either.  A call is reached if no call around it has encoded text as its
first argument (`Recovery.ReachedCall`).  Each rule by itself gives a text at some calls
(`Rule.text?`), and of the rules that do, the first one counts (`Recovery.recovered?`).

The recovered specifiers are the texts of the reached calls in source order, without the empty ones
and without repetitions (`Recovery.specifiers_eq_texts_of_reached`).  One visit adds the text of one
call (`Lists.enter`), and the visits of a whole walk are the reached places, each once and in source
order.
-/
import HiddenLoads.Proofs.Rules
import HiddenLoads.Proofs.Tour

namespace HiddenLoads

set_option autoImplicit false

open Traversal

namespace Traversal.Covers

/-- If skipping depends on the expression alone, the stops are the places that do not lie below an
expression which is skipped. -/
theorem mem_iff_of_skips {σ : Type} {skips : Expr → Prop} {root : Expr} {stops : List (Stop σ)}
    (covers : Covers (fun e _ => skips e) root.at? stops) (place : List Nat) :
    place ∈ stops.map (·.place) ↔ (∃ e, root.at? place = some e) ∧
      ∀ above outer, above <+: place → above ≠ place → root.at? above = some outer →
        ¬ skips outer := by
  rw [covers.mem_iff]
  refine and_congr_right fun _ => ⟨fun way => ?_, fun clear stop isStop above other => ?_⟩
  · intro above outer isAbove other located
    -- What stands above a place with an open way has an open way itself, so it is a stop.
    have upper : Open (fun e _ => skips e) stops above := by
      intro stop isStop higher _
      apply way stop isStop (higher.trans isAbove)
      intro same
      rw [same] at higher
      exact other (isAbove.eq_of_length_le higher.length_le)
    obtain ⟨stop, isStop, rfl⟩ :=
      List.mem_map.1 ((covers.mem_iff above).2 ⟨⟨outer, located⟩, upper⟩)
    have here := covers.located stop isStop
    rw [located, Option.some.injEq] at here
    rw [here]
    exact way stop isStop isAbove other
  · exact clear stop.place stop.expr above other (covers.located stop isStop)

end Traversal.Covers

namespace Recovery

/-! ## The rules one by one -/

def means (t : Tracer) (callee : Expr) (meaning : Text) : Bool :=
  match calleeMeaning? t callee with
  | .ok (some found) => found = meaning
  | _ => false

/-- What a rule gives at a call, whatever the other rules say. -/
def Rule.text? (t : Tracer) (callee first : Expr) (arguments : List Expr) : Rule → Option Text
  | .hexadecimal => (encodedText? first).bind fun digits => (Hex.decode digits).toOption
  | .base64 =>
      if means t callee "atob" then (Expr.literals t.literals arguments).head?.bind Base64.decode?
      else none
  | .buffer =>
      match means t callee "Buffer.from", first with
      | true, .array span elements =>
          some (Text.strip (Expr.pieces .empty (.array span elements)).flatten)
      | _, _ => none
  | .resolve =>
      match means t callee "require.resolve", first with
      | true, .string _ value => some value
      | _, _ => none
  | .join => if means t callee "path.join" then (strings? arguments).map Join.path else none

def Rule.inOrder : List Rule := [.hexadecimal, .base64, .buffer, .resolve, .join]

/-- The text that the first rule gives which applies to a call with arguments. -/
def recovered? (t : Tracer) : Expr → Option Text
  | .call _ callee (first :: more) =>
      Rule.inOrder.findSome? fun rule => rule.text? t callee first (first :: more)
  | _ => none

theorem means_iff {t : Tracer} {callee : Expr} {meaning : Text} :
    means t callee meaning = true ↔ calleeMeaning? t callee = .ok (some meaning) := by
  unfold means
  split
  case h_1 found means => simp [means]
  case h_2 other =>
      simp only [Bool.false_eq_true, false_iff]
      exact other meaning

/-- A call that gives something by a rule gives it by the first rule that applies. -/
theorem recovered?_of_gives {t : Tracer} {e : Expr} {rule : Rule} {text : Text}
    (gives : Gives t e rule text) : recovered? t e = some text := by
  have only {callee : Expr} {meaning : Text}
      (isMeaning : calleeMeaning? t callee = .ok (some meaning)) (other : Text) :
      means t callee other = decide (meaning = other) := by
    simp [means, isMeaning]
  cases gives with
  | hexadecimal isCall encoded decodes =>
      subst isCall
      simp [recovered?, Rule.inOrder, Rule.text?, encoded, decodes, Except.toOption]
  | base64 calls reads decodes =>
      obtain ⟨span, callee, rfl, plain, isMeaning⟩ := calls
      simp [recovered?, Rule.inOrder, Rule.text?, plain, only isMeaning, reads, decodes]
  | buffer calls =>
      obtain ⟨span, callee, rfl, plain, isMeaning⟩ := calls
      have notDecoder : ("Buffer.from" : Text) ≠ ("atob" : String) := by decide
      simp [recovered?, Rule.inOrder, Rule.text?, plain, only isMeaning, notDecoder]
  | resolve calls =>
      obtain ⟨span, callee, rfl, plain, isMeaning⟩ := calls
      have notDecoder : ("require.resolve" : Text) ≠ ("atob" : String) := by decide
      have notBuffer : ("require.resolve" : Text) ≠ ("Buffer.from" : String) := by decide
      simp [recovered?, Rule.inOrder, Rule.text?, plain, only isMeaning, notDecoder, notBuffer]
  | join calls strings =>
      obtain ⟨span, callee, rfl, plain, isMeaning⟩ := calls
      have notDecoder : ("path.join" : Text) ≠ ("atob" : String) := by decide
      have notBuffer : ("path.join" : Text) ≠ ("Buffer.from" : String) := by decide
      have notResolver : ("path.join" : Text) ≠ ("require.resolve" : String) := by decide
      simp [recovered?, Rule.inOrder, Rule.text?, plain, only isMeaning, notDecoder, notBuffer,
        notResolver, strings]

/-- A rule that applies to a call without encoded text makes the call give what the rule says. -/
theorem gives_of_text? {t : Tracer} {callee first : Expr} {more : List Expr} {rule : Rule}
    {text : Text} (span : Span) (plain : encodedText? first = none)
    (applies : rule.text? t callee first (first :: more) = some text) :
    Gives t (.call span callee (first :: more)) rule text := by
  cases rule with
  | hexadecimal => simp [Rule.text?, plain] at applies
  | base64 =>
      rw [Rule.text?, Option.ite_none_right_eq_some, Option.bind_eq_some_iff] at applies
      obtain ⟨isMeaning, payload, reads, decodes⟩ := applies
      obtain ⟨others, reads⟩ := List.head?_eq_some_iff.1 reads
      exact .base64 ⟨span, callee, rfl, plain, means_iff.1 isMeaning⟩ reads decodes
  | buffer =>
      simp only [Rule.text?] at applies
      split at applies
      case h_1 isMeaning =>
          cases applies
          exact .buffer ⟨span, callee, rfl, plain, means_iff.1 isMeaning⟩
      case h_2 => cases applies
  | resolve =>
      simp only [Rule.text?] at applies
      split at applies
      case h_1 isMeaning =>
          cases applies
          exact .resolve ⟨span, callee, rfl, plain, means_iff.1 isMeaning⟩
      case h_2 => cases applies
  | join =>
      rw [Rule.text?, Option.ite_none_right_eq_some, Option.map_eq_some_iff] at applies
      obtain ⟨isMeaning, parts, strings, rfl⟩ := applies
      exact .join ⟨span, callee, rfl, plain, means_iff.1 isMeaning⟩ strings

/-- Where the walk has been, the first rule that applies says what a call gives. -/
theorem recovered?_eq_some_iff {t : Tracer} {e : Expr} {r r' : Recovery} {go : Bool} {text : Text}
    (visited : visit t e r = .ok (r', go)) :
    recovered? t e = some text ↔ ∃ rule, Gives t e rule text := by
  refine ⟨fun recovers => ?_, fun ⟨rule, gives⟩ => recovered?_of_gives gives⟩
  cases encoded : isEncoded e with
  | true =>
      -- Encoded text has been decoded, or the visit would have failed.
      rcases visit_cases visited with
        ⟨_, _, _, _, _, _, isCall, isEncoded, decodes, _⟩ | ⟨_, _, _, ⟨_, _, rfl, plain, _⟩, _⟩ |
        ⟨plain, _⟩
      · have gives := Gives.hexadecimal (t := t) isCall isEncoded decodes
        rw [recovered?_of_gives gives, Option.some.injEq] at recovers
        exact ⟨_, recovers ▸ gives⟩
      · simp [isEncoded, plain] at encoded
      · rw [plain] at encoded
        cases encoded
  | false =>
      unfold recovered? at recovers
      split at recovers
      case h_1 span callee first more =>
          have plain : encodedText? first = none := by simpa [isEncoded] using encoded
          obtain ⟨rule, _, applies⟩ := List.exists_of_findSome?_eq_some recovers
          exact ⟨rule, gives_of_text? span plain applies⟩
      case h_2 => cases recovers

/-! ## One visit and the whole walk -/

/-- The specifiers are these texts, without the empty ones and without repetitions. -/
def Lists (texts : List Text) (r : Recovery) : Prop :=
  r.specifiers = (texts.filter (· ≠ [])).eraseDups

theorem lists_start : Lists [] start := rfl

/-- One more text is added unless it is empty or known. -/
theorem Lists.add {texts : List Text} {r : Recovery} (lists : Lists texts r) (text : Text) :
    Lists (texts ++ [text]) (r.add text) := by
  unfold Lists at lists ⊢
  have known : text ∈ r.specifiers ↔ text ∈ texts ∧ text ≠ [] := by
    rw [lists, List.mem_eraseDups]
    simp
  rw [List.filter_append, List.eraseDups_append, ← lists, Recovery.add]
  by_cases empty : text = []
  · simp [empty]
  · by_cases old : text ∈ texts
    · simp [known, empty, old, List.removeAll]
    · simp [known, empty, old, List.removeAll, List.eraseDups_cons]

/-- **One step.**  A visit adds the text of the call that it comes to. -/
theorem Lists.enter {t : Tracer} {e : Expr} {texts : List Text} {r r' : Recovery}
    {inside : List Expr} (lists : Lists texts r) (entered : enter t e r = .ok (r', inside)) :
    Lists (texts ++ (recovered? t e).toList) r' := by
  obtain ⟨⟨r', go⟩, visited, entered⟩ := Outcome.bind_eq_ok_iff.1 entered
  cases entered
  have stepped : step t r e = .ok r' := by rw [step, visited, Outcome.ok_bind]
  cases recovers : recovered? t e with
  | some text =>
      obtain ⟨rule, gives⟩ := (recovered?_eq_some_iff visited).1 recovers
      rw [step_of_gives gives] at stepped
      cases stepped
      exact lists.add text
  | none =>
      have silent : ∀ rule text, ¬ Gives t e rule text := by
        intro rule text gives
        rw [recovered?_of_gives gives] at recovers
        cases recovers
      rcases eq_or_gives_of_step stepped with rfl | ⟨rule, text, gives⟩
      · simpa using lists
      · exact absurd gives (silent rule text)

/-- **A whole run.**  The walk lists the texts of the calls that it comes to, in order. -/
theorem Lists.takes {t : Tracer} {stack : List Expr} {texts : List Text} {r r' : Recovery}
    {log : List (Expr × Recovery)} (lists : Lists texts r)
    (takes : Takes (Recovery.enter t) stack r log r') :
    Lists (texts ++ log.filterMap fun entry => recovered? t entry.1) r' := by
  induction takes generalizing texts with
  | done r => simpa using lists
  | @take e stack inside r r₁ r' log entered _ ih =>
      have rest := ih (lists.enter entered)
      rw [List.append_assoc] at rest
      cases recovers : recovered? t e with
      | some text => simpa [recovers] using rest
      | none => simpa [recovers] using rest

/-- The suspicion is lifted if some call that the walk comes to joins. -/
theorem cleared_of_takes {t : Tracer} {stack : List Expr} {r r' : Recovery}
    {log : List (Expr × Recovery)} (takes : Takes (enter t) stack r log r') :
    r'.suspicious = false ↔ r.suspicious = false ∨ ∃ entry ∈ log, Joins t entry.1 := by
  induction takes with
  | done r => simp
  | @take e stack inside r r₁ r' log entered _ ih =>
      rw [ih, enter_suspicious entered, or_assoc]
      simp

theorem enter_skipsBy (t : Tracer) : SkipsBy (enter t) fun e _ => isEncoded e = true := by
  intro e r r' inside entered
  obtain ⟨⟨r', go⟩, visited, entered⟩ := Outcome.bind_eq_ok_iff.1 entered
  cases entered
  simp only [visit_enters visited]
  cases encoded : isEncoded e <;> simp

/-! ## The calls that the walk reaches -/

/-- A call with arguments stands at the place, and no call around it has encoded text. -/
structure ReachedCall (e : Expr) (place : List Nat) (call : Expr) : Prop where
  located : e.at? place = some call
  isCall : ∃ span callee first more, call = .call span callee (first :: more)
  clear : ∀ above outer, above <+: place → above ≠ place → e.at? above = some outer →
    isEncoded outer = false

def hasArguments : Expr → Bool
  | .call _ _ (_ :: _) => true
  | _ => false

theorem hasArguments_iff {e : Expr} :
    hasArguments e = true ↔ ∃ span callee first more, e = .call span callee (first :: more) := by
  unfold hasArguments
  split
  case h_1 => simp
  case h_2 other =>
      simp only [Bool.false_eq_true, false_iff]
      rintro ⟨span, callee, first, more, rfl⟩
      exact other span callee first more rfl

theorem recovered?_of_bare {t : Tracer} {e : Expr} (bare : hasArguments e = false) :
    recovered? t e = none := by
  unfold recovered?
  split
  · cases bare
  · rfl

/-- A join is a call with arguments. -/
theorem hasArguments_of_joins {t : Tracer} {e : Expr} (joins : Joins t e) :
    hasArguments e = true := by
  obtain ⟨span, callee, first, more, _, isCall, _⟩ := joins
  exact hasArguments_iff.2 ⟨span, callee, first, more, isCall⟩

def callsAmong (stops : List (Stop Recovery)) : List (List Nat × Expr) :=
  (stops.filter fun stop => hasArguments stop.expr).map fun stop => (stop.place, stop.expr)

section Stops

variable {e : Expr} {stops : List (Stop Recovery)}
  (covers : Covers (fun e _ => isEncoded e = true) e.at? stops)

include covers

theorem mem_callsAmong {place : List Nat} {call : Expr} :
    (place, call) ∈ callsAmong stops ↔ ReachedCall e place call := by
  have isStop := covers.mem_iff_of_skips place
  simp only [Bool.not_eq_true] at isStop
  constructor
  · intro inside
    obtain ⟨stop, member, same⟩ := List.mem_map.1 inside
    obtain ⟨member, isCall⟩ := List.mem_filter.1 member
    cases same
    exact ⟨covers.located stop member, hasArguments_iff.1 isCall,
      (isStop.1 (List.mem_map_of_mem member)).2⟩
  · rintro ⟨located, isCall, clear⟩
    obtain ⟨stop, member, rfl⟩ := List.mem_map.1 (isStop.2 ⟨⟨call, located⟩, clear⟩)
    have here := covers.located stop member
    rw [located, Option.some.injEq] at here
    subst here
    exact List.mem_map.2 ⟨stop, List.mem_filter.2 ⟨member, hasArguments_iff.2 isCall⟩, rfl⟩

theorem callsAmong_ordered : ((callsAmong stops).map (·.1)).Pairwise (· < ·) := by
  have ordered := List.pairwise_map.1 covers.ordered
  rw [callsAmong, List.map_map, List.pairwise_map]
  exact ordered.filter _

/-- A join among the stops is a join among the reached calls. -/
theorem exists_joins_iff (t : Tracer) :
    (∃ entry ∈ stops.map Stop.entry, Joins t entry.1) ↔
      ∃ place call, ReachedCall e place call ∧ Joins t call := by
  constructor
  · rintro ⟨entry, inside, joins⟩
    obtain ⟨stop, member, rfl⟩ := List.mem_map.1 inside
    refine ⟨stop.place, stop.expr, (mem_callsAmong covers).1 ?_, joins⟩
    exact List.mem_map.2 ⟨stop, List.mem_filter.2 ⟨member, hasArguments_of_joins joins⟩, rfl⟩
  · rintro ⟨place, call, reached, joins⟩
    obtain ⟨stop, member, same⟩ := List.mem_map.1 ((mem_callsAmong covers).2 reached)
    cases same
    exact ⟨stop.entry, List.mem_map_of_mem (List.mem_filter.1 member).1, joins⟩

end Stops

/-- Only calls with arguments give texts. -/
theorem texts_callsAmong (t : Tracer) (stops : List (Stop Recovery)) :
    (callsAmong stops).filterMap (fun call => recovered? t call.2) =
      (stops.map Stop.entry).filterMap fun entry => recovered? t entry.1 := by
  rw [callsAmong, List.filterMap_map, List.filterMap_map, List.filterMap_filter]
  congr 1
  funext stop
  cases bare : hasArguments stop.expr with
  | true => rfl
  | false => exact (recovered?_of_bare bare).symm

/-- **The walk is a pruned listing of calls.**  The calls with arguments that no call with encoded
text encloses are listed by their places, in source order.  The recovered specifiers are what the
first rule that applies gives at these calls, in that order, without the empty texts and without
repetitions.  The suspicion is lifted exactly if one of these calls is a `path.join` of nothing but
strings, of which the first is no encoded text. -/
theorem specifiers_eq_texts_of_reached {t : Tracer} {e : Expr} {r : Recovery}
    (done : walk t e = .ok r) :
    ∃ calls : List (List Nat × Expr),
      (calls.map (·.1)).Pairwise (· < ·) ∧
      (∀ place call, (place, call) ∈ calls ↔ ReachedCall e place call) ∧
      r.specifiers =
        ((calls.filterMap fun call => recovered? t call.2).filter (· ≠ [])).eraseDups ∧
      (r.suspicious = false ↔ ∃ place call, ReachedCall e place call ∧ Joins t call) := by
  rw [walk_eq] at done
  obtain ⟨stops, takes, covers⟩ := exists_covers (enter_prunes t) (enter_skipsBy t) done
  refine ⟨callsAmong stops, callsAmong_ordered covers, fun _ _ => mem_callsAmong covers, ?_, ?_⟩
  · rw [texts_callsAmong]
    exact lists_start.takes takes
  · rw [cleared_of_takes takes, exists_joins_iff covers t]
    simp [start]

/-- `f(atob("Zm9v"), g("666f6f", atob("YmFy")), path.join("a"))`. -/
def decodersAndJoin : Expr :=
  .call .unknown (.identifier .unknown "f")
    [decoderOfFoo,
      .call .unknown (.identifier .unknown "g")
        [.string .unknown "666f6f",
          .call .unknown (.identifier .unknown "atob") [.string .unknown "YmFy"]],
      joinOf ["a"]]

/-- The text `foo` is recovered twice and listed once, and `bar` stands inside a call with encoded
text. -/
theorem decodersAndJoin_listed :
    walk .default decodersAndJoin = .ok ⟨["foo", "a"], false⟩ ∧
    recovered? .default decoderOfFoo = some "foo" ∧
    (∃ calls : List (List Nat × Expr), ([1], decoderOfFoo) ∈ calls ∧
      (∀ call, ([2, 2], call) ∉ calls) ∧
      ((calls.filterMap fun call => recovered? .default call.2).filter (· ≠ [])).eraseDups =
        ["foo", "a"]) ∧
    ∃ place call, ReachedCall decodersAndJoin place call ∧ Joins .default call := by
  have done : walk .default decodersAndJoin = .ok ⟨["foo", "a"], false⟩ := rfl
  obtain ⟨calls, _, listed, specifiers, cleared⟩ := specifiers_eq_texts_of_reached done
  refine ⟨done, rfl, ⟨calls, ?_, ?_, specifiers.symm⟩, cleared.1 rfl⟩
  · rw [listed]
    refine ⟨rfl, ⟨_, _, _, _, rfl⟩, fun above outer isAbove other located => ?_⟩
    -- Only the whole argument stands above its first argument.
    cases above with
    | nil =>
        cases located
        rfl
    | cons i above =>
        simp at isAbove other
        exact absurd isAbove.2 (other isAbove.1)
  · intro call inside
    have encoded := ((listed _ _).1 inside).clear [2] _ (by simp) (by simp) rfl
    cases encoded

end Recovery

end HiddenLoads
