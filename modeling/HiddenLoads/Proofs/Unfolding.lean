/-
# HiddenLoads.Proofs.Unfolding -- words whose first letter is unfolded

Following a dotted name replaces its first segment, again and again, by what that segment
stands for.  Seen from afar this is a stack machine without states: a word is a stack, its
first letter is the top, and a step replaces the top by a word.  Some words settle, and then
no step is made; but a word that is long enough never does (`Unfolding.SettlesBelow`).

Such a machine grows beyond all bounds exactly when some letter comes back with a growth
behind it while what stood below it is untouched:

* `carry`: what lies below is carried along as it is, whatever it is, so a stretch of steps
  above one long rest can be replayed above any other;
* `exists_regrowth`: a trail that climbs far enough has two places with the same letter on
  top, the later one above the earlier one (the last visits to `keys.length + 1` levels, and
  one letter fewer to be on top there);
* `length_le_of_nodup`: there are only so many words of bounded length.
-/
import Mathlib.Data.Finset.Card
import Mathlib.Data.Finset.Option
import Mathlib.Data.Fintype.Pi
import Mathlib.Data.Fintype.BigOperators
import Mathlib.Data.Nat.Find
import Mathlib.Logic.Relation

namespace HiddenLoads

set_option autoImplicit false

/-- A way to unfold first letters, and the words on which it comes to rest. -/
structure Unfolding (σ : Type) where
  settles : List σ → Bool
  unfold : σ → Option (List σ)

namespace Unfolding

variable {σ : Type} (u : Unfolding σ)

def next : List σ → Option (List σ)
  | [] => none
  | head :: rest =>
      if u.settles (head :: rest) then none else (u.unfold head).map (· ++ rest)

def Next (v w : List σ) : Prop := u.next v = some w

def SettlesBelow (bound : Nat) : Prop :=
  ∀ w : List σ, u.settles w = true → w.length ≤ bound

/-- The first `n` steps of `x` are steps of the unfolding. -/
def Trail (x : Nat → List σ) (n : Nat) : Prop :=
  ∀ i < n, u.next (x i) = some (x (i + 1))

theorem next_cons_eq_some {head : σ} {rest w : List σ} :
    u.next (head :: rest) = some w ↔
      u.settles (head :: rest) = false ∧ ∃ v, u.unfold head = some v ∧ w = v ++ rest := by
  simp only [next]
  cases u.settles (head :: rest) with
  | true => simp
  | false =>
      simp only [Bool.false_eq_true, if_false, true_and, Option.map_eq_some_iff]
      exact ⟨fun ⟨v, h, e⟩ => ⟨v, h, e.symm⟩, fun ⟨v, h, e⟩ => ⟨v, h, e.symm⟩⟩

variable {u}

theorem Next.cons {v w : List σ} (step : u.Next v w) :
    ∃ head rest piece, v = head :: rest ∧ u.unfold head = some piece ∧ w = piece ++ rest := by
  cases v with
  | nil => simp [Next, next] at step
  | cons head rest =>
      obtain ⟨-, piece, unfolds, rfl⟩ := (u.next_cons_eq_some).1 step
      exact ⟨head, rest, piece, rfl, unfolds, rfl⟩

theorem Trail.step {x : Nat → List σ} {n i : Nat} (trail : u.Trail x n) (h : i < n) :
    u.Next (x i) (x (i + 1)) := trail i h

/-- A trail may be entered later. -/
theorem Trail.drop {x : Nat → List σ} {n : Nat} (trail : u.Trail x n) (m : Nat) (h : m ≤ n) :
    u.Trail (fun i => x (m + i)) (n - m) :=
  fun i hi => trail (m + i) (by omega)

theorem Trail.mono {x : Nat → List σ} {m n : Nat} (trail : u.Trail x n) (h : m ≤ n) :
    u.Trail x m :=
  fun i hi => trail i (by omega)

/-- What leads to one another is joined by a trail. -/
theorem exists_trail {α : Type} {r : α → α → Prop} {a b : α} (leads : Relation.ReflTransGen r a b) :
    ∃ (x : Nat → α) (n : Nat), x 0 = a ∧ x n = b ∧ (∀ i < n, r (x i) (x (i + 1))) ∧
      ∀ i ≤ n, Relation.ReflTransGen r a (x i) := by
  induction leads using Relation.ReflTransGen.head_induction_on with
  | refl => exact ⟨fun _ => b, 0, rfl, rfl, fun i hi => by omega, fun _ _ => .refl⟩
  | @head a c step _ ih =>
      obtain ⟨x, n, start, stop, trail, reach⟩ := ih
      refine ⟨fun i => if i = 0 then a else x (i - 1), n + 1, rfl, by simpa using stop, ?_, ?_⟩
      · intro i hi
        cases i with
        | zero => simpa [start] using step
        | succ i => simpa using trail i (by omega)
      · intro i hi
        cases i with
        | zero => exact .refl
        | succ i => simpa using (Relation.ReflTransGen.single step).trans (reach i (by omega))

/-! ## Carrying the rest along -/

/-- While the word stays longer than `rest`, the letters above `rest` are unfolded and `rest`
is carried along; so they are above any other word on which nothing settles. -/
theorem carry {x : Nat → List σ} {n : Nat} (trail : u.Trail x n) (top rest : List σ)
    (start : x 0 = top ++ rest) (above : ∀ i ≤ n, rest.length < (x i).length) :
    ∃ top', top' ≠ [] ∧ x n = top' ++ rest ∧
      ∀ other : List σ, u.SettlesBelow other.length →
        Relation.ReflTransGen u.Next (top ++ other) (top' ++ other) ∧
          (0 < n → Relation.TransGen u.Next (top ++ other) (top' ++ other)) := by
  induction n with
  | zero =>
      refine ⟨top, ?_, start, fun other _ => ⟨.refl, fun h => by omega⟩⟩
      rintro rfl
      have := above 0 (le_refl 0)
      rw [start] at this
      simp at this
  | succ n ih =>
      obtain ⟨top₁, nonempty, here, replay⟩ :=
        ih (fun i hi => trail i (by omega)) (fun i hi => above i (by omega))
      obtain ⟨head, more, rfl⟩ := List.exists_cons_of_ne_nil nonempty
      have step := trail n (by omega)
      rw [here, List.cons_append, u.next_cons_eq_some] at step
      obtain ⟨-, piece, unfolds, there⟩ := step
      refine ⟨piece ++ more, ?_, by rw [there, List.append_assoc], fun other settled => ?_⟩
      · intro empty
        have := above (n + 1) (le_refl _)
        rw [there, ← List.append_assoc, empty] at this
        simp at this
      · obtain ⟨before, -⟩ := replay other settled
        have last : u.Next (head :: more ++ other) (piece ++ more ++ other) := by
          rw [Next, List.cons_append, u.next_cons_eq_some]
          refine ⟨?_, piece, unfolds, by rw [List.append_assoc]⟩
          cases rests : u.settles (head :: (more ++ other)) with
          | false => rfl
          | true =>
              have := settled _ rests
              simp only [List.length_cons, List.length_append] at this
              omega
        have whole := Relation.TransGen.tail' before last
        exact ⟨whole.to_reflTransGen, fun _ => whole⟩

/-- A letter that comes back with a growth above an untouched rest does so above every rest on
which nothing settles. -/
theorem regrows_above {x : Nat → List σ} {i j : Nat} {head : σ} {growth rest : List σ}
    (trail : u.Trail x j) (order : i < j) (first : x i = head :: rest)
    (second : x j = head :: (growth ++ rest))
    (above : ∀ k, i ≤ k → k ≤ j → rest.length < (x k).length)
    (other : List σ) (settled : u.SettlesBelow other.length) :
    Relation.TransGen u.Next (head :: other) (head :: (growth ++ other)) := by
  obtain ⟨top, -, there, replay⟩ :=
    carry (trail.drop i (by omega)) [head] rest (by simpa using first)
      (fun k hk => above (i + k) (by omega) (by omega))
  have arrives : i + (j - i) = j := by omega
  simp only [arrives, second] at there
  have same : top = head :: growth :=
    (List.append_cancel_right (by simpa using there)).symm
  subst same
  simpa using (replay other settled).2 (by omega)

/-! ## Climbing -/

section Climb

variable {x : Nat → List σ} {n width bottom : Nat}

/-- The last place of a trail of `n` steps whose word has at most `level` letters. -/
def lastBelow (x : Nat → List σ) (n level : Nat) : Nat :=
  Nat.findGreatest (fun i => (x i).length ≤ level) n

theorem lastBelow_le (level : Nat) : lastBelow x n level ≤ n := Nat.findGreatest_le n

theorem length_lastBelow {level : Nat} (start : (x 0).length ≤ level) :
    (x (lastBelow x n level)).length ≤ level :=
  Nat.findGreatest_spec (P := fun i => (x i).length ≤ level) (Nat.zero_le n) start

theorem lt_length_of_lastBelow_lt {level k : Nat} (after : lastBelow x n level < k) (h : k ≤ n) :
    level < (x k).length :=
  Nat.lt_of_not_le (Nat.findGreatest_is_greatest (P := fun i => (x i).length ≤ level) after h)

theorem lastBelow_mono {level level' : Nat} (h : level ≤ level')
    (start : (x 0).length ≤ level) : lastBelow x n level ≤ lastBelow x n level' :=
  Nat.le_findGreatest (lastBelow_le level) ((length_lastBelow start).trans h)

/-- The last visit to a level below the final word is a letter that unfolds to several, and it
lies less than the width of an unfolding below the level. -/
theorem lastBelow_spec (trail : u.Trail x n)
    (narrow : ∀ head piece, u.unfold head = some piece → piece.length ≤ width)
    {level : Nat} (start : (x 0).length ≤ level) (deep : level < (x n).length) :
    ∃ head rest piece, x (lastBelow x n level) = head :: rest ∧
      u.unfold head = some piece ∧ 2 ≤ piece.length ∧ level < rest.length + width := by
  have below := length_lastBelow (n := n) start
  have before : lastBelow x n level < n := by
    refine lt_of_le_of_ne (lastBelow_le level) fun stop => ?_
    rw [stop] at below
    omega
  have after := lt_length_of_lastBelow_lt (x := x) (Nat.lt_succ_self (lastBelow x n level)) before
  obtain ⟨head, rest, piece, here, unfolds, there⟩ := (trail.step before).cons
  have wide := narrow head piece unfolds
  rw [here, List.length_cons] at below
  rw [there, List.length_append] at after
  exact ⟨head, rest, piece, here, unfolds, by omega, by omega⟩

/-- Two levels a width apart whose last visits have the same letter on top: between them that
letter has come back with a growth, above what the lower visit had below it. -/
theorem regrowth_between (trail : u.Trail x n)
    (narrow : ∀ head piece, u.unfold head = some piece → piece.length ≤ width)
    {level level' : Nat} (start : (x 0).length ≤ level) (apart : level + width ≤ level')
    (deep : level' < (x n).length)
    (same : (x (lastBelow x n level)).head? = (x (lastBelow x n level')).head?) :
    ∃ i j head growth rest, i < j ∧ j ≤ n ∧ x i = head :: rest ∧
      x j = head :: (growth ++ rest) ∧ growth ≠ [] ∧ level < rest.length + width ∧
        ∀ k, i ≤ k → k ≤ j → rest.length < (x k).length := by
  obtain ⟨head, rest, -, low, -, -, close⟩ := lastBelow_spec trail narrow start (by omega)
  obtain ⟨head', rest', -, high, -, -, close'⟩ :=
    lastBelow_spec trail narrow (start.trans (by omega)) deep
  have below := length_lastBelow (n := n) start
  rw [low, high, List.head?_cons, List.head?_cons, Option.some.injEq] at same
  subst same
  rw [low, List.length_cons] at below
  have order : lastBelow x n level < lastBelow x n level' := by
    refine lt_of_le_of_ne (lastBelow_mono (by omega) start) fun meet => ?_
    rw [← meet, low, List.cons.injEq] at high
    rw [← high.2] at close'
    omega
  have above : ∀ k, lastBelow x n level ≤ k → k ≤ lastBelow x n level' →
      rest.length < (x k).length := by
    intro k after before
    rcases Nat.eq_or_lt_of_le after with rfl | later
    · rw [low]
      simp
    · have := lt_length_of_lastBelow_lt (x := x) later (before.trans (lastBelow_le level'))
      omega
  have stretch : u.Trail (fun i => x (lastBelow x n level + i))
      (lastBelow x n level' - lastBelow x n level) :=
    (trail.drop _ (lastBelow_le level)).mono (Nat.sub_le_sub_right (lastBelow_le level') _)
  obtain ⟨top, nonempty, there, -⟩ :=
    carry stretch [head] rest (by simpa using low) (fun k hk => above _ (by omega) (by omega))
  have arrives : lastBelow x n level + (lastBelow x n level' - lastBelow x n level) =
      lastBelow x n level' := by omega
  obtain ⟨head', growth, rfl⟩ := List.exists_cons_of_ne_nil nonempty
  rw [arrives, high, List.cons_append, List.cons.injEq] at there
  obtain ⟨rfl, rfl⟩ := there
  refine ⟨_, _, head, growth, rest, order, lastBelow_le level', low, high, ?_, close, above⟩
  rintro rfl
  rw [List.nil_append] at close'
  omega

/-- A trail that climbs by more than `keys.length + 1` widths, `keys` being the letters that
unfold to several, comes back to a letter with a growth behind it, above a rest of at least
`bottom` letters that it leaves alone. -/
theorem exists_regrowth [DecidableEq σ] (trail : u.Trail x n) (keys : List σ)
    (narrow : ∀ head piece, u.unfold head = some piece → piece.length ≤ width)
    (growing : ∀ head piece, u.unfold head = some piece → 2 ≤ piece.length → head ∈ keys)
    (start : (x 0).length ≤ bottom)
    (deep : bottom + (keys.length + 1) * width < (x n).length) :
    ∃ i j head growth rest, i < j ∧ j ≤ n ∧ x i = head :: rest ∧
      x j = head :: (growth ++ rest) ∧ growth ≠ [] ∧ bottom ≤ rest.length ∧
        ∀ k, i ≤ k → k ≤ j → rest.length < (x k).length := by
  -- the levels lie one width apart, and there is one more of them than there are keys
  let level : Nat → Nat := fun m => bottom + (m + 1) * width
  have level_le : ∀ {a b : Nat}, a ≤ b → level a ≤ level b := fun h =>
    Nat.add_le_add_left (Nat.mul_le_mul_right _ (by omega)) _
  have level_succ : ∀ m, level m + width = level (m + 1) := fun m => by
    simp only [level, Nat.add_mul, Nat.one_mul, Nat.add_assoc]
  have level_start : ∀ m, (x 0).length ≤ level m := fun m => start.trans (Nat.le_add_right _ _)
  have level_deep : ∀ m ≤ keys.length, level m < (x n).length := fun m h =>
    lt_of_le_of_lt (level_le h) deep
  have meet : ∀ a b : Nat, a < b → b ≤ keys.length →
      (x (lastBelow x n (level a))).head? = (x (lastBelow x n (level b))).head? →
      ∃ i j head growth rest, i < j ∧ j ≤ n ∧ x i = head :: rest ∧
        x j = head :: (growth ++ rest) ∧ growth ≠ [] ∧ bottom ≤ rest.length ∧
          ∀ k, i ≤ k → k ≤ j → rest.length < (x k).length := by
    intro a b order small same
    obtain ⟨i, j, head, growth, rest, h₁, h₂, h₃, h₄, h₅, close, above⟩ :=
      regrowth_between trail narrow (level_start a)
        ((level_succ a).trans_le (level_le order)) (level_deep b small) same
    have : bottom + width ≤ level a := Nat.add_le_add_left (Nat.le_mul_of_pos_left _ (by omega)) _
    exact ⟨i, j, head, growth, rest, h₁, h₂, h₃, h₄, h₅, by omega, above⟩
  have fewer : (keys.map some).toFinset.card < (Finset.range (keys.length + 1)).card := by
    rw [Finset.card_range]
    exact Nat.lt_succ_of_le ((keys.map some).toFinset_card_le.trans_eq (List.length_map some))
  obtain ⟨a, ha, b, hb, distinct, same⟩ :=
    Finset.exists_ne_map_eq_of_card_lt_of_maps_to fewer
      (f := fun m => (x (lastBelow x n (level m))).head?) fun m hm => by
      have small : m ≤ keys.length := Nat.lt_succ_iff.1 (by simpa using hm)
      obtain ⟨head, rest, piece, here, unfolds, several, -⟩ :=
        lastBelow_spec trail narrow (level_start m) (level_deep m small)
      simpa [here] using growing head piece unfolds several
  rw [Finset.mem_range] at ha hb
  rcases Nat.lt_or_gt_of_ne distinct with order | order
  · exact meet a b order (by omega) same
  · exact meet b a order (by omega) same.symm

end Climb

/-! ## Counting words -/

/-- There are not more distinct words of at most `bound` letters than ways to fill `bound`
places with one of the letters or with nothing. -/
theorem length_le_of_nodup [DecidableEq σ] (letters : List σ) (bound : Nat)
    {words : List (List σ)} (distinct : words.Nodup)
    (short : ∀ w ∈ words, w.length ≤ bound) (spelled : ∀ w ∈ words, w ⊆ letters) :
    words.length ≤ (letters.length + 1) ^ bound := by
  let places : List σ → Fin bound → Option σ := fun w i => w[(i : Nat)]?
  have fills : ∀ w ∈ words.toFinset,
      places w ∈ Fintype.piFinset fun _ : Fin bound => letters.toFinset.insertNone := by
    intro w member
    rw [Fintype.mem_piFinset]
    intro i
    rw [Finset.mem_insertNone]
    intro letter found
    exact List.mem_toFinset.2 (spelled w (List.mem_toFinset.1 member) (List.mem_of_getElem? found))
  have apart : Set.InjOn places words.toFinset := by
    intro v hv w hw same
    rw [Finset.mem_coe, List.mem_toFinset] at hv hw
    apply List.ext_getElem?
    intro i
    by_cases inside : i < bound
    · exact congrFun same ⟨i, inside⟩
    · have hv' := short v hv
      have hw' := short w hw
      rw [List.getElem?_eq_none (by omega), List.getElem?_eq_none (by omega)]
  calc words.length = words.toFinset.card := (List.toFinset_card_of_nodup distinct).symm
    _ ≤ (Fintype.piFinset fun _ : Fin bound => letters.toFinset.insertNone).card :=
        Finset.card_le_card_of_injOn places fills apart
    _ = (letters.toFinset.card + 1) ^ bound := by
        rw [Fintype.card_piFinset, Finset.card_insertNone, Finset.prod_const, Finset.card_univ,
          Fintype.card_fin]
    _ ≤ (letters.length + 1) ^ bound :=
        Nat.pow_le_pow_left (Nat.succ_le_succ letters.toFinset_card_le) bound

end Unfolding

end HiddenLoads
