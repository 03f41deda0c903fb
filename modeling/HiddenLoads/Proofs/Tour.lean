/-
# HiddenLoads.Proofs.Tour -- which places a traversal visits, and in which order

A traversal keeps a stack.  `Traversal.Takes` is its loop with a record of what it takes off the
stack, and in which states.  `Traversal.Tour` is the same run said by recursion: an expression, then
the tour of everything inside it, then the tour of its successors.  Since a tour follows the tree, it
knows the place of every stop, and the two records are the same (`Tour.takes`).

If a visit goes inside an expression unless it skips it, the stops of a tour are exactly the places
that do not lie below a skipped one, each of them once and in source order (`Tour.covers`).  A place
is the way to it, so source order is the lexicographic order of the ways.
-/
import HiddenLoads.Proofs.Traversal

namespace HiddenLoads

set_option autoImplicit false

namespace Expr

/-- The expression at a place of a list of expressions: the number of one of them, and the way to a
place inside it. -/
def among? (es : List Expr) : List Nat → Option Expr
  | [] => none
  | i :: path => es[i]?.bind fun e => e.at? path

theorem among?_cons_zero (e : Expr) (es : List Expr) (path : List Nat) :
    among? (e :: es) (0 :: path) = e.at? path := rfl

theorem among?_cons_succ (e : Expr) (es : List Expr) (i : Nat) (path : List Nat) :
    among? (e :: es) ((i + 1) :: path) = among? es (i :: path) := rfl

end Expr

namespace Traversal

variable {σ : Type}

/-- A visit: where the traversal is, and the state in which it comes there. -/
structure Stop (σ : Type) where
  place : List Nat
  expr : Expr
  state : σ

namespace Stop

def within (stop : Stop σ) : Stop σ := { stop with place := 0 :: stop.place }

def after (stop : Stop σ) : Stop σ := { stop with place := stop.place.modifyHead (· + 1) }

def entry (stop : Stop σ) : Expr × σ := (stop.expr, stop.state)

end Stop

/-- The loop works off a stack: what it takes from the top, one after the other and in which states,
and the state in the end. -/
inductive Takes (visit : Visit σ) : List Expr → σ → List (Expr × σ) → σ → Prop
  | done (s : σ) : Takes visit [] s [] s
  | take {e : Expr} {stack inside : List Expr} {s s₁ r : σ} {log : List (Expr × σ)}
      (visited : visit e s = .ok (s₁, inside)) (rest : Takes visit (inside ++ stack) s₁ log r) :
      Takes visit (e :: stack) s ((e, s) :: log) r

/-- The stops of a traversal of some expressions: the first of them, what its visit asks for, and
the others. -/
inductive Tour (visit : Visit σ) : List Expr → σ → List (Stop σ) → σ → Prop
  | nil (s : σ) : Tour visit [] s [] s
  | cons {e : Expr} {es inside : List Expr} {s s₁ s₂ r : σ} {inner others : List (Stop σ)}
      (visited : visit e s = .ok (s₁, inside)) (within : Tour visit inside s₁ inner s₂)
      (after : Tour visit es s₂ others r) :
      Tour visit (e :: es) s (⟨[0], e, s⟩ :: (inner.map Stop.within ++ others.map Stop.after)) r

/-! ## Loop, traversal and tour -/

/-- What the loop does on top of a stack is the tour of what lies there. -/
theorem Tour.takes {visit : Visit σ} {es stack : List Expr} {s s₁ r : σ} {stops : List (Stop σ)}
    {log : List (Expr × σ)} (tour : Tour visit es s stops s₁) (rest : Takes visit stack s₁ log r) :
    Takes visit (es ++ stack) s (stops.map Stop.entry ++ log) r := by
  induction tour generalizing stack log with
  | nil s => exact rest
  | @cons e es inside s s₁ s₂ r₁ inner others visited _ _ within after =>
      have entries : (inner.map Stop.within ++ others.map Stop.after).map Stop.entry =
          inner.map Stop.entry ++ others.map Stop.entry := by
        rw [List.map_append, List.map_map, List.map_map]
        rfl
      rw [List.map_cons, entries, List.cons_append, List.cons_append, List.append_assoc]
      exact .take visited (within (after rest))

theorem run_of_takes {visit : Visit σ} (prunes : Prunes visit) {fuel : Nat} {stack : List Expr}
    {s r : σ} {log : List (Expr × σ)} (takes : Takes visit stack s log r)
    (enough : Expr.sizeAll stack ≤ fuel) : run visit fuel stack s = .ok r := by
  induction takes generalizing fuel with
  | done s => exact run_nil visit fuel s
  | @take e stack inside s s₁ r log visited _ ih =>
      have smaller := sizeAll_inside prunes visited
      rw [Expr.sizeAll] at enough
      obtain ⟨fuel, rfl⟩ : ∃ n, fuel = n + 1 := ⟨fuel - 1, by omega⟩
      rw [run_cons, visited, Outcome.ok_bind]
      exact ih (by rw [Expr.sizeAll_append]; omega)

/-- A traversal that ends has made a tour. -/
theorem exists_tour {visit : Visit σ} (prunes : Prunes visit) {es : List Expr} {s r : σ}
    (done : all visit es s = .ok r) : ∃ stops, Tour visit es s stops r := by
  match es with
  | [] =>
      cases done
      exact ⟨[], .nil s⟩
  | e :: es =>
      rw [all_cons prunes] at done
      obtain ⟨⟨s₁, inside⟩, visited, done⟩ := Outcome.bind_eq_ok_iff.1 done
      obtain ⟨s₂, within, after⟩ := Outcome.bind_eq_ok_iff.1 done
      have smaller := sizeAll_inside prunes visited
      obtain ⟨inner, within⟩ := exists_tour prunes within
      obtain ⟨others, after⟩ := exists_tour prunes after
      exact ⟨_, .cons visited within after⟩
termination_by Expr.sizeAll es
decreasing_by
  all_goals simp only [Expr.sizeAll]; omega

/-! ## The places of a tour -/

/-- A visit asks for nothing if it skips the expression, and for what is inside it otherwise. -/
def SkipsBy (visit : Visit σ) (skips : Expr → σ → Prop) : Prop :=
  ∀ (e : Expr) (s s' : σ) (inside : List Expr), visit e s = .ok (s', inside) →
    skips e s ∧ inside = [] ∨ ¬ skips e s ∧ inside = e.children

def Open (skips : Expr → σ → Prop) (stops : List (Stop σ)) (place : List Nat) : Prop :=
  ∀ stop ∈ stops, stop.place <+: place → stop.place ≠ place → ¬ skips stop.expr stop.state

/-- The stops are the places with an expression that do not lie below a skipped one, each of them
once and in source order. -/
structure Covers (skips : Expr → σ → Prop) (at? : List Nat → Option Expr)
    (stops : List (Stop σ)) : Prop where
  located : ∀ stop ∈ stops, at? stop.place = some stop.expr
  ordered : (stops.map (·.place)).Pairwise (· < ·)
  mem_iff : ∀ place, place ∈ stops.map (·.place) ↔
    (∃ e, at? place = some e) ∧ Open skips stops place

namespace Covers

variable {skips : Expr → σ → Prop} {e : Expr} {es inside : List Expr} {s : σ}
  {inner others : List (Stop σ)}

/-- Every place of a list of expressions begins with the number of one of them. -/
theorem exists_cons (covers : Covers skips (Expr.among? es) others) {stop : Stop σ}
    (isStop : stop ∈ others) : ∃ i path, stop.place = i :: path := by
  have located := covers.located stop isStop
  cases place : stop.place with
  | nil =>
      rw [place] at located
      cases located
  | cons i path => exact ⟨i, path, rfl⟩

/-- What is found inside an expression has its place there. -/
theorem at?_of_among? {path : List Nat} {found : Expr} (within : inside = [] ∨ inside = e.children)
    (located : Expr.among? inside path = some found) : e.at? path = some found := by
  cases path with
  | nil => cases located
  | cons i path =>
      rcases within with rfl | rfl
      · cases located
      · exact located

theorem ordered_cons (covers : Covers skips (Expr.among? inside) inner)
    (covers' : Covers skips (Expr.among? es) others) :
    ((⟨[0], e, s⟩ :: (inner.map Stop.within ++ others.map Stop.after)).map
      (·.place)).Pairwise (· < ·) := by
  rw [List.map_cons, List.pairwise_cons, List.map_append, List.pairwise_append, List.map_map,
    List.map_map, List.pairwise_map, List.pairwise_map]
  have ordered := List.pairwise_map.1 covers.ordered
  have ordered' := List.pairwise_map.1 covers'.ordered
  refine ⟨?_, ?_, ?_, ?_⟩
  · intro place isPlace
    rcases List.mem_append.1 isPlace with isPlace | isPlace
    · obtain ⟨stop, isStop, rfl⟩ := List.mem_map.1 isPlace
      obtain ⟨i, path, place⟩ := covers.exists_cons isStop
      simp [Stop.within, place]
    · obtain ⟨stop, isStop, rfl⟩ := List.mem_map.1 isPlace
      obtain ⟨i, path, place⟩ := covers'.exists_cons isStop
      simp [Stop.after, place, List.cons_lt_cons_iff]
  · refine ordered.imp ?_
    intro first second before
    simpa [Stop.within, List.cons_lt_cons_iff] using before
  · refine ordered'.imp_of_mem ?_
    intro first second isStop isStop' before
    obtain ⟨i, path, place⟩ := covers'.exists_cons isStop
    obtain ⟨j, path', place'⟩ := covers'.exists_cons isStop'
    rw [place, place'] at before
    simpa [Stop.after, place, place', List.cons_lt_cons_iff] using before
  · intro place isPlace place' isPlace'
    obtain ⟨stop, isStop, rfl⟩ := List.mem_map.1 isPlace
    obtain ⟨stop', isStop', rfl⟩ := List.mem_map.1 isPlace'
    obtain ⟨i, path, place⟩ := covers'.exists_cons isStop'
    simp [Stop.within, Stop.after, place, List.cons_lt_cons_iff]

theorem mem_zero_iff (covers' : Covers skips (Expr.among? es) others) (path : List Nat) :
    0 :: path ∈ (⟨[0], e, s⟩ :: (inner.map Stop.within ++ others.map Stop.after)).map (·.place) ↔
      path = [] ∨ path ∈ inner.map (·.place) := by
  have elsewhere : ∀ stop ∈ others, stop.after.place ≠ 0 :: path := by
    intro stop isStop
    obtain ⟨i, way, place⟩ := covers'.exists_cons isStop
    simp [Stop.after, place]
  simp only [List.map_cons, List.map_append, List.map_map, List.mem_cons, List.mem_append,
    List.mem_map, Function.comp_apply, Stop.within, List.cons.injEq, true_and]
  refine or_congr Iff.rfl (or_iff_left ?_)
  rintro ⟨stop, isStop, isHere⟩
  exact elsewhere stop isStop isHere

theorem open_zero_iff (covers' : Covers skips (Expr.among? es) others) (path : List Nat) :
    Open skips (⟨[0], e, s⟩ :: (inner.map Stop.within ++ others.map Stop.after)) (0 :: path) ↔
      (path ≠ [] → ¬ skips e s) ∧ Open skips inner path := by
  simp only [Open, List.forall_mem_cons, List.forall_mem_append, List.forall_mem_map, Stop.within,
    List.cons_prefix_cons, List.nil_prefix, true_and, and_self, forall_const, ne_eq,
    List.cons.injEq]
  refine and_congr (by rw [eq_comm]) (and_iff_left ?_)
  intro stop isStop above
  obtain ⟨i, way, place⟩ := covers'.exists_cons isStop
  simp [Stop.after, place] at above

theorem mem_succ_iff (covers' : Covers skips (Expr.among? es) others) (i : Nat) (path : List Nat) :
    (i + 1) :: path ∈
        (⟨[0], e, s⟩ :: (inner.map Stop.within ++ others.map Stop.after)).map (·.place) ↔
      i :: path ∈ others.map (·.place) := by
  have same : ∀ stop ∈ others, (stop.after.place = (i + 1) :: path ↔ stop.place = i :: path) := by
    intro stop isStop
    obtain ⟨j, way, place⟩ := covers'.exists_cons isStop
    simp [Stop.after, place]
  simp only [List.map_cons, List.map_append, List.map_map, List.mem_cons, List.mem_append,
    List.mem_map, Function.comp_apply, Stop.within, List.cons.injEq, Nat.succ_ne_zero, false_and,
    Nat.zero_ne_add_one, and_false, exists_false, false_or]
  exact exists_congr fun stop => and_congr_right (same stop)

theorem open_succ_iff (covers' : Covers skips (Expr.among? es) others) (i : Nat) (path : List Nat) :
    Open skips (⟨[0], e, s⟩ :: (inner.map Stop.within ++ others.map Stop.after)) ((i + 1) :: path) ↔
      Open skips others (i :: path) := by
  simp only [Open, List.forall_mem_cons, List.forall_mem_append, List.forall_mem_map, Stop.within,
    List.cons_prefix_cons, Nat.zero_ne_add_one, false_and, false_implies, implies_true, true_and]
  refine forall₂_congr fun stop isStop => ?_
  obtain ⟨j, way, place⟩ := covers'.exists_cons isStop
  simp [Stop.after, place]

/-- The stops inside an expression and those of its successors make up the stops of all. -/
theorem cons (covers : Covers skips (Expr.among? inside) inner)
    (covers' : Covers skips (Expr.among? es) others)
    (entered : skips e s ∧ inside = [] ∨ ¬ skips e s ∧ inside = e.children) :
    Covers skips (Expr.among? (e :: es))
      (⟨[0], e, s⟩ :: (inner.map Stop.within ++ others.map Stop.after)) := by
  have located : ∀ stop ∈ (⟨[0], e, s⟩ :: (inner.map Stop.within ++ others.map Stop.after) :
      List (Stop σ)), Expr.among? (e :: es) stop.place = some stop.expr := by
    rw [List.forall_mem_cons, List.forall_mem_append, List.forall_mem_map, List.forall_mem_map]
    refine ⟨rfl, fun stop isStop => ?_, fun stop isStop => ?_⟩
    · exact at?_of_among? (entered.imp And.right And.right) (covers.located stop isStop)
    · have isThere := covers'.located stop isStop
      obtain ⟨i, path, place⟩ := covers'.exists_cons isStop
      rw [place] at isThere
      simpa [Stop.after, place, Expr.among?_cons_succ] using isThere
  refine ⟨located, ordered_cons covers covers', fun place => ?_⟩
  match place with
  | [] =>
      constructor
      · intro isPlace
        obtain ⟨stop, isStop, isHere⟩ := List.mem_map.1 isPlace
        have isThere := located stop isStop
        rw [isHere] at isThere
        cases isThere
      · rintro ⟨⟨_, isThere⟩, _⟩
        cases isThere
  | (i + 1) :: path =>
      rw [mem_succ_iff covers', open_succ_iff covers', Expr.among?_cons_succ, covers'.mem_iff]
  | 0 :: path =>
      rw [mem_zero_iff covers', open_zero_iff covers', Expr.among?_cons_zero, covers.mem_iff]
      cases path with
      | nil =>
          have top : Open skips inner [] := fun stop _ above other =>
            absurd (List.prefix_nil.1 above) other
          simp [top, Expr.at?]
      | cons j path =>
          rcases entered with ⟨skipped, rfl⟩ | ⟨entered, rfl⟩
          · simp [Expr.among?, skipped]
          · simp only [reduceCtorEq, false_or, ne_eq, not_false_eq_true, forall_const, entered,
              true_and]
            exact Iff.rfl

/-- The stops of a single expression, by their places in it. -/
theorem of_single {stops : List (Stop σ)}
    (covers : Covers skips (Expr.among? [e]) (stops.map Stop.within)) : Covers skips e.at? stops := by
  refine ⟨?_, ?_, fun place => ?_⟩
  · intro stop isStop
    exact covers.located stop.within (List.mem_map_of_mem isStop)
  · have ordered := covers.ordered
    rw [List.map_map, List.pairwise_map] at ordered
    rw [List.pairwise_map]
    refine ordered.imp ?_
    intro first second before
    simpa [Stop.within, List.cons_lt_cons_iff] using before
  · have inside : 0 :: place ∈ (stops.map Stop.within).map (·.place) ↔
        place ∈ stops.map (·.place) := by
      simp [Stop.within]
    have way : Open skips (stops.map Stop.within) (0 :: place) ↔ Open skips stops place := by
      simp [Open, Stop.within]
    rw [← inside, ← way, covers.mem_iff, Expr.among?_cons_zero]

end Covers

/-- A tour stops everywhere except below what is skipped. -/
theorem Tour.covers {visit : Visit σ} {skips : Expr → σ → Prop} (skipping : SkipsBy visit skips)
    {es : List Expr} {s r : σ} {stops : List (Stop σ)} (tour : Tour visit es s stops r) :
    Covers skips (Expr.among? es) stops := by
  induction tour with
  | nil s =>
      refine ⟨nofun, .nil, fun place => ?_⟩
      cases place <;> simp [Expr.among?]
  | cons visited _ _ within after => exact within.cons after (skipping _ _ _ _ visited)

/-- A traversal of one expression, as the loop goes through it and as the places that it stops at. -/
theorem exists_covers {visit : Visit σ} {skips : Expr → σ → Prop} (prunes : Prunes visit)
    (skipping : SkipsBy visit skips) {root : Expr} {s r : σ} (done : all visit [root] s = .ok r) :
    ∃ stops : List (Stop σ), Takes visit [root] s (stops.map Stop.entry) r ∧
      Covers skips root.at? stops := by
  obtain ⟨stops, tour⟩ := exists_tour prunes done
  have takes := tour.takes (.done r)
  have covers := tour.covers skipping
  obtain ⟨stops, rfl⟩ : ∃ stops' : List (Stop σ), stops = stops'.map Stop.within := by
    cases tour with
    | @cons _ _ _ _ _ _ _ inner _ _ _ after =>
        cases after
        exact ⟨⟨[], root, s⟩ :: inner, by rw [List.map_nil, List.append_nil]; rfl⟩
  rw [List.append_nil, List.append_nil, List.map_map] at takes
  exact ⟨stops, takes, covers.of_single⟩

end Traversal

end HiddenLoads
