/-
# HiddenLoads.Proofs.SourceOrder -- records come in the order of the source

Three orders meet in the records of a pass.  The rows of a tree whose ranges nest begin one after
the other (`Tree.starts_ordered`), and so do the points where they stand, since lines and columns
grow with the offset (`Source.point_le`).  The conversion keeps that order for the calls and
declarations (`Expr.sites_sublist_of_convert`).  A pass comes to them in the order of the
expression; at each it leaves any number of records, and it may skip some (`Along`,
`Pass.follows_of_tour`).
-/
import HiddenLoads.Proofs.SiteOrder
import HiddenLoads.Proofs.Tour

namespace HiddenLoads

set_option autoImplicit false

/-! ## Points -/

namespace Point

def le (p q : Point) : Prop := p.line < q.line ∨ p.line = q.line ∧ p.column ≤ q.column

theorem le_refl (p : Point) : p.le p := .inr ⟨rfl, Nat.le_refl _⟩

theorem le_trans {p q r : Point} (one : p.le q) (two : q.le r) : p.le r := by
  unfold le at *
  omega

theorem le_advance (p : Point) (b : UInt8) : p.le (p.advance b) := by
  rw [advance]
  split
  · exact .inl (Nat.lt_succ_self _)
  · exact .inr ⟨rfl, Nat.le_succ _⟩

theorem le_of_mem_trail {p q : Point} {bytes : List UInt8} (inside : q ∈ trail p bytes) :
    p.le q := by
  induction bytes generalizing p with
  | nil => exact List.mem_singleton.1 inside ▸ p.le_refl
  | cons b bytes ih =>
      rcases List.mem_cons.1 inside with rfl | inside
      · exact q.le_refl
      · exact le_trans (p.le_advance b) (ih inside)

theorem trail_ordered (p : Point) (bytes : List UInt8) : (trail p bytes).Pairwise le := by
  induction bytes generalizing p with
  | nil => exact List.pairwise_singleton _ _
  | cons b bytes ih =>
      refine List.pairwise_cons.2 ⟨fun q inside => ?_, ih (p.advance b)⟩
      exact le_trans (p.le_advance b) (le_of_mem_trail inside)

theorem length_trail (p : Point) (bytes : List UInt8) :
    (trail p bytes).length = bytes.length + 1 := by
  induction bytes generalizing p with
  | nil => rfl
  | cons b bytes ih => rw [trail, List.length_cons, ih, List.length_cons]

end Point

def Span.startsBy (s s' : Span) : Prop :=
  s.startLine < s'.startLine ∨ s.startLine = s'.startLine ∧ s.startColumn ≤ s'.startColumn

theorem Span.startsBy_refl (s : Span) : s.startsBy s := .inr ⟨rfl, Nat.le_refl _⟩

namespace Source

/-- Lines and columns grow with the offset. -/
theorem point_le (s : Source) {offset offset' : Nat} (before : offset ≤ offset') :
    (s.point offset).le (s.point offset') := by
  have size : (Point.trail ⟨0, 0⟩ s.bytes.toList).length = s.bytes.size + 1 := by
    rw [Point.length_trail, Array.length_toList]
  obtain ⟨clipped, isClipped⟩ : ∃ n, n = min offset s.bytes.size := ⟨_, rfl⟩
  obtain ⟨clipped', isClipped'⟩ : ∃ n, n = min offset' s.bytes.size := ⟨_, rfl⟩
  have inside : clipped < (Point.trail ⟨0, 0⟩ s.bytes.toList).length := by omega
  have inside' : clipped' < (Point.trail ⟨0, 0⟩ s.bytes.toList).length := by omega
  rw [point, point, s.points_eq, ← isClipped, ← isClipped', List.getElem?_toArray,
    List.getElem?_toArray, List.getElem?_eq_getElem inside, List.getElem?_eq_getElem inside',
    Option.getD_some, Option.getD_some]
  rcases Nat.lt_or_eq_of_le (show clipped ≤ clipped' by omega) with earlier | same
  · exact List.pairwise_iff_getElem.1 (Point.trail_ordered _ _) _ _ inside inside' earlier
  · subst same
    exact Point.le_refl _

theorem span_startsBy (s : Source) {start start' : Nat} (before : start ≤ start')
    (stop stop' : Nat) : (s.span start stop).startsBy (s.span start' stop') := by
  rcases s.point_le before with above | ⟨sameLine, column⟩
  · exact .inl (Nat.succ_lt_succ above)
  · exact .inr ⟨congrArg (· + 1) sameLine, column⟩

end Source

/-! ## Ranges -/

namespace Tree

/-- The range of every row lies inside that of its parent, behind the ranges of the siblings before
it. -/
def RangesNest (t : Tree) : Prop :=
  ∀ r ∈ t.rows,
    (∀ u ∈ r.children,
      r.row.start ≤ u.row.start ∧ u.row.start ≤ u.row.stop ∧ u.row.stop ≤ r.row.stop) ∧
    r.children.Pairwise fun u v => u.row.stop ≤ v.row.start

instance (t : Tree) : Decidable t.RangesNest :=
  inferInstanceAs (Decidable (∀ r ∈ t.rows,
    (∀ u ∈ r.children,
      r.row.start ≤ u.row.start ∧ u.row.start ≤ u.row.stop ∧ u.row.stop ≤ r.row.stop) ∧
    r.children.Pairwise fun u v => u.row.stop ≤ v.row.start))

theorem RangesNest.child {t u : Tree} (nest : t.RangesNest) (isChild : u ∈ t.children) :
    u.RangesNest :=
  fun r isRow => nest r (rows_subset_of_mem_children isChild isRow)

/-- All rows of a tree begin inside its range. -/
theorem start_bounds {t r : Tree} (nest : t.RangesNest) (isRow : r ∈ t.rows)
    (range : t.row.start ≤ t.row.stop) :
    t.row.start ≤ r.row.start ∧ r.row.start ≤ t.row.stop := by
  rw [rows_eq, List.mem_cons, List.mem_flatMap] at isRow
  rcases isRow with rfl | ⟨u, isChild, isRow⟩
  · exact ⟨Nat.le_refl _, range⟩
  · have smaller := size_lt_of_mem_children isChild
    obtain ⟨after, range', before⟩ := (nest t t.self_mem_rows).1 u isChild
    have bounds := start_bounds (nest.child isChild) isRow range'
    omega
termination_by t.size

/-- The rows of a tree begin one after the other. -/
theorem starts_ordered {t : Tree} (nest : t.RangesNest) :
    t.rows.Pairwise fun u v => u.row.start ≤ v.row.start := by
  obtain ⟨ranges, siblings⟩ := nest t t.self_mem_rows
  rw [rows_eq, List.pairwise_cons, List.pairwise_flatMap]
  refine ⟨?_, ?_, ?_⟩
  · intro r isRow
    obtain ⟨u, isChild, isRow⟩ := List.mem_flatMap.1 isRow
    obtain ⟨after, range, _⟩ := ranges u isChild
    exact after.trans (start_bounds (nest.child isChild) isRow range).1
  · intro u isChild
    have smaller := size_lt_of_mem_children isChild
    exact starts_ordered (nest.child isChild)
  · refine siblings.imp_of_mem fun {u v} isChild isChild' behind r isRow r' isRow' => ?_
    -- The end of one sibling lies between what begins in it and what begins in the next.
    have inFirst := start_bounds (nest.child isChild) isRow (ranges u isChild).2.1
    have inSecond := start_bounds (nest.child isChild') isRow' (ranges v isChild').2.1
    omega
termination_by t.size

/-- The rows that loads can be written as stand one after the other. -/
theorem sites_ordered (source : Source) {t : Tree} (nest : t.RangesNest) :
    (t.sites.map (Expr.rowSpan source)).Pairwise Span.startsBy := by
  rw [List.pairwise_map]
  refine ((starts_ordered nest).sublist List.filter_sublist).imp fun before => ?_
  exact source.span_startsBy before _ _

end Tree

/-! ## Records along the sites -/

/-- Records on the way along some sites: any number at each, in the order of the sites. -/
inductive Along : List Span → List Span → Prop
  | done (sites : List Span) : Along [] sites
  | skip (site : Span) {records sites : List Span} (rest : Along records sites) :
      Along records (site :: sites)
  | stay {site : Span} {records sites : List Span} (rest : Along records (site :: sites)) :
      Along (site :: records) (site :: sites)

namespace Along

variable {records records' sites sites' : List Span}

theorem skipAll (sites : List Span) (along : Along records sites') :
    Along records (sites ++ sites') := by
  induction sites with
  | nil => exact along
  | cons site sites ih => exact ih.skip site

theorem append (along : Along records sites) (along' : Along records' sites') :
    Along (records ++ records') (sites ++ sites') := by
  induction along with
  | done sites => exact along'.skipAll sites
  | skip site _ ih => exact ih.skip site
  | stay _ ih => exact ih.stay

theorem of_all_eq {site : Span} (same : ∀ record ∈ records, record = site) :
    Along records [site] := by
  induction records with
  | nil => exact .done [site]
  | cons record records ih =>
      obtain rfl := same record List.mem_cons_self
      exact (ih fun record' inside => same record' (List.mem_cons_of_mem _ inside)).stay

theorem subset (along : Along records sites) : records ⊆ sites := by
  induction along with
  | done sites => exact List.nil_subset sites
  | skip site _ ih => exact fun record inside => List.mem_cons_of_mem site (ih inside)
  | stay _ ih => exact List.cons_subset.2 ⟨List.mem_cons_self, ih⟩

/-- Records along sites that stand one after the other do so too. -/
theorem ordered (along : Along records sites) (inOrder : sites.Pairwise Span.startsBy) :
    records.Pairwise Span.startsBy := by
  induction along with
  | done sites => exact List.Pairwise.nil
  | skip site _ ih => exact ih inOrder.of_cons
  | @stay site records sites rest ih =>
      refine List.pairwise_cons.2 ⟨fun record inside => ?_, ih inOrder⟩
      rcases List.mem_cons.1 (rest.subset inside) with rfl | later
      · exact record.startsBy_refl
      · exact List.rel_of_pairwise_cons inOrder later

end Along

def Continues (sites : List Span) (before after : List (Option Span)) : Prop :=
  ∃ records, after = before ++ records.map some ∧ Along records sites

theorem Continues.trans {sites sites' : List Span} {before between after : List (Option Span)}
    (one : Continues sites before between) (two : Continues sites' between after) :
    Continues (sites ++ sites') before after := by
  obtain ⟨records, rfl, along⟩ := one
  obtain ⟨records', rfl, along'⟩ := two
  exact ⟨records ++ records', by rw [List.map_append, List.append_assoc], along.append along'⟩

theorem Continues.refl (sites : List Span) (locations : List (Option Span)) :
    Continues sites locations locations :=
  ⟨[], (List.append_nil _).symm, .done sites⟩

/-- Locations that all are the same one. -/
theorem Continues.of_all_eq {site : Span} {before found : List (Option Span)}
    (same : ∀ location ∈ found, location = some site) :
    Continues [site] before (before ++ found) := by
  refine ⟨found.map fun _ => site, ?_, .of_all_eq fun record inside => ?_⟩
  · congr 1
    rw [List.map_map]
    exact (List.map_id _).symm.trans (List.map_congr_left same)
  · obtain ⟨_, _, rfl⟩ := List.mem_map.1 inside
    rfl

namespace Analysis

/-- Between two states of a pass, records have been added along some sites. -/
structure Follows (sites : List Span) (a a' : Analysis) : Prop where
  dependencies :
    Continues sites (a.dependencies.map (·.location)) (a'.dependencies.map (·.location))
  warnings : Continues sites (a.warnings.map (·.location)) (a'.warnings.map (·.location))

theorem Follows.refl (sites : List Span) (a : Analysis) : Follows sites a a :=
  ⟨.refl sites _, .refl sites _⟩

theorem Follows.trans {sites sites' : List Span} {a a' a'' : Analysis}
    (one : Follows sites a a') (two : Follows sites' a' a'') : Follows (sites ++ sites') a a'' :=
  ⟨one.dependencies.trans two.dependencies, one.warnings.trans two.warnings⟩

theorem Records.follows {site : Span} {a a' : Analysis} (records : Records site a a') :
    Follows [site] a a' := by
  obtain ⟨found, grown, places⟩ := records.dependencies
  obtain ⟨raised, warned, same⟩ := records.warnings
  refine ⟨?_, ?_⟩
  · rw [grown, List.map_append]
    apply Continues.of_all_eq
    intro location inside
    obtain ⟨d, isFound, rfl⟩ := List.mem_map.1 inside
    exact places d isFound
  · rw [warned, List.map_append]
    apply Continues.of_all_eq
    intro location inside
    obtain ⟨w, isRaised, rfl⟩ := List.mem_map.1 inside
    rw [same w isRaised]

end Analysis

namespace Pass

open Analysis

/-- A visit leaves records only if the expression is a site. -/
theorem visit_follows {e : Expr} {a a' : Analysis} {inside : List Expr}
    (visited : visit defaultProbes e a = .ok (a', inside)) :
    Follows (if e.isSite then [e.span] else []) a a' := by
  cases site : e.isSite with
  | true =>
      obtain ⟨tracer, _, records, _⟩ := visit_cases visited
      have same : Follows [e.span] { a with tracer } a' := records.follows
      exact ⟨same.dependencies, same.warnings⟩
  | false =>
      obtain ⟨dependencies, warnings⟩ := visit_quiet visited site
      refine ⟨?_, ?_⟩
      · rw [dependencies]
        exact .refl [] _
      · rw [warnings]
        exact .refl [] _

/-- A pass leaves records along the sites of what it visits. -/
theorem follows_of_tour {es : List Expr} {a r : Analysis} {stops : List (Traversal.Stop Analysis)}
    (tour : Traversal.Tour (visit defaultProbes) es a stops r) :
    Follows (es.flatMap Expr.sites) a r := by
  induction tour with
  | nil a => exact .refl [] a
  | @cons e es inside a a₁ a₂ a₃ _ _ visited within _ ihWithin ihAfter =>
      have below : Follows (e.children.flatMap Expr.sites) a₁ a₂ := by
        rcases visit_prunes e a a₁ inside visited with rfl | rfl
        · -- The inside is skipped, with all its sites.
          cases within
          exact .refl _ a₁
        · exact ihWithin
      rw [List.flatMap_cons, Expr.sites_eq e]
      exact ((visit_follows visited).trans below).trans ihAfter

end Pass

/-! ## The whole analysis -/

/-- Locations come in the order of a source: each is where a call stands or a row that imports or
exports, and none starts before an earlier one. -/
def InSourceOrder (source : Source) (t : Tree) (locations : List (Option Span)) : Prop :=
  ∃ spans : List Span, locations = spans.map some ∧ spans.Pairwise Span.startsBy ∧
    ∀ span ∈ spans, ∃ row ∈ t.rows, row.isSite = true ∧ span = Expr.rowSpan source row

theorem inSourceOrder_of_continues {source : Source} {t : Tree} {sites : List Span}
    {locations : List (Option Span)} (nest : t.RangesNest)
    (among : sites.Sublist (t.sites.map (Expr.rowSpan source)))
    (continues : Continues sites [] locations) : InSourceOrder source t locations := by
  obtain ⟨spans, rfl, along⟩ := continues
  refine ⟨spans, List.nil_append _, ?_, ?_⟩
  · exact along.ordered ((t.sites_ordered source nest).sublist among)
  · intro span inside
    obtain ⟨row, isSite, rfl⟩ := List.mem_map.1 (among.subset (along.subset inside))
    obtain ⟨isRow, isSite⟩ := List.mem_filter.1 isSite
    exact ⟨row, isRow, isSite, rfl⟩

theorem Grammar.analyze_eq (grammar : Grammar) (probes : List (Probe (Option Text)))
    (language : Language) (file : Text) (bytes : List UInt8) :
    grammar.analyze probes language file bytes =
      Expr.convert (.ofBytes bytes) (grammar language bytes).tree >>= fun root =>
        Pass.walk probes root (.start file (grammar language bytes).hasErrors) := by
  rw [Grammar.analyze, Grammar.convert, Expr.ofTree_eq_convert]

/-- **Records come in the order of the source.**  If the ranges of the rows nest and the roles stand
in the order of the grammar, an analysis that ends lists its dependencies and its warnings by where
they start, and each stands where a call does, or a row that imports or exports. -/
theorem Grammar.records_in_source_order {grammar : Grammar} {language : Language} {file : Text}
    {bytes : List UInt8} {r : Analysis} (nest : (grammar language bytes).tree.RangesNest)
    (inOrder : (grammar language bytes).tree.RolesInOrder)
    (done : grammar.analyze Pass.defaultProbes language file bytes = .ok r) :
    InSourceOrder (.ofBytes bytes) (grammar language bytes).tree
      (r.dependencies.map (·.location)) ∧
    InSourceOrder (.ofBytes bytes) (grammar language bytes).tree (r.warnings.map (·.location)) := by
  rw [Grammar.analyze_eq] at done
  obtain ⟨root, made, done⟩ := Outcome.bind_eq_ok_iff.1 done
  obtain ⟨r', passed, rfl⟩ := Pass.passed_of_walk done
  have among := Expr.sites_sublist_of_convert inOrder made
  obtain ⟨stops, tour⟩ := Traversal.exists_tour Pass.visit_prunes passed
  have follows := Pass.follows_of_tour tour
  rw [List.flatMap_singleton] at follows
  exact ⟨inSourceOrder_of_continues nest among follows.dependencies,
    inSourceOrder_of_continues nest among follows.warnings⟩

namespace Expr

/-- `f(require("b"),` and ` require(x));` on the first two lines, `export * from "c"` on the
third. -/
def threeLines : Tree :=
  rowOf (.other "program") (.other []) 0 47
    [rowOf (.other "expression_statement") (.other []) 0 29
      [rowOf .call (.other []) 0 28
        [rowOf .identifier .function 0 1 [],
          rowOf .arguments .arguments 1 28
            [rowOf .call (.other []) 2 14
              [rowOf .identifier .function 2 9 [],
                rowOf .arguments .arguments 9 14 [rowOf .string (.other []) 10 13 []]],
              rowOf .call (.other []) 17 27
                [rowOf .identifier .function 17 24 [],
                  rowOf .arguments .arguments 24 27 [rowOf .identifier (.other []) 25 26 []]]]]],
      rowOf .exportStatement (.other []) 30 47 [rowOf .string .source 44 47 []]]

def threeLinesBytes : List UInt8 :=
  ("f(require(\"b\"),\n require(x));\nexport * from \"c\"" : Text).map fun c => c.val.toUInt8

end Expr

/-- Two dependencies and a warning, on a line each. -/
theorem Grammar.threeLines_in_source_order :
    ∃ r, Grammar.analyze (fun _ _ => ⟨Expr.threeLines, false⟩) Pass.defaultProbes .javascript
        Analysis.inMemory Expr.threeLinesBytes = .ok r ∧
      r.dependencies.map (·.location) = [some ⟨1, 2, 1, 14⟩, some ⟨3, 0, 3, 17⟩] ∧
      r.warnings.map (·.location) = [some ⟨2, 1, 2, 11⟩] ∧
      InSourceOrder (.ofBytes Expr.threeLinesBytes) Expr.threeLines
        (r.dependencies.map (·.location)) ∧
      InSourceOrder (.ofBytes Expr.threeLinesBytes) Expr.threeLines
        (r.warnings.map (·.location)) := by
  have done := Grammar.analyze_eq (fun _ _ => ⟨Expr.threeLines, false⟩) Pass.defaultProbes
    .javascript Analysis.inMemory Expr.threeLinesBytes
  obtain ⟨dependencies, warnings⟩ :=
    Grammar.records_in_source_order (by decide) (by decide) (done.trans rfl)
  exact ⟨_, done.trans rfl, rfl, rfl, dependencies, warnings⟩

end HiddenLoads
