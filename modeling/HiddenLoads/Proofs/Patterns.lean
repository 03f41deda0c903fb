/-
# HiddenLoads.Proofs.Patterns -- an object pattern binds all its names at once

`({ join: p, posix: q } = p)` reads `p` twice and binds it in between, and an entry may bind a name
that an earlier one has bound.  What the keys mean is nevertheless said by the tracer before the
assignment alone: `lastFor?` is the entry that a name gets its binding from, and after the
assignment the name holds what the key of that entry meant before it (`holds_of_bind_pattern`).

The order of the entries matters only among those of one name.  `Reorders` says that two lists have
the same entries of every name, each in the same order, and such patterns leave the same bindings
(`touches_nil_of_reorders`).  Where no name comes twice every permutation is one.
-/
import HiddenLoads.Proofs.Assignments

namespace HiddenLoads

set_option autoImplicit false

/-! ## The entry that counts -/

/-- The entry of a pattern that a name gets its binding from. -/
def lastFor? (entries : List Entry) (name : Text) : Option Entry :=
  entries.reverse.find? (·.name = name)

theorem isSome_lastFor? {entries : List Entry} {name : Text} :
    (lastFor? entries name).isSome = true ↔ name ∈ entries.map (·.name) := by
  simp [lastFor?, List.mem_map]

/-- The second list has the entries of every name in the order of the first. -/
def Reorders (entries entries' : List Entry) : Prop :=
  ∀ name : Text, entries'.filter (·.name = name) = entries.filter (·.name = name)

theorem Reorders.lastFor?_eq {entries entries' : List Entry} (reorders : Reorders entries entries')
    (name : Text) : lastFor? entries' name = lastFor? entries name := by
  have last (list : List Entry) :
      lastFor? list name = (list.filter (·.name = name)).reverse.head? := by
    rw [lastFor?, ← List.head?_filter, List.filter_reverse]
  rw [last, last, reorders name]

theorem Reorders.mem_iff {entries entries' : List Entry} (reorders : Reorders entries entries')
    (entry : Entry) : entry ∈ entries' ↔ entry ∈ entries := by
  have own (list : List Entry) : entry ∈ list ↔ entry ∈ list.filter (·.name = entry.name) := by simp
  rw [own entries', reorders entry.name, ← own entries]

theorem Reorders.names_iff {entries entries' : List Entry} (reorders : Reorders entries entries')
    (name : Text) : name ∈ entries'.map (·.name) ↔ name ∈ entries.map (·.name) := by
  rw [← isSome_lastFor?, ← isSome_lastFor?, reorders.lastFor?_eq]

/-- Two entries with different names can change places. -/
theorem reorders_swap {entry entry' : Entry} (apart : entry.name ≠ entry'.name) (more : List Entry) :
    Reorders (entry :: entry' :: more) (entry' :: entry :: more) := by
  intro name
  by_cases isName : entry.name = name
  · have isOther : entry'.name ≠ name := fun same => apart (isName.trans same.symm)
    simp [isName, isOther]
  · simp [List.filter_cons, isName]

/-- A name that comes once at most has one entry at most. -/
theorem length_filter_le_one {entries : List Entry} (distinct : (entries.map (·.name)).Nodup)
    (name : Text) : (entries.filter (·.name = name)).length ≤ 1 := by
  have alike : (entries.filter (·.name = name)).map (·.name) =
      List.replicate (entries.filter (·.name = name)).length name := by
    refine List.eq_replicate_iff.2 ⟨List.length_map _, ?_⟩
    intro other inside
    obtain ⟨entry, member, rfl⟩ := List.mem_map.1 inside
    exact of_decide_eq_true (List.mem_filter.1 member).2
  have once := distinct.sublist (List.filter_sublist.map _ :
    ((entries.filter (·.name = name)).map (·.name)).Sublist (entries.map (·.name)))
  rw [alike] at once
  exact List.nodup_replicate.1 once

theorem reorders_of_perm {entries entries' : List Entry} (distinct : (entries.map (·.name)).Nodup)
    (permuted : entries'.Perm entries) : Reorders entries entries' := by
  intro name
  have one := length_filter_le_one distinct name
  have same := permuted.filter (·.name = name)
  cases own : entries.filter (·.name = name) with
  | nil =>
      rw [own] at same
      exact List.perm_nil.1 same
  | cons entry more =>
      rw [own, List.length_cons] at one
      have alone : more = [] := List.eq_nil_of_length_eq_zero (by omega)
      rw [own, alone] at same
      rw [alone]
      exact List.perm_singleton.1 same

namespace Tracer

/-! ## What a pattern brings about -/

/-- Of the meanings of a list of keys, the first one of a name belongs to its first entry. -/
theorem find?_of_lookup {meaning : Text → Except Failure (Option Traced)} {entries : List Entry}
    {resolved : List (Text × Option Traced)} {name : Text} {target? : Option Traced}
    (each : List.Forall₂ (fun entry pair => (do .ok (entry.name, ← meaning entry.key)) = .ok pair)
      entries resolved)
    (first : resolved.lookup name = some target?) :
    ∃ entry, entries.find? (·.name = name) = some entry ∧ meaning entry.key = .ok target? := by
  induction each with
  | nil => cases first
  | @cons entry pair entries resolved resolves _ ih =>
      obtain ⟨found?, means, same⟩ := Outcome.bind_eq_ok_iff.1 resolves
      cases same
      rw [List.lookup_cons] at first
      by_cases isName : name = entry.name
      · subst isName
        simp only [beq_self_eq_true, Option.some.injEq] at first
        subst first
        exact ⟨entry, by simp, means⟩
      · have apart : (name == entry.name) = false := by simp [isName]
        simp only [apart] at first
        obtain ⟨other, found, means⟩ := ih first
        refine ⟨other, ?_, means⟩
        rw [List.find?_cons_of_neg (by simpa using Ne.symm isName), found]

/-- A name in a pattern holds what the key of its last entry meant before. -/
theorem holds_of_bind_pattern {t t' : Tracer} {span : Span} {entries : List Entry} {value : Expr}
    {name : Text} (done : t.bind (.pattern span entries) value = .ok t')
    (inside : name ∈ entries.map (·.name)) :
    ∃ entry target?, lastFor? entries name = some entry ∧
      t.keyMeaning value entry.key = .ok target? ∧ t'.Holds name (.ofTarget? target?) := by
  obtain ⟨resolved, means, done⟩ := Outcome.bind_eq_ok_iff.1 done
  cases done
  rw [← names_of_resolveEntries means] at inside
  obtain ⟨target?, last⟩ := exists_last inside
  have each := Outcome.mapM_eq_ok_iff.1 (mapM_keyMeaning means)
  obtain ⟨entry, found, meaning⟩ := find?_of_lookup (List.forall₂_reverse_iff.2 each) last
  exact ⟨entry, target?, found, meaning, holds_assignEntries t last⟩

/-! ## Reordered patterns -/

/-- A pattern with some of the entries of another one can be bound wherever that one can. -/
theorem exists_bind_pattern_of_subset {t t' : Tracer} {span : Span} {entries entries' : List Entry}
    {value : Expr} (done : t.bind (.pattern span entries) value = .ok t') (fewer : entries' ⊆ entries)
    (span' : Span) : ∃ t'', t.bind (.pattern span' entries') value = .ok t'' := by
  obtain ⟨resolved, means, -⟩ := Outcome.bind_eq_ok_iff.1 done
  obtain ⟨module?, loads, means⟩ := Outcome.bind_eq_ok_iff.1 means
  suffices resolves : ∃ resolved', t.resolveEntries value entries' = .ok resolved' by
    obtain ⟨resolved', means'⟩ := resolves
    exact ⟨_, Outcome.bind_eq_ok_iff.2 ⟨resolved', means', rfl⟩⟩
  cases module? with
  | some module => exact ⟨_, Outcome.bind_eq_ok_iff.2 ⟨_, loads, rfl⟩⟩
  | none =>
      obtain ⟨dotted?, names, means⟩ := Outcome.bind_eq_ok_iff.1 means
      cases dotted? with
      | none =>
          exact ⟨_, Outcome.bind_eq_ok_iff.2 ⟨_, loads, Outcome.bind_eq_ok_iff.2 ⟨_, names, rfl⟩⟩⟩
      | some dotted =>
          -- here a key may fail to be followed, but those of `entries` have all been
          have each := Outcome.exists_forall₂_iff.1 ⟨_, Outcome.mapM_eq_ok_iff.1 means⟩
          obtain ⟨resolved', more⟩ := Outcome.exists_forall₂_iff.2 fun entry inside =>
            each entry (fewer inside)
          exact ⟨resolved', Outcome.bind_eq_ok_iff.2 ⟨_, loads,
            Outcome.bind_eq_ok_iff.2 ⟨_, names, Outcome.mapM_eq_ok_iff.2 more⟩⟩⟩

/-- If the touched names hold the same, nothing has been touched. -/
theorem Touches.nil_of_holds {names : List Text} {t t' : Tracer} (touches : Touches names t t')
    (held : ∀ name ∈ names, ∃ binding, t.Holds name binding ∧ t'.Holds name binding) :
    Touches [] t t' := by
  refine ⟨fun name _ => ?_, fun name _ => ?_, fun name _ => ?_, touches.traced⟩ <;>
    by_cases inside : name ∈ names
  · obtain ⟨binding, before, after⟩ := held name inside
    exact after.literal.trans before.literal.symm
  · exact touches.literals name inside
  · obtain ⟨binding, before, after⟩ := held name inside
    exact after.target.trans before.target.symm
  · exact touches.aliases name inside
  · obtain ⟨binding, before, after⟩ := held name inside
    exact after.module.trans before.module.symm
  · exact touches.modules name inside

/-- A reordered pattern binds every name to the same. -/
theorem touches_nil_of_reorders {t t' t'' : Tracer} {span span' : Span}
    {entries entries' : List Entry} {value : Expr}
    (done : t.bind (.pattern span entries) value = .ok t')
    (done' : t.bind (.pattern span' entries') value = .ok t'') (reorders : Reorders entries entries') :
    Touches [] t' t'' := by
  have fewer : entries'.map (·.name) ⊆ entries.map (·.name) := fun name => (reorders.names_iff name).1
  have touches : Touches (entries.map (·.name)) t' t'' :=
    (bind_touches done).symm.trans ((bind_touches done').mono fewer)
  apply touches.nil_of_holds
  intro name inside
  obtain ⟨entry, target?, last, means, holds⟩ := holds_of_bind_pattern done inside
  obtain ⟨entry', target?', last', means', holds'⟩ :=
    holds_of_bind_pattern done' ((reorders.names_iff name).2 inside)
  rw [reorders.lastFor?_eq, last] at last'
  cases last'
  rw [means] at means'
  cases means'
  exact ⟨_, holds, holds'⟩

theorem exists_bind_pattern_of_reorders {t t' : Tracer} {span : Span} {entries entries' : List Entry}
    {value : Expr} (done : t.bind (.pattern span entries) value = .ok t')
    (reorders : Reorders entries entries') (span' : Span) :
    ∃ t'', t.bind (.pattern span' entries') value = .ok t'' ∧ Touches [] t' t'' := by
  have fewer : entries' ⊆ entries := fun entry => (reorders.mem_iff entry).1
  obtain ⟨t'', done'⟩ := exists_bind_pattern_of_subset done fewer span'
  exact ⟨t'', done', touches_nil_of_reorders done done' reorders⟩

/-- **A pattern binds all its names at once.**  If a value can be assigned to an object pattern, each
name in it holds, afterwards and in all three maps, what the key of the name's last entry means in
the tracer before, and no other name and nothing traced is touched.  A pattern that has the entries
of each name in the same order can be assigned as well and leaves all the same bindings, and so does
every permutation of the entries if no two of them have one name. -/
theorem bind_pattern_at_once {t t' : Tracer} {span : Span} {entries : List Entry} {value : Expr}
    (done : t.bind (.pattern span entries) value = .ok t') :
    (∀ name ∈ entries.map (·.name), ∃ entry target?, lastFor? entries name = some entry ∧
      t.keyMeaning value entry.key = .ok target? ∧ t'.Holds name (.ofTarget? target?)) ∧
    Touches (entries.map (·.name)) t t' ∧
    (∀ entries', Reorders entries entries' → ∀ span',
      ∃ t'', t.bind (.pattern span' entries') value = .ok t'' ∧ Touches [] t' t'') ∧
    ((entries.map (·.name)).Nodup → ∀ entries', entries'.Perm entries → ∀ span',
      ∃ t'', t.bind (.pattern span' entries') value = .ok t'' ∧ Touches [] t' t'') := by
  refine ⟨fun name inside => holds_of_bind_pattern done inside, bind_touches done, ?_, ?_⟩
  · intro entries' reorders span'
    exact exists_bind_pattern_of_reorders done reorders span'
  · intro distinct entries' permuted span'
    exact exists_bind_pattern_of_reorders done (reorders_of_perm distinct permuted) span'

/-- The state in which `p` holds the module `path` and `q` the text `a`. -/
def withPathAsP : Tracer :=
  { Tracer.default with literals := ⟨[("q", "a")]⟩, modules := ⟨[("p", "path")]⟩ }

/-- `{ posix: p, join: q, resolve: p }`. -/
def membersOfP : List Entry := [⟨"posix", "p"⟩, ⟨"join", "q"⟩, ⟨"resolve", "p"⟩]

/-- In `({ posix: p, join: q, resolve: p } = p)` all keys are members of `path`, though `p` is bound
twice on the way: `p` holds `path.resolve` in the end and `q` holds `path.join`, and it makes no
difference whether `q` comes first. -/
theorem membersOfP_at_once :
    ∃ t', withPathAsP.bind (.pattern .unknown membersOfP) (named "p") = .ok t' ∧
      t'.Holds "p" (.alias ⟨"path.resolve", "path.resolve"⟩) ∧
      t'.Holds "q" (.alias ⟨"path.join", "path.join"⟩) ∧ Touches ["p", "q", "p"] withPathAsP t' ∧
      ∃ t'', withPathAsP.bind (.pattern .unknown [⟨"join", "q"⟩, ⟨"posix", "p"⟩, ⟨"resolve", "p"⟩])
        (named "p") = .ok t'' ∧ Touches [] t' t'' := by
  obtain ⟨t', done⟩ : ∃ t', withPathAsP.bind (.pattern .unknown membersOfP) (named "p") = .ok t' :=
    ⟨_, rfl⟩
  obtain ⟨holds, touches, reordered, -⟩ := bind_pattern_at_once done
  have reorders : Reorders membersOfP [⟨"join", "q"⟩, ⟨"posix", "p"⟩, ⟨"resolve", "p"⟩] :=
    reorders_swap (by decide) _
  obtain ⟨entry, target?, last, means, holdsP⟩ := holds "p" (by decide)
  obtain ⟨entry', target?', last', means', holdsQ⟩ := holds "q" (by decide)
  cases last
  cases means
  cases last'
  cases means'
  exact ⟨t', done, holdsP, holdsQ, touches, reordered _ reorders .unknown⟩

end Tracer

end HiddenLoads
