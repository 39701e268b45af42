import SatSearch.Proofs.Assignment
import SatSearch.Proofs.Rounds

/-!
# Trails

A search keeps no record of the literals it made true. `TrailOf s q trail` says that `trail` is such
a record at the loop head `q` of a run from `s`: its marks are the decisions of `q` and the unit
literals assigned since, the live clauses of `q` are the clauses of `s` with the literals of the
trail made true, and each decision whose negation is untried owns the snapshot that the trail below
it gives. Main statements: every kind of round keeps a trail (`TrailOf.propagated`,
`TrailOf.branched`, `TrailOf.backtracked`), so every loop head has one, and after the answer `sat`
it makes a literal of every clause true (`search_has_trail`).
-/

namespace SatSearch

/-! ### Marks -/

/-- A literal that was made true, with the reason. -/
inductive Mark where
  /-- The literal of a decision, or its negation where that is being tried. -/
  | decided (d : Decision)
  /-- The last untouched literal of a clause. -/
  | unit (l : Literal)
deriving DecidableEq

namespace Mark

/-- The literal that was made true. -/
def literal : Mark → Literal
  | decided d => if d.negated then -d.literal else d.literal
  | unit l => l

/-- The decision that a mark stands for. -/
def decision? : Mark → Option Decision
  | decided d => some d
  | unit _ => none

theorem map_literal_unit (ls : List Literal) : (ls.map unit).map literal = ls := by
  rw [List.map_map]
  exact List.map_id ls

theorem filterMap_decision?_unit (ls : List Literal) : (ls.map unit).filterMap decision? = [] := by
  rw [List.filterMap_map, List.filterMap_eq_nil_iff]
  intro l _
  rfl

/-- The part of a trail below a decision. -/
theorem exists_below {trail : List Mark} {above older : List Decision} {d : Decision}
    (h : trail.filterMap decision? = above ++ d :: older) :
    ∃ newer below, trail = newer ++ decided d :: below ∧ newer.filterMap decision? = above ∧
      below.filterMap decision? = older := by
  obtain ⟨newer, rest, rfl, hnewer, hrest⟩ := List.filterMap_eq_append_iff.1 h
  obtain ⟨units, m, below, rfl, hunits, hm, hbelow⟩ := List.filterMap_eq_cons_iff.1 hrest
  cases m with
  | unit l => cases hm
  | decided e =>
    obtain rfl := Option.some.inj hm
    refine ⟨newer ++ units, below, (List.append_assoc ..).symm, ?_, hbelow⟩
    rw [List.filterMap_append, hnewer, List.filterMap_eq_nil_iff.2 hunits, List.append_nil]

end Mark

/-- The snapshots that the untried decisions of a trail own, newest first: the starting clauses with
exactly the literals below the decision made true. -/
def ownedSnapshots (cs : List Clause) : List Mark → List (List Clause)
  | [] => []
  | .decided ⟨_, false⟩ :: below =>
    cs.map (Clause.under (below.map Mark.literal)) :: ownedSnapshots cs below
  | .decided ⟨_, true⟩ :: below => ownedSnapshots cs below
  | .unit _ :: below => ownedSnapshots cs below

/-- Every unit literal of the trail was the last untouched literal of a clause. -/
def UnitsForced (cs : List Clause) : List Mark → Prop
  | [] => True
  | .decided _ :: below => UnitsForced cs below
  | .unit l :: below =>
    (∃ c ∈ cs, (c.under (below.map Mark.literal)).unit? = some l) ∧ UnitsForced cs below

/-- Marks without an untried decision own no snapshots. -/
theorem ownedSnapshots_append {cs : List Clause} {newer : List Mark} (older : List Mark)
    (h : ∀ d ∈ newer.filterMap Mark.decision?, d.negated = true) :
    ownedSnapshots cs (newer ++ older) = ownedSnapshots cs older := by
  induction newer with
  | nil => rfl
  | cons m newer ih =>
    cases m with
    | unit l => exact ih h
    | decided d =>
      obtain ⟨hd, hrest⟩ := List.forall_mem_cons.1 h
      obtain ⟨l, negated⟩ := d
      obtain rfl : negated = true := hd
      exact ih hrest

theorem ownedSnapshots_unit (cs : List Clause) (ls : List Literal) (older : List Mark) :
    ownedSnapshots cs (ls.map .unit ++ older) = ownedSnapshots cs older := by
  apply ownedSnapshots_append
  intro d hd
  rw [Mark.filterMap_decision?_unit] at hd
  cases hd

namespace UnitsForced

variable {cs : List Clause}

theorem of_append {newer older : List Mark} (h : UnitsForced cs (newer ++ older)) :
    UnitsForced cs older := by
  induction newer with
  | nil => exact h
  | cons m newer ih =>
    cases m with
    | decided d => exact ih h
    | unit l => exact ih h.2

theorem append_unitLiterals (pass : List Literal) {older : List Mark} {ds : List Clause}
    (h : UnitsForced cs (pass.map .unit ++ older))
    (hds : ∀ d ∈ ds, d ∈ cs.map (Clause.under (older.map Mark.literal))) :
    UnitsForced cs ((unitLiterals pass ds).map .unit ++ older) := by
  induction ds generalizing pass with
  | nil => exact h
  | cons d ds ih =>
    have hrest : ∀ e ∈ ds, e ∈ cs.map (Clause.under (older.map Mark.literal)) := by
      intro e he
      exact hds e (List.mem_cons_of_mem d he)
    rw [unitLiterals]
    split
    · next l hl =>
      obtain ⟨c, hc, rfl⟩ := List.mem_map.1 (hds d List.mem_cons_self)
      refine ih (l :: pass) ⟨⟨c, hc, ?_⟩, h⟩ hrest
      rwa [← Clause.under_append, ← Mark.map_literal_unit pass, ← List.map_append] at hl
    · exact ih pass h hrest

end UnitsForced

/-! ### The trail of a loop head -/

/-- `trail`, newest first, is a trail of the loop head `q` of a run from `s`. -/
structure TrailOf (s : State) (q : Search) (trail : List Mark) : Prop where
  decisions : trail.filterMap Mark.decision? = q.decisions
  fresh : Fresh s.clauses (trail.map Mark.literal)
  forced : UnitsForced s.clauses trail
  clauses : q.state.clauses = s.clauses.map (Clause.under (trail.map Mark.literal))
  snapshots : q.state.snapshots = ownedSnapshots s.clauses trail ++ s.snapshots

namespace TrailOf

variable {s : State} {q : Search} {trail : List Mark}

theorem start (s : State) : TrailOf s (Search.start s) [] where
  decisions := rfl
  fresh := trivial
  forced := trivial
  clauses := (List.map_id s.clauses).symm
  snapshots := rfl

/-- The variables of a trail are pairwise distinct. -/
theorem nodup (h : TrailOf s q trail) : (trail.map fun m => m.literal.natAbs).Nodup := by
  have hnodup := h.fresh.nodup
  rwa [List.map_map] at hnodup

theorem propagated (h : TrailOf s q trail) :
    TrailOf s { q with state := q.state.propagated }
      ((unitLiterals [] q.state.clauses).map .unit ++ trail) where
  decisions := by
    rw [List.filterMap_append, Mark.filterMap_decision?_unit, List.nil_append]
    exact h.decisions
  fresh := by
    rw [List.map_append, Mark.map_literal_unit]
    apply Fresh.append_unitLiterals [] h.fresh
    intro d hd
    rwa [← h.clauses]
  forced := by
    apply UnitsForced.append_unitLiterals [] h.forced
    intro d hd
    rwa [← h.clauses]
  clauses := by
    rw [List.map_append, Mark.map_literal_unit, map_under_append, ← h.clauses]
    rfl
  snapshots := by
    rw [ownedSnapshots_unit]
    exact h.snapshots

theorem branched (h : TrailOf s q trail) {l : Literal} (hl : q.state.pickLiteral = .ok l) :
    TrailOf s (q.decide l) (.decided ⟨l, false⟩ :: trail) where
  decisions := by
    show ⟨l, false⟩ :: trail.filterMap Mark.decision? = ⟨l, false⟩ :: q.decisions
    rw [h.decisions]
  fresh := by
    refine ⟨?_, h.fresh⟩
    rw [← h.clauses]
    exact natAbs_mem_openVariables (State.mem_unassigned_of_pickLiteral hl)
  forced := h.forced
  clauses := by
    rw [List.map_cons, map_under_cons, ← h.clauses]
    rfl
  snapshots := by
    rw [ownedSnapshots, List.cons_append, ← h.clauses, ← h.snapshots]
    rfl

/-- Going back drops the marks above the newest untried decision and turns its literal over. -/
theorem backtracked (h : TrailOf s q trail) {above older : List Decision} {l : Literal}
    {saved : List Clause} {rest : List (List Clause)} (hneg : ∀ d ∈ above, d.negated = true)
    (hdec : q.decisions = above ++ ⟨l, false⟩ :: older) (hsnap : q.state.snapshots = saved :: rest)
    (counters : Counters) :
    ∃ below, TrailOf s
      { state :=
          { clauses := saved.map (Clause.assign (-l) true), snapshots := rest, counters }
        decisions := ⟨l, true⟩ :: older }
      (.decided ⟨l, true⟩ :: below) := by
  obtain ⟨newer, below, rfl, hnewer, hbelow⟩ := Mark.exists_below (h.decisions.trans hdec)
  -- No mark above the decision owns a snapshot, so the newest snapshot is its own.
  have howned := h.snapshots
  rw [ownedSnapshots_append _ (hnewer ▸ hneg), ownedSnapshots, List.cons_append, hsnap,
    List.cons.injEq] at howned
  have hfresh := h.fresh
  rw [List.map_append, List.map_cons] at hfresh
  obtain ⟨hopen, hfresh⟩ := hfresh.of_append
  refine ⟨below, ?_, ⟨?_, hfresh⟩, h.forced.of_append, ?_, howned.2⟩
  · rw [List.filterMap_cons, hbelow]
    rfl
  · rwa [show (Mark.decided ⟨l, true⟩).literal.natAbs = l.natAbs from Int.natAbs_neg l]
  · rw [List.map_cons, map_under_cons, ← howned.1]
    rfl

theorem exists_of_round {next : Search} {event : Option Event} (h : TrailOf s q trail)
    (hround : q.Round event next) : ∃ trail', TrailOf s next trail' := by
  cases hround with
  | propagated live units => exact ⟨_, h.propagated⟩
  | branched live idle pick => exact ⟨_, h.branched pick⟩
  | backtracked failed negated decisions snapshots =>
    obtain ⟨below, hbelow⟩ := h.backtracked negated decisions snapshots _
    exact ⟨_, hbelow⟩

theorem exists_of_reaches {history : List (Option Event)}
    (h : (Search.start s).Reaches history q) : ∃ trail, TrailOf s q trail := by
  induction h with
  | refl => exact ⟨[], start s⟩
  | onward _ step ih =>
    obtain ⟨trail, htrail⟩ := ih
    exact htrail.exists_of_round (.of_step step)

/-- When every live clause is true, every clause of the start holds a literal of the trail, unless
it was true before. -/
theorem exists_mem_of_sat (h : TrailOf s q trail) (hsat : q.state.status? = some .sat) :
    ∀ c ∈ s.clauses, c = .decided true ∨ ∃ l ∈ c.unassigned, l ∈ trail.map Mark.literal := by
  intro c hc
  have hall := State.isSatisfied_of_status? hsat
  rw [State.isSatisfied, h.clauses, List.all_map, List.all_eq_true] at hall
  rcases Clause.exists_mem_of_isSatisfied_under (hall c hc) with hdec | hmem
  · cases c with
    | decided b => exact .inl (congrArg Clause.decided hdec)
    | undecided es => cases hdec
  · exact .inr hmem

end TrailOf

/-- Every loop head of a run has a trail of pairwise distinct variables; after the answer `sat` a
literal of the trail stands in every clause that was not true at the start. -/
theorem search_has_trail (s : State) :
    (∀ history q, (Search.start s).Reaches history q →
      ∃ trail, TrailOf s q trail ∧ (trail.map fun m => m.literal.natAbs).Nodup) ∧
    ((s.search none).ending = .answered .sat →
      ∃ history q trail, (Search.start s).Reaches history q ∧ q.state = (s.search none).state ∧
        TrailOf s q trail ∧ (trail.map fun m => m.literal.natAbs).Nodup ∧
        ∀ c ∈ s.clauses, c = .decided true ∨ ∃ l ∈ c.unassigned, l ∈ trail.map Mark.literal) := by
  constructor
  · intro history q h
    obtain ⟨trail, htrail⟩ := TrailOf.exists_of_reaches h
    exact ⟨trail, htrail, htrail.nodup⟩
  · intro hsat
    obtain ⟨history, q, event, ending, hreach, hfinal, hrun⟩ := Search.exists_final_of_search s
    obtain ⟨trail, htrail⟩ := TrailOf.exists_of_reaches hreach
    rw [hrun] at hsat ⊢
    obtain rfl : ending = .answered .sat := hsat
    cases hfinal with
    | satisfied done =>
      exact ⟨history, q, trail, hreach, rfl, htrail, htrail.nodup, htrail.exists_mem_of_sat done⟩

/-- Making 1 true, as the search does first, falsifies a clause. -/
def detour : State :=
  { clauses :=
      [.undecided [.literal 1, .literal 5], .undecided [.literal 1, .literal 6],
        .undecided [.resolved true, .literal 1, .literal 7], .undecided [.literal (-1), .literal 2],
        .undecided [.literal (-1), .literal (-2)],
        .undecided [.literal 4, .literal (-4), .literal 4]]
    snapshots := [[.decided false]]
    counters := ⟨[(.decisions, 2)]⟩ }

theorem detour_ending : (detour.search none).ending = .answered .sat := by
  have hreach : ∃ history q, (Search.start detour).Reaches history q ∧
      q.state.status? = some .sat := by
    refine ⟨_, _, ((((Search.Reaches.refl.onward
      (Search.Round.branched (l := 1) (by decide) (by decide) (by cbv)).step_eq).onward
      (Search.Round.propagated (by decide) (by decide)).step_eq).onward
      (Search.Round.backtracked (by decide) (List.forall_mem_nil _) rfl rfl).step_eq).onward
      (Search.Round.propagated (by decide) (by decide)).step_eq).onward
      (Search.Round.branched (l := 4) (by decide) (by decide) (by cbv)).step_eq, by decide⟩
  obtain ⟨history, q, hreach, hsat⟩ := hreach
  rw [State.search, hreach.runFrom_eq, (Search.Final.satisfied hsat).runFrom_eq]

theorem search_has_trail_detour :
    (detour.search none).ending = .answered .sat ∧
      ∃ history q trail, (Search.start detour).Reaches history q ∧
        q.state = (detour.search none).state ∧ TrailOf detour q trail ∧
        (trail.map fun m => m.literal.natAbs).Nodup ∧
        ∀ c ∈ detour.clauses, c = .decided true ∨ ∃ l ∈ c.unassigned, l ∈ trail.map Mark.literal :=
  ⟨detour_ending, (search_has_trail detour).2 detour_ending⟩

end SatSearch
