import SatSearch.Proofs.Recursion
import SatSearch.Proofs.Satisfiable

/-!
# The answer is right

A call of the recursive procedure answers `sat` exactly when its live clauses are satisfiable
(`Recurses.sat_iff`), and how it ends depends on nothing but these clauses
(`Recurses.exists_of_clauses_eq`). Main statement: so does the search (`search_decides`).
-/

namespace SatSearch

theorem State.status?_congr {s t : State} (h : t.clauses = s.clauses) : t.status? = s.status? := by
  rw [status?, status?, isSatisfied, isSatisfied, isFalsified, isFalsified, h]

theorem State.pickLiteral_congr {s t : State} (h : t.clauses = s.clauses) :
    t.pickLiteral = s.pickLiteral := by
  rw [pickLiteral, pickLiteral, h]

theorem State.propagate_congr {s t s' : State} (h : t.clauses = s.clauses)
    (hs : s.propagate = (false, s')) : t.propagate = (false, t) := by
  apply propagate_of_no_units
  rw [h]
  exact (eq_self_of_propagate hs).1

namespace Recurses

variable {depth : Nat} {s : State} {r : Run}

/-- A call that answers is right about its live clauses. -/
theorem sat_iff (h : Recurses depth s r) {status : Status} (hr : r.ending = .answered status) :
    status = .sat ↔ Satisfiable s.clauses := by
  induction h generalizing status with
  | satisfied done =>
    cases hr
    exact iff_of_true rfl (satisfiable_of_isSatisfied (State.isSatisfied_of_status? done))
  | falsified failed =>
    cases hr
    exact iff_of_false (by decide)
      (not_satisfiable_of_isFalsified (State.isFalsified_of_status? failed))
  | propagated live pass again ih =>
    obtain ⟨-, rfl⟩ := State.eq_propagated_of_propagate pass
    exact (ih hr).trans (satisfiable_under_unitLiterals _)
  | unpickable live pass pick => cases hr
  | @first _ _ _ l r live pass pick call kept ih =>
    obtain ⟨-, rfl⟩ := State.eq_self_of_propagate pass
    have hsat : status = .sat := by
      cases status with
      | sat => rfl
      | unsat => exact absurd hr kept
    exact iff_of_true hsat ((satisfiable_iff_branch _ l).2 (.inl ((ih hr).1 hsat)))
  | unsaved live pass pick call failed back ih => cases hr
  | @second _ _ t _ l r r' live pass pick call failed back call' ih ih' =>
    obtain ⟨-, rfl⟩ := State.eq_self_of_propagate pass
    obtain rfl := call.restored_eq failed back
    -- The first call has ruled the literal out, so its negation decides.
    have hpos : ¬ Satisfiable (t.clauses.map (Clause.assign l true)) := by
      intro hc
      exact absurd ((ih failed).2 hc) (by decide)
    rw [satisfiable_iff_branch _ l, ih' hr]
    exact (or_iff_right hpos).symm

/-- How a call ends depends only on the live clauses. -/
theorem exists_of_clauses_eq (h : Recurses depth s r) {t : State} (ht : t.clauses = s.clauses) :
    ∃ r', Recurses depth t r' ∧ r'.ending = r.ending := by
  induction h generalizing t with
  | satisfied done => exact ⟨_, .satisfied ((State.status?_congr ht).trans done), rfl⟩
  | falsified failed => exact ⟨_, .falsified ((State.status?_congr ht).trans failed), rfl⟩
  | propagated live pass again ih =>
    obtain ⟨hu, rfl⟩ := State.eq_propagated_of_propagate pass
    rw [← ht] at hu
    obtain ⟨r', hr', hend⟩ := ih (t := t.propagated) (by rw [State.propagated, State.propagated, ht])
    exact ⟨r', .propagated ((State.status?_congr ht).trans live) (State.propagate_of_units hu) hr',
      hend⟩
  | unpickable live pass pick =>
    have hlive := (State.status?_congr ht).trans live
    have hpass := State.propagate_congr ht pass
    obtain ⟨-, rfl⟩ := State.eq_self_of_propagate pass
    exact ⟨_, .unpickable hlive hpass ((State.pickLiteral_congr ht).trans pick), rfl⟩
  | @first _ _ _ l r live pass pick call kept ih =>
    have hlive := (State.status?_congr ht).trans live
    have hpass := State.propagate_congr ht pass
    obtain ⟨-, rfl⟩ := State.eq_self_of_propagate pass
    have hpick := (State.pickLiteral_congr ht).trans pick
    obtain ⟨r₁, hr₁, hend⟩ := ih (t := t.decideAt l _) (congrArg (List.map _) ht)
    exact ⟨_, .first hlive hpass hpick hr₁ (hend ▸ kept), hend⟩
  | unsaved live pass pick call failed back =>
    exact absurd back (call.backTrack_ne_error failed _)
  | @second _ _ _ _ l r r' live pass pick call failed back call' ih ih' =>
    have hlive := (State.status?_congr ht).trans live
    have hpass := State.propagate_congr ht pass
    obtain ⟨-, rfl⟩ := State.eq_self_of_propagate pass
    have hpick := (State.pickLiteral_congr ht).trans pick
    obtain rfl := call.restored_eq failed back
    obtain ⟨r₁, hr₁, hend⟩ := ih (t := t.decideAt l _) (congrArg (List.map _) ht)
    have hfailed := hend.trans failed
    obtain ⟨r₂, hr₂, hend'⟩ := ih'
      (t := { t with counters := r₁.state.counters.add .backtracks 1 }.branch (-l) false)
      (congrArg (List.map _) ht)
    exact ⟨_, .second hlive hpass hpick hr₁ hfailed (hr₁.backTrack_eq hfailed) hr₂, hend'⟩

end Recurses

/-- A search that does not go wrong answers whether its live clauses are satisfiable. How it ends
depends neither on the snapshots nor on the counters it starts with. -/
theorem search_decides (s : State) (h : ∀ e, (s.search none).ending ≠ .stuck e) :
    ((s.search none).ending = .answered .sat ↔ Satisfiable s.clauses) ∧
      ((s.search none).ending = .answered .unsat ↔ ¬ Satisfiable s.clauses) ∧
      ∀ snapshots counters,
        ({ s with snapshots, counters }.search none).ending = (s.search none).ending := by
  have hrun := recurses_search s
  obtain ⟨status, hstatus⟩ : ∃ status, (s.search none).ending = .answered status := by
    rcases Search.answered_or_stuck s with hanswer | ⟨e, he⟩
    · exact hanswer
    · exact absurd he (h e)
  have hsat := hrun.sat_iff hstatus
  refine ⟨?_, ?_, ?_⟩
  · rw [hstatus, Ending.answered.injEq, hsat]
  · rw [hstatus, Ending.answered.injEq, ← hsat]
    cases status <;> decide
  · intro snapshots counters
    obtain ⟨r, hr, hend⟩ := hrun.exists_of_clauses_eq (t := { s with snapshots, counters }) rfl
    rw [hr.search_eq, hend]

/-- A state with resolved places, repeated and complementary literals, and left-overs of an earlier
search. -/
def crossed : State :=
  { clauses :=
      [.undecided [.literal 1, .literal 2], .undecided [.literal (-1), .resolved true, .literal 2],
        .decided true, .undecided [.literal 1, .literal (-2), .literal 1],
        .undecided [.literal (-1), .literal (-2)], .undecided [.literal 3, .literal (-3)]]
    snapshots := [[.decided true], []]
    counters := ⟨[(.backtracks, 4)]⟩ }

theorem crossed_ending : (crossed.search none).ending = .answered .unsat := by
  have hcall : Recurses 0 crossed _ :=
    .second (l := 1) (by decide) rfl (by cbv) (.propagated (by decide) rfl (.falsified (by decide)))
      rfl rfl (.propagated (by decide) rfl (.falsified (by decide)))
  rw [hcall.search_eq]

theorem search_decides_crossed :
    (∀ e, (crossed.search none).ending ≠ .stuck e) ∧ ¬ Satisfiable crossed.clauses := by
  have h : ∀ e, (crossed.search none).ending ≠ .stuck e := by
    intro e
    rw [crossed_ending]
    simp
  exact ⟨h, (search_decides crossed h).2.1.1 crossed_ending⟩

end SatSearch
