import SatSearch.Proofs.Rounds
import SatSearch.Proofs.Satisfiable

/-!
# One pass of propagation

`Sweeps` is a pass as it goes along the clauses: it stops at each clause whose last untouched literal can be
made true, and makes it true in the clauses behind and ahead at once. `State.propagate` does the same with a
list of the literals made true so far (`sweeps_unitLiterals`). Main statement: a pass does nothing exactly if no
clause is unit, and else each literal that it makes true is about a variable of its own, decides a clause and is
true in every valuation of the clauses (`propagate_exact`).
-/

namespace SatSearch

/-! ### Unit clauses -/

namespace Clause

/-- The clause is undecided and has exactly one untouched place. -/
structure IsUnit (c : Clause) : Prop where
  undecided : c.isDecided = false
  single : c.unassigned.length = 1

theorem unit?_eq_none_iff {c : Clause} : c.unit? = none ↔ ¬ c.IsUnit := by
  have hlength : c.unit? = none ↔ c.unassigned.length ≠ 1 := by
    unfold unit?
    split
    · next l hl => simp [hl]
    · next hne =>
      refine iff_of_true rfl fun h => ?_
      obtain ⟨l, hl⟩ := List.length_eq_one_iff.1 h
      exact hne l hl
  rw [hlength]
  constructor
  · intro h hunit
    exact h hunit.single
  · intro h hone
    refine h ⟨?_, hone⟩
    cases c with
    | decided b => cases hone
    | undecided es => rfl

theorem isDecided_assign {c : Clause} (h : c.isDecided = true) (l : Literal) (truth : Bool) :
    (c.assign l truth).isDecided = true := by
  cases c with
  | decided b => rfl
  | undecided es => cases h

/-- Making its last untouched literal true decides a clause. -/
theorem isDecided_assign_of_unit? {c : Clause} {l : Literal} (h : c.unit? = some l) :
    (c.assign l true).isDecided = true := by
  have hsat : (c.assign l true).isSatisfied = true :=
    (c.isSatisfied_assign l).2 (.inr (mem_unassigned_of_unit? h))
  cases hc : c.assign l true with
  | decided b => rfl
  | undecided es =>
    rw [hc] at hsat
    cases hsat

theorem isDecided_of_unit? {c : Clause} {l : Literal} (h : c.unit? = some l) : c.isDecided = false := by
  cases c with
  | decided b => cases h
  | undecided es => rfl

end Clause

/-! ### Sweeps -/

/-- A pass over clauses: those of `seen` were looked at, those of `ahead` come next. A literal that is made true
is made true in all of them. `made` are the literals that are made true from here on, oldest first, and `after`
are the clauses when the pass is over. -/
inductive Sweeps : List Clause → List Clause → List Literal → List Clause → Prop
  | done {seen : List Clause} : Sweeps seen [] [] seen
  | skip {seen ahead after : List Clause} {made : List Literal} {c : Clause} (idle : c.unit? = none)
      (rest : Sweeps (seen ++ [c]) ahead made after) : Sweeps seen (c :: ahead) made after
  | unit {seen ahead after : List Clause} {made : List Literal} {c : Clause} {l : Literal}
      (last : c.unit? = some l)
      (rest : Sweeps ((seen ++ [c]).map (Clause.assign l true)) (ahead.map (Clause.assign l true)) made after) :
      Sweeps seen (c :: ahead) (l :: made) after

/-- A pass that keeps the literals it made true on a trail is a sweep. -/
theorem sweeps_unitLiterals (trail : List Literal) (seen ahead : List Clause) :
    ∃ made, unitLiterals trail ahead = made.reverse ++ trail ∧
      Sweeps (seen.map (Clause.under trail)) (ahead.map (Clause.under trail)) made
        ((seen ++ ahead).map (Clause.under (unitLiterals trail ahead))) := by
  induction ahead generalizing trail seen with
  | nil =>
    refine ⟨[], rfl, ?_⟩
    rw [List.append_nil]
    exact .done
  | cons c ahead ih =>
    -- The clause moves to the end of those that were looked at, with the trail as it then is.
    have hseen (trail : List Literal) : (seen ++ [c]).map (Clause.under trail) =
        seen.map (Clause.under trail) ++ [c.under trail] := List.map_append
    have hall : seen ++ c :: ahead = (seen ++ [c]) ++ ahead := by
      rw [List.append_assoc, List.singleton_append]
    rw [unitLiterals, hall]
    cases hc : (c.under trail).unit? with
    | none =>
      obtain ⟨made, hmade, hsweeps⟩ := ih trail (seen ++ [c])
      rw [hseen] at hsweeps
      exact ⟨made, hmade, .skip hc hsweeps⟩
    | some l =>
      obtain ⟨made, hmade, hsweeps⟩ := ih (l :: trail) (seen ++ [c])
      rw [map_under_cons, map_under_cons, hseen] at hsweeps
      refine ⟨l :: made, ?_, .unit hc hsweeps⟩
      rw [List.reverse_cons, List.append_assoc, List.singleton_append]
      exact hmade

/-- The number of clauses that are not decided yet. -/
def undecidedCount (cs : List Clause) : Nat :=
  cs.countP fun c => !c.isDecided

theorem undecidedCount_append (cs ds : List Clause) :
    undecidedCount (cs ++ ds) = undecidedCount cs + undecidedCount ds :=
  List.countP_append

theorem undecidedCount_map_assign_le (cs : List Clause) (l : Literal) :
    undecidedCount (cs.map (Clause.assign l true)) ≤ undecidedCount cs := by
  rw [undecidedCount, List.countP_map]
  apply List.countP_mono_left
  intro c _ h
  by_contra hc
  rw [Bool.not_eq_true, Bool.not_eq_false'] at hc
  rw [Function.comp_apply, Clause.isDecided_assign hc] at h
  cases h

/-- Each literal that a sweep makes true decides a clause. -/
theorem Sweeps.undecidedCount_add_length_le {seen ahead after : List Clause} {made : List Literal}
    (h : Sweeps seen ahead made after) :
    undecidedCount after + made.length ≤ undecidedCount (seen ++ ahead) := by
  induction h with
  | done => rw [List.append_nil, List.length_nil, Nat.add_zero]
  | skip idle rest ih => rwa [List.append_assoc, List.singleton_append] at ih
  | @unit seen ahead after made c l last rest ih =>
    -- The clause that the pass stops at is decided, and no other one is opened again.
    have hseen := undecidedCount_map_assign_le seen l
    have hahead := undecidedCount_map_assign_le ahead l
    have hbefore : undecidedCount [c] = 1 := by
      simp [undecidedCount, Clause.isDecided_of_unit? last]
    have hdecided : undecidedCount ([c].map (Clause.assign l true)) = 0 := by
      simp [undecidedCount, Clause.isDecided_assign_of_unit? last]
    have hsplit : undecidedCount (seen ++ c :: ahead) =
        undecidedCount seen + (undecidedCount [c] + undecidedCount ahead) := by
      rw [← undecidedCount_append, ← undecidedCount_append, List.singleton_append]
    rw [List.map_append, undecidedCount_append, undecidedCount_append, hdecided] at ih
    rw [hsplit, hbefore, List.length_cons]
    omega

/-! ### Passes -/

theorem unitLiterals_eq_nil_iff {cs : List Clause} :
    unitLiterals [] cs = [] ↔ ∀ c ∈ cs, ¬ c.IsUnit := by
  induction cs with
  | nil => simp [unitLiterals]
  | cons c cs ih =>
    rw [unitLiterals, List.forall_mem_cons, ← ih, ← Clause.unit?_eq_none_iff]
    cases hc : c.unit? with
    | none =>
      have hnone : (c.under []).unit? = none := hc
      simp [hnone]
    | some l =>
      have hsome : (c.under []).unit? = some l := hc
      obtain ⟨newer, hnewer⟩ := unitLiterals_eq_append [l] cs
      simp [hsome, hnewer]

/-- A pass loses no valuation and lets none in: it makes true what is true in every valuation of the clauses. -/
theorem Valuation.live_iff_unitLiterals (v : Valuation) (cs : List Clause) :
    (∀ c ∈ cs, v.live c = true) ↔ (∀ l ∈ unitLiterals [] cs, v.untouched l = true) ∧
      ∀ c ∈ cs.map (Clause.under (unitLiterals [] cs)), v.live c = true := by
  constructor
  · intro h
    have hunits := untouched_of_mem_unitLiterals (List.forall_mem_nil _) h
    refine ⟨hunits, List.forall_mem_map.2 ?_⟩
    intro c hc
    rw [live_under hunits]
    exact h c hc
  · rintro ⟨hunits, h⟩ c hc
    rw [← live_under hunits]
    exact List.forall_mem_map.1 h c hc

namespace State

/-- A pass from `s` to `t` that makes the literals of `made` true, oldest first: it counts them, and nothing
else changes than the clauses. -/
structure PassTo (s : State) (made : List Literal) (t : State) : Prop where
  sweeps : Sweeps [] s.clauses made t.clauses
  snapshots : t.snapshots = s.snapshots
  counters : ∀ k, t.counters.get k = s.counters.get k + if k = .unitPropagations then made.length else 0

/-- A pass that makes literals true. -/
theorem exists_passTo {s : State} (h : unitLiterals [] s.clauses ≠ []) :
    ∃ made, unitLiterals [] s.clauses = made.reverse ∧ s.PassTo made s.propagate.2 := by
  obtain ⟨made, hmade, hsweeps⟩ := sweeps_unitLiterals [] [] s.clauses
  rw [List.append_nil] at hmade
  have hclauses : s.clauses.map (Clause.under []) = s.clauses := List.map_id s.clauses
  rw [hclauses, List.map_nil, List.nil_append] at hsweeps
  refine ⟨made, hmade, ?_⟩
  rw [propagate_of_units h]
  refine ⟨hsweeps, rfl, ?_⟩
  intro k
  show (s.counters.add .unitPropagations (unitLiterals [] s.clauses).length).get k = _
  rw [Counters.get_add, hmade, List.length_reverse]
  split_ifs <;> rfl

/-- A pass does nothing exactly if no clause is unit. Else it makes literals of different variables true, of which
each decides a clause, and the valuations of the clauses are those of the clauses it leaves that make its
literals true. -/
theorem propagate_exact (s : State) :
    (s.propagate.1 = false ↔ ∀ c ∈ s.clauses, ¬ c.IsUnit) ∧
      (s.propagate.1 = false → s.propagate.2 = s) ∧
      (s.propagate.1 = true → ∃ made, made ≠ [] ∧ s.PassTo made s.propagate.2 ∧
        (made.map Int.natAbs).Nodup ∧
        undecidedCount s.propagate.2.clauses + made.length ≤ undecidedCount s.clauses ∧
        ∀ v : Valuation, (∀ c ∈ s.clauses, v.live c = true) ↔
          (∀ l ∈ made, v.untouched l = true) ∧ ∀ c ∈ s.propagate.2.clauses, v.live c = true) := by
  by_cases hunits : unitLiterals [] s.clauses = []
  · rw [propagate_of_no_units hunits]
    refine ⟨iff_of_true rfl (unitLiterals_eq_nil_iff.1 hunits), fun _ => rfl, ?_⟩
    intro h
    cases h
  · obtain ⟨made, hmade, hpass⟩ := exists_passTo hunits
    have htrue : s.propagate.1 = true := by rw [propagate_of_units hunits]
    have hclauses : s.propagate.2.clauses = s.clauses.map (Clause.under (unitLiterals [] s.clauses)) := by
      rw [propagate_of_units hunits]
      rfl
    refine ⟨?_, ?_, fun _ => ⟨made, ?_, hpass, ?_, hpass.sweeps.undecidedCount_add_length_le, ?_⟩⟩
    · rw [htrue]
      refine iff_of_false (by decide) ?_
      exact fun h => hunits (unitLiterals_eq_nil_iff.2 h)
    · intro h
      rw [htrue] at h
      cases h
    · rintro rfl
      exact hunits hmade
    · have hnodup := (Fresh.unitLiterals s.clauses).nodup
      rw [hmade, List.map_reverse, List.nodup_reverse] at hnodup
      exact hnodup
    · intro v
      rw [hclauses, v.live_iff_unitLiterals]
      simp only [hmade, List.mem_reverse]

/-- A unit clause contradicts the one after it, and the pass goes on to two more. -/
def clash : State :=
  { clauses :=
      [.undecided [.literal 1], .undecided [.resolved true, .literal (-1)],
        .undecided [.literal (-1), .literal 2], .undecided [.literal 3, .literal 3],
        .undecided [.resolved true], .undecided [.literal 0]]
    snapshots := [[.decided true]]
    counters := ⟨[(.unitPropagations, 4)]⟩ }

/-- No clause is unit. -/
def quiet : State :=
  { clash with clauses := [.undecided [.literal 3, .literal 3], .decided false, .undecided [.resolved true]] }

theorem propagate_exact_clash :
    quiet.propagate.1 = false ∧ quiet.propagate.2 = quiet ∧ clash.propagate.1 = true ∧
      clash.propagate.2.clauses =
        [.decided true, .decided false, .decided true, .undecided [.literal 3, .literal 3],
          .decided false, .decided true] ∧
      ∃ made, made ≠ [] ∧ clash.PassTo made clash.propagate.2 ∧ (made.map Int.natAbs).Nodup ∧
        undecidedCount clash.propagate.2.clauses + made.length ≤ undecidedCount clash.clauses ∧
        ∀ v : Valuation, (∀ c ∈ clash.clauses, v.live c = true) ↔
          (∀ l ∈ made, v.untouched l = true) ∧ ∀ c ∈ clash.propagate.2.clauses, v.live c = true :=
  ⟨by decide, (propagate_exact quiet).2.1 (by decide), by decide, by decide,
    (propagate_exact clash).2.2 (by decide)⟩

end State

end SatSearch
