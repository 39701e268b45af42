import SatSearch.Dimacs.Formula
import SatSearch.Proofs.Assignment
import SatSearch.Proofs.Ledger
import SatSearch.Solve

/-!
# When a search goes wrong

A search has two ways to go wrong: there is no literal to branch on, or no snapshot to go back to. The
second never happens, since every untried decision owns a snapshot. The first can only happen before
anything was assigned: an assignment leaves every clause decided or with an untouched literal
(`Clause.Tidy`), and so does going back, which assigns the negated literal at once. Main statement: a
search goes wrong exactly for `Barren` clauses, and then it has done nothing (`search_stuck_iff`).
-/

namespace SatSearch

/-! ### Tidy clauses -/

namespace Clause

theorem isSatisfied_iff {c : Clause} : c.isSatisfied = true ↔ c = decided true := by
  cases c <;> simp [isSatisfied]

theorem isFalsified_iff {c : Clause} : c.isFalsified = true ↔ c = decided false := by
  cases c <;> simp [isFalsified]

/-- The clause is decided or has an untouched literal left. -/
def Tidy (c : Clause) : Prop :=
  c.isDecided = true ∨ c.unassigned ≠ []

theorem unassigned_undecided_eq_nil_iff {es : List Element} :
    (undecided es).unassigned = [] ↔ ∀ e ∈ es, ∃ b, e = .resolved b := by
  simp only [unassigned, List.filterMap_eq_nil_iff]
  refine forall₂_congr fun e _ => ?_
  cases e with
  | literal l => simp [Element.literal?]
  | resolved b => simp [Element.literal?]

theorem tidy_assign (c : Clause) (l : Literal) (truth : Bool) : (c.assign l truth).Tidy := by
  cases c with
  | decided b => exact .inl rfl
  | undecided es =>
    rw [assign]
    split_ifs with hsat hnone
    · exact .inl rfl
    · exact .inl rfl
    · rw [all_isNone_iff] at hnone
      exact .inr hnone

theorem tidy_under {trail : List Literal} (h : trail ≠ []) (c : Clause) : (c.under trail).Tidy := by
  cases trail with
  | nil => exact absurd rfl h
  | cons l older => exact tidy_assign _ l true

theorem tidy_ofLiterals (ls : List Literal) : (ofLiterals ls).Tidy := by
  cases ls with
  | nil => exact .inl rfl
  | cons l ls => exact .inr (by simp [ofLiterals, ofElements, unassigned, Element.literal?])

end Clause

theorem Search.Round.tidy {q next : Search} {event : Option Event} (h : q.Round event next) :
    ∀ c ∈ next.state.clauses, c.Tidy := by
  cases h with
  | propagated live units => exact List.forall_mem_map.2 fun c _ => c.tidy_under units
  | branched live idle pick => exact List.forall_mem_map.2 fun c _ => c.tidy_assign _ true
  | backtracked failed negated decisions snapshots =>
    exact List.forall_mem_map.2 fun c _ => c.tidy_assign _ true

/-! ### Barren clauses -/

/-- No clause is false, some clause is not true, and the undecided clauses have resolved places only. -/
structure Barren (cs : List Clause) : Prop where
  unfalsified : .decided false ∉ cs
  unsatisfied : ∃ c ∈ cs, c ≠ .decided true
  resolved : ∀ es, .undecided es ∈ cs → ∀ e ∈ es, ∃ b, e = .resolved b

theorem not_barren_of_tidy {cs : List Clause} (h : ∀ c ∈ cs, c.Tidy) : ¬ Barren cs := by
  intro hbarren
  obtain ⟨c, hc, hne⟩ := hbarren.unsatisfied
  cases c with
  | decided b =>
    cases b with
    | true => exact hne rfl
    | false => exact hbarren.unfalsified hc
  | undecided es =>
    rcases h _ hc with hdec | hopen
    · cases hdec
    · exact hopen (Clause.unassigned_undecided_eq_nil_iff.2 (hbarren.resolved es hc))

/-- Where no place is untouched there is nothing to propagate. -/
theorem unitLiterals_eq_nil {cs : List Clause} (h : unassignedLiterals cs = []) : unitLiterals [] cs = [] := by
  by_contra hu
  obtain ⟨_, l, -, hl⟩ := exists_unit_of_unitLiterals hu
  rw [h] at hl
  cases hl

namespace State

theorem status?_eq_none_iff {s : State} :
    s.status? = none ↔ s.isSatisfied = false ∧ s.isFalsified = false := by
  unfold status?
  cases s.isSatisfied <;> cases s.isFalsified <;> simp

theorem pickLiteral_eq_error_iff {s : State} {e : SearchError} :
    s.pickLiteral = .error e ↔ unassignedLiterals s.clauses = [] ∧ e = .nothingToBranchOn := by
  unfold pickLiteral
  cases unassignedLiterals s.clauses with
  | nil => simp [mostFrequent?, eq_comm]
  | cons l ls => simp [mostFrequent?]

/-- Clauses are barren when they show no answer and hold no untouched literal. -/
theorem barren_iff {s : State} :
    Barren s.clauses ↔ s.status? = none ∧ unassignedLiterals s.clauses = [] := by
  rw [status?_eq_none_iff, isSatisfied, isFalsified, List.all_eq_false, List.any_eq_false,
    unassignedLiterals, List.flatMap_eq_nil_iff]
  simp only [Clause.isSatisfied_iff, Clause.isFalsified_iff]
  constructor
  · intro h
    refine ⟨⟨h.unsatisfied, ?_⟩, ?_⟩
    · rintro c hc rfl
      exact h.unfalsified hc
    · intro c hc
      cases c with
      | decided b => rfl
      | undecided es => exact Clause.unassigned_undecided_eq_nil_iff.2 (h.resolved es hc)
  · rintro ⟨⟨hunsat, hunfals⟩, hnone⟩
    refine ⟨fun hc => hunfals _ hc rfl, hunsat, ?_⟩
    intro es hes
    exact Clause.unassigned_undecided_eq_nil_iff.1 (hnone _ hes)

/-- Barren clauses stop a search before it does anything. -/
theorem search_eq_of_barren {s : State} (h : Barren s.clauses) :
    s.search none = { ending := .stuck .nothingToBranchOn, state := s, events := [] } := by
  obtain ⟨hlive, hnone⟩ := barren_iff.1 h
  exact (Search.Final.unpickable (q := Search.start s) hlive (unitLiterals_eq_nil hnone)
    (pickLiteral_eq_error_iff.2 ⟨hnone, rfl⟩)).runFrom_eq []

/-- Only barren clauses stop a search. -/
theorem barren_of_stuck {s : State} {e : SearchError} (h : (s.search none).ending = .stuck e) :
    Barren s.clauses := by
  obtain ⟨history, q, event, ending, hreach, hfinal, hrun⟩ := Search.exists_final_of_search s
  rw [hrun] at h
  obtain rfl : ending = .stuck e := h
  cases hfinal with
  | unpickable live idle pick =>
    have hbarren : Barren q.state.clauses := barren_iff.2 ⟨live, (pickLiteral_eq_error_iff.1 pick).1⟩
    -- A round leaves tidy clauses, so only the first loop head can be barren.
    cases hreach with
    | refl => exact hbarren
    | onward before step => exact absurd hbarren (not_barren_of_tidy (Search.Round.of_step step).tidy)
  | unsaved failed negated decisions snapshots =>
    obtain ⟨own, hown⟩ := LedgerAt.exists_of_reaches hreach
    refine absurd snapshots (hown.snapshots_ne_nil ?_)
    rw [decisions, untried_append negated]
    exact List.cons_ne_nil _ _

end State

/-! ### Formulas -/

/-- A search for a formula never goes wrong. -/
theorem Cnf.solve_ne_stuck (f : Cnf) (e : SearchError) : f.solve ≠ .stuck e := by
  intro h
  refine not_barren_of_tidy ?_ (State.barren_of_stuck h)
  exact List.forall_mem_map.2 fun ls _ => Clause.tidy_ofLiterals ls

/-- A search goes wrong exactly if its clauses are barren. It has then changed and reported nothing,
and it is never for want of a snapshot. No formula makes a search go wrong. -/
theorem search_stuck_iff (s : State) :
    ((∃ e, (s.search none).ending = .stuck e) ↔ Barren s.clauses) ∧
    ((∃ e, (s.search none).ending = .stuck e) →
      s.search none = { ending := .stuck .nothingToBranchOn, state := s, events := [] } ∧
        (s.search none).log = []) ∧
    (s.search none).ending ≠ .stuck .noSnapshot ∧
    (∀ (f : Cnf) (e : SearchError), f.solve ≠ .stuck e) ∧
    ∀ (f : Dimacs.Formula) (e : SearchError), solveClauses f.toClauses ≠ .stuck e := by
  refine ⟨?_, ?_, ?_, Cnf.solve_ne_stuck, fun f => Cnf.solve_ne_stuck f.clauses⟩
  · constructor
    · rintro ⟨e, he⟩
      exact State.barren_of_stuck he
    · intro h
      rw [State.search_eq_of_barren h]
      exact ⟨_, rfl⟩
  · rintro ⟨e, he⟩
    rw [State.search_eq_of_barren (State.barren_of_stuck he)]
    exact ⟨rfl, rfl⟩
  · intro h
    rw [State.search_eq_of_barren (State.barren_of_stuck h)] at h
    cases h

/-- Between true clauses stands one whose places were all resolved, one of them to true. -/
def husk : State :=
  { clauses := [.decided true, .undecided [.resolved false, .resolved true], .decided true]
    snapshots := [[.undecided [.literal 1]], []]
    counters := ⟨[(.backtracks, 3), (.decisions, 1)]⟩ }

theorem search_stuck_husk :
    (∃ e, (husk.search none).ending = .stuck e) ∧ (husk.search none).state = husk := by
  have hbarren : Barren husk.clauses := State.barren_iff.2 ⟨by decide, by decide⟩
  have hstuck := (search_stuck_iff husk).1.2 hbarren
  exact ⟨hstuck, by rw [((search_stuck_iff husk).2.1 hstuck).1]⟩

end SatSearch
