import Mathlib
import SatSearch.Cnf

/-!
# The variables of a formula

`Cnf.variables` lists the variables that occur, each once, in ascending order. As a set they are the
absolute values of the literals (`Cnf.variableSet`). Main statement: a strictly ascending list of these
values can only be `Cnf.variables` (`Cnf.eq_variables_iff`).
-/

namespace SatSearch

theorem mem_dropRepeats {x : Nat} {ns : List Nat} : x ∈ dropRepeats ns ↔ x ∈ ns := by
  fun_induction dropRepeats ns with
  | case1 a rest ih => simp [ih]
  | case2 a b rest h ih => simp [ih]
  | case3 ns h => rfl

theorem mem_sortedDistinct {x : Nat} {ns : List Nat} : x ∈ sortedDistinct ns ↔ x ∈ ns := by
  rw [sortedDistinct, mem_dropRepeats, List.mem_mergeSort]

theorem pairwise_dropRepeats {ns : List Nat} (h : ns.Pairwise (· ≤ ·)) :
    (dropRepeats ns).Pairwise (· < ·) := by
  fun_induction dropRepeats ns with
  | case1 a rest ih => exact ih h.of_cons
  | case2 a b rest hab ih =>
    refine List.pairwise_cons.2 ⟨?_, ih h.of_cons⟩
    intro c hc
    rw [mem_dropRepeats] at hc
    -- What follows is at least `b`, which comes after `a` and differs from it.
    have hle : a ≤ b := List.rel_of_pairwise_cons h List.mem_cons_self
    have hbc : b ≤ c := by
      rcases List.mem_cons.1 hc with rfl | hc
      · exact Nat.le_refl _
      · exact List.rel_of_pairwise_cons h.of_cons hc
    omega
  | case3 ns hns =>
    match ns with
    | [] => exact .nil
    | [a] => exact List.pairwise_singleton _ a
    | a :: b :: rest => exact absurd rfl (hns a b rest)

theorem pairwise_sortedDistinct (ns : List Nat) : (sortedDistinct ns).Pairwise (· < ·) := by
  apply pairwise_dropRepeats
  refine (List.pairwise_mergeSort ?_ ?_ ns).imp ?_
  · intro a b c
    simp only [decide_eq_true_eq]
    exact Nat.le_trans
  · intro a b
    simp only [Bool.or_eq_true, decide_eq_true_eq]
    exact Nat.le_total a b
  · intro a b
    exact of_decide_eq_true

namespace Cnf

theorem mem_variables {f : Cnf} {x : Nat} :
    x ∈ f.variables ↔ ∃ c ∈ f, ∃ l ∈ c, l.natAbs = x := by
  simp only [Cnf.variables, mem_sortedDistinct, List.mem_flatMap, List.mem_map]

/-- The variables of a formula, as a set. -/
def variableSet (f : Cnf) : Finset Nat :=
  (f.flatten.map Int.natAbs).toFinset

theorem mem_variableSet {f : Cnf} {x : Nat} :
    x ∈ f.variableSet ↔ ∃ c ∈ f, ∃ l ∈ c, l.natAbs = x := by
  simp only [variableSet, List.mem_toFinset, List.mem_map, List.mem_flatten]
  grind

theorem pairwise_variables (f : Cnf) : f.variables.Pairwise (· < ·) :=
  pairwise_sortedDistinct _

theorem toFinset_variables (f : Cnf) : f.variables.toFinset = f.variableSet := by
  ext x
  rw [List.mem_toFinset, mem_variables, mem_variableSet]

theorem length_variables (f : Cnf) : f.variables.length = f.variableSet.card := by
  rw [← toFinset_variables, List.toFinset_card_of_nodup f.pairwise_variables.nodup]

theorem eq_variables_iff {f : Cnf} {ns : List Nat} :
    ns = f.variables ↔ ns.Pairwise (· < ·) ∧ ns.toFinset = f.variableSet := by
  constructor
  · rintro rfl
    exact ⟨f.pairwise_variables, f.toFinset_variables⟩
  · rintro ⟨hasc, hset⟩
    refine hasc.eq_of_mem_iff f.pairwise_variables ?_
    intro x
    rw [← List.mem_toFinset, hset, ← toFinset_variables, List.mem_toFinset]

end Cnf

end SatSearch
