import SatSearch.Generate.Pigeonhole
import SatSearch.Proofs.Formula

/-!
# When the pigeons have room

A valuation of a pigeonhole formula seats pigeons in holes (`Valuation.seats`). It makes the formula true
exactly if every pigeon sits somewhere and no two sit in one hole (`cnf_pigeonhole_iff`), since different
pairs of a pigeon and a hole have different variables (`eq_of_natAbs_sits_eq`). Main statement: the formula can
be satisfied exactly if there are at least as many holes as pigeons, and the search says so
(`pigeonhole_satisfiable_iff`).
-/

namespace SatSearch

/-! ### Pairs and variables -/

theorem mem_pairsBelow {n p q : Nat} : (p, q) ∈ pairsBelow n ↔ p < q ∧ q < n := by
  simp only [pairsBelow, List.mem_flatMap, List.mem_map, List.mem_filter, List.mem_range,
    decide_eq_true_eq, Prod.mk.injEq]
  constructor
  · rintro ⟨a, -, b, ⟨hb, hab⟩, rfl, rfl⟩
    exact ⟨hab, hb⟩
  · rintro ⟨hpq, hq⟩
    exact ⟨p, by omega, q, ⟨hq, hpq⟩, rfl, rfl⟩

theorem natAbs_sits (holes p h : Nat) : (sits holes p h).natAbs = p * holes + h + 1 :=
  Int.natAbs_natCast (p * holes + h + 1)

theorem sits_pos (holes p h : Nat) : (0 : Int) < sits holes p h :=
  Int.natCast_pos.2 (Nat.succ_pos (p * holes + h))

theorem eq_of_natAbs_sits_eq {holes p q h k : Nat} (hh : h < holes) (hk : k < holes)
    (e : (sits holes p h).natAbs = (sits holes q k).natAbs) : p = q ∧ h = k := by
  have hnum : holes * p + h = holes * q + k := by
    rw [natAbs_sits, natAbs_sits, Nat.mul_comm p, Nat.mul_comm q] at e
    omega
  constructor
  · have hdiv := congrArg (· / holes) hnum
    simpa [Nat.mul_add_div (Nat.zero_lt_of_lt hh), Nat.div_eq_of_lt hh, Nat.div_eq_of_lt hk] using hdiv
  · have hmod := congrArg (· % holes) hnum
    simpa [Nat.mul_add_mod, Nat.mod_eq_of_lt hh, Nat.mod_eq_of_lt hk] using hmod

/-! ### Seatings -/

namespace Valuation

/-- Pigeon `p` sits in hole `h`. -/
def seats (v : Valuation) (holes p h : Nat) : Prop :=
  v.literal (sits holes p h) = true

theorem literal_neg_sits (v : Valuation) (holes p h : Nat) :
    v.literal (-sits holes p h) = true ↔ ¬ v.seats holes p h := by
  have hpos : (0 : Int) < sits holes p h := sits_pos holes p h
  have hneg : ¬ (0 : Int) < -sits holes p h := not_lt.2 (neg_nonpos.2 hpos.le)
  rw [seats, literal, literal, Int.natAbs_neg, decide_eq_true hpos, decide_eq_false hneg]
  cases v (sits holes p h).natAbs <;> simp

theorem cnf_pigeonhole_iff (v : Valuation) (pigeons holes : Nat) :
    v.cnf (pigeonhole pigeons holes) = true ↔
      (∀ p < pigeons, ∃ h < holes, v.seats holes p h) ∧
      ∀ h < holes, ∀ p q, p < q → q < pigeons → ¬ (v.seats holes p h ∧ v.seats holes q h) := by
  simp only [cnf_iff, pigeonhole, List.forall_mem_append, List.forall_mem_map, List.forall_mem_flatMap,
    List.mem_range]
  apply and_congr
  · simp [clause, seats]
  · refine forall₂_congr fun h _ => ?_
    rw [Prod.forall]
    refine forall₂_congr fun p q => ?_
    rw [mem_pairsBelow, and_imp]
    refine forall₂_congr fun _ _ => ?_
    simp only [clause, List.any_cons, List.any_nil, Bool.or_false, Bool.or_eq_true, literal_neg_sits]
    exact not_and_or.symm

/-- Every pigeon sits in the hole of its own number. -/
def ownHoles (pigeons holes : Nat) : Valuation :=
  fun x => decide (∃ p < pigeons, x = (sits holes p p).natAbs)

theorem seats_ownHoles_iff {pigeons holes p h : Nat} (hle : pigeons ≤ holes) (hh : h < holes) :
    (ownHoles pigeons holes).seats holes p h ↔ p < pigeons ∧ h = p := by
  rw [seats, literal, decide_eq_true (sits_pos holes p h), beq_true, ownHoles, decide_eq_true_eq]
  constructor
  · rintro ⟨q, hq, e⟩
    obtain ⟨rfl, rfl⟩ := eq_of_natAbs_sits_eq hh (hq.trans_le hle) e
    exact ⟨hq, rfl⟩
  · rintro ⟨hp, rfl⟩
    exact ⟨h, hp, rfl⟩

end Valuation

/-! ### Room -/

/-- Seating every pigeon alone takes as many holes as there are pigeons. -/
theorem le_of_cnf_pigeonhole {v : Valuation} {pigeons holes : Nat}
    (h : v.cnf (pigeonhole pigeons holes) = true) : pigeons ≤ holes := by
  obtain ⟨hsomewhere, halone⟩ := (v.cnf_pigeonhole_iff pigeons holes).1 h
  choose hole hlt hseats using hsomewhere
  let seat : Fin pigeons → Fin holes := fun p => ⟨hole p p.isLt, hlt p p.isLt⟩
  have hdistinct : ∀ p q : Fin pigeons, p < q → seat p ≠ seat q := by
    intro p q hpq e
    have hole_eq : hole p p.isLt = hole q q.isLt := congrArg Fin.val e
    refine halone _ (hlt p p.isLt) p q hpq q.isLt ⟨hseats p p.isLt, ?_⟩
    rw [hole_eq]
    exact hseats q q.isLt
  have hinj : Function.Injective seat := by
    intro p q e
    rcases lt_trichotomy p q with hpq | hpq | hpq
    · exact absurd e (hdistinct p q hpq)
    · exact hpq
    · exact absurd e.symm (hdistinct q p hpq)
  simpa using Fintype.card_le_of_injective seat hinj

theorem cnf_pigeonhole_ownHoles {pigeons holes : Nat} (h : pigeons ≤ holes) :
    (Valuation.ownHoles pigeons holes).cnf (pigeonhole pigeons holes) = true := by
  rw [Valuation.cnf_pigeonhole_iff]
  constructor
  · intro p hp
    have hlt : p < holes := hp.trans_le h
    exact ⟨p, hlt, (Valuation.seats_ownHoles_iff h hlt).2 ⟨hp, rfl⟩⟩
  · rintro k hk p q hpq - ⟨hp, hq⟩
    have hkp := ((Valuation.seats_ownHoles_iff h hk).1 hp).2
    have hkq := ((Valuation.seats_ownHoles_iff h hk).1 hq).2
    omega

/-- Pigeons can sit alone in holes exactly if there are no more of them than holes, and that is what
the search answers. -/
theorem pigeonhole_satisfiable_iff (pigeons holes : Nat) :
    ((pigeonhole pigeons holes).Satisfiable ↔ pigeons ≤ holes) ∧
      (pigeonhole pigeons holes).solve = .answered (if pigeons ≤ holes then .sat else .unsat) := by
  have hroom : (pigeonhole pigeons holes).Satisfiable ↔ pigeons ≤ holes := by
    constructor
    · rintro ⟨v, hv⟩
      exact le_of_cnf_pigeonhole hv
    · intro h
      exact ⟨_, cnf_pigeonhole_ownHoles h⟩
  refine ⟨hroom, ?_⟩
  obtain ⟨status, hsolve, hstatus⟩ := (pigeonhole pigeons holes).exists_answer
  rw [hroom] at hstatus
  rw [hsolve]
  by_cases h : pigeons ≤ holes
  · rw [if_pos h, hstatus.2 h]
  · rw [if_neg h]
    cases status with
    | sat => exact absurd (hstatus.1 rfl) h
    | unsat => rfl

end SatSearch
