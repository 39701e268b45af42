import SatSearch.Generate.RandomCnf
import SatSearch.Proofs.Draws
import SatSearch.Proofs.Lists
import SatSearch.Random.Twister

/-!
# Random formulas

A pool that lost an element, with its last one in the gap, holds exactly what is left (`perm_takeOut`), so what is
drawn from a pool are different elements of it; numbers that are drawn again if they were drawn before are different
as well. Main statement: whatever stream the words come from, a random formula has the clauses asked for, each with
`k` different variables (`randomCnf_shape`).
-/

namespace SatSearch

variable {σ : Type} (next : σ → UInt32 × σ) (limit : Nat)

/-! ### Numbers below a bound -/

theorem ends_drawBelowWithin (n k tries : Nat) :
    Ends (drawBelowWithin next n k tries) (· < n) (· = .noDrawFits) := by
  induction tries with
  | zero => exact ends_throw rfl
  | succ tries ih =>
    refine (ends_modifyGet _).bind fun r _ => ?_
    split_ifs with hr
    · exact ends_pure hr
    · exact ih

theorem ends_drawBelow (n : Nat) : Ends (drawBelow next limit n) (· < n) (· = .noDrawFits) :=
  ends_drawBelowWithin next n _ limit

/-! ### The pool -/

/-- The element that is taken out and the pool with its last element in the gap are the pool. -/
theorem perm_takeOut {α : Type} {pool : List α} {j : Nat} (hj : j < pool.length) (a : α) :
    (pool.getD j a :: (pool.set j (pool.getLastD a)).dropLast).Perm pool := by
  obtain ⟨front, z, rfl⟩ := pool.eq_nil_or_concat'.resolve_left (List.ne_nil_of_length_pos (Nat.zero_lt_of_lt hj))
  rw [List.length_append, List.length_singleton] at hj
  rw [List.getLastD_concat]
  by_cases hlast : j = front.length
  · subst hlast
    simpa using (List.perm_append_singleton z front).symm
  · have hfront : j < front.length := by omega
    have hset : ((front ++ [z]).set j z).dropLast = front.set j z := by
      rw [List.set_append_left _ _ hfront, List.dropLast_concat]
    have hget : (front ++ [z]).getD j a = front[j] := by
      rw [List.getD_append _ _ _ _ hfront, List.getD_eq_getElem _ _ hfront]
    rw [hset, hget]
    calc (front[j] :: front.set j z).Perm (front[j] :: z :: front.eraseIdx j) :=
          (List.set_perm_cons_eraseIdx hfront z).cons _
      List.Perm _ (z :: front[j] :: front.eraseIdx j) := .swap ..
      List.Perm _ (z :: front) := (List.getElem_cons_eraseIdx_perm hfront).cons z
      List.Perm _ (front ++ [z]) := (List.perm_append_singleton z front).symm

theorem length_takeOut {α : Type} (pool : List α) (j : Nat) (a : α) :
    (pool.set j a).dropLast.length = pool.length - 1 := by
  rw [List.length_dropLast, List.length_set]

/-- What is drawn from a pool is a part of it. -/
theorem ends_drawFromPool {k : Nat} {pool : List Int} (hk : k ≤ pool.length) :
    Ends (drawFromPool next limit k pool) (fun xs => xs.length = k ∧ xs.Subperm pool) (· = .noDrawFits) := by
  induction k generalizing pool with
  | zero => exact ends_pure ⟨rfl, List.nil_subperm⟩
  | succ k ih =>
    refine (ends_drawBelow next limit pool.length).bind fun j hj => ?_
    have hleft : k ≤ (pool.set j (pool.getLastD 0)).dropLast.length := by
      rw [length_takeOut]
      omega
    refine (ih hleft).bind fun xs hxs => ends_pure ⟨congrArg (· + 1) hxs.1, ?_⟩
    exact ((List.subperm_cons _).2 hxs.2).trans (perm_takeOut hj 0).subperm

/-! ### Refusing what was drawn before -/

theorem ends_drawFreshWithin (n : Nat) (chosen : List Nat) (tries : Nat) :
    Ends (drawFreshWithin next limit n chosen tries) (fun j => j < n ∧ j ∉ chosen) (· = .noDrawFits) := by
  induction tries with
  | zero => exact ends_throw rfl
  | succ tries ih =>
    refine (ends_drawBelow next limit n).bind fun j hj => ?_
    split_ifs with hchosen
    · exact ih
    · exact ends_pure ⟨hj, by simpa using hchosen⟩

theorem ends_drawFresh (n k : Nat) (chosen : List Nat) :
    Ends (drawFresh next limit n k chosen)
      (fun js => js.length = k ∧ js.Nodup ∧ ∀ j ∈ js, j < n ∧ j ∉ chosen) (· = .noDrawFits) := by
  induction k generalizing chosen with
  | zero => exact ends_pure ⟨rfl, List.nodup_nil, List.forall_mem_nil _⟩
  | succ k ih =>
    refine (ends_drawFreshWithin next limit n chosen limit).bind fun j hj => ?_
    refine (ih (j :: chosen)).bind ?_
    rintro js ⟨hlength, hnodup, hfresh⟩
    refine ends_pure ⟨congrArg (· + 1) hlength, List.nodup_cons.2 ⟨fun hmem => ?_, hnodup⟩,
      List.forall_mem_cons.2 ⟨hj, fun i hi => ?_⟩⟩
    · exact (hfresh j hmem).2 List.mem_cons_self
    · exact ⟨(hfresh i hi).1, fun hmem => (hfresh i hi).2 (List.mem_cons_of_mem j hmem)⟩

/-! ### Samples -/

/-- `k` different numbers from one to `size`. -/
structure IsSample (size k : Int) (xs : List Int) : Prop where
  length : (xs.length : Int) = k
  nodup : xs.Nodup
  within : ∀ x ∈ xs, 1 ≤ x ∧ x ≤ size

/-- Why a sample fails that could be drawn: no draw fits, or the population is too great. -/
def SampleFails (size : Int) (e : GenerationError) : Prop :=
  e = .noDrawFits ∨ e = .populationTooGreat ∧ 2 ^ 63 ≤ size

theorem nodup_population (n : Nat) : (population n).Nodup := by
  refine List.nodup_range.map fun i j h => ?_
  exact Int.ofNat.inj (add_right_cancel h)

theorem length_population (n : Nat) : (population n).length = n := by
  rw [population, List.length_map, List.length_range]

theorem mem_population {n : Nat} {x : Int} : x ∈ population n ↔ 1 ≤ x ∧ x ≤ n := by
  rw [population, List.mem_map]
  constructor
  · rintro ⟨i, hi, rfl⟩
    rw [List.mem_range] at hi
    omega
  · intro h
    exact ⟨(x - 1).toNat, List.mem_range.2 (by omega), by omega⟩

theorem isSample_of_subperm {n k : Nat} {xs : List Int} (hlength : xs.length = k)
    (h : xs.Subperm (population n)) : IsSample n k xs where
  length := congrArg Nat.cast hlength
  nodup := by
    obtain ⟨ys, hperm, hsub⟩ := h
    exact hperm.nodup_iff.1 ((nodup_population n).sublist hsub)
  within x hx := mem_population.1 (h.subset hx)

theorem isSample_of_fresh {n k : Nat} {js : List Nat} (hlength : js.length = k) (hnodup : js.Nodup)
    (hbelow : ∀ j ∈ js, j < n) : IsSample n k (js.map fun (j : Nat) => (j : Int) + 1) where
  length := by rw [List.length_map, hlength]
  nodup := hnodup.map fun i j h => Int.ofNat.inj (add_right_cancel h)
  within := by
    rw [List.forall_mem_map]
    intro j hj
    have := hbelow j hj
    omega

theorem ends_sampleFrom {size k : Int} (hk : 0 ≤ k) (hsize : k ≤ size) :
    Ends (sampleFrom next limit size k) (IsSample size k) (SampleFails size) := by
  obtain ⟨k, rfl⟩ := Int.eq_ofNat_of_zero_le hk
  obtain ⟨n, rfl⟩ := Int.eq_ofNat_of_zero_le (hk.trans hsize)
  unfold sampleFrom
  refine ends_guard (fun hgreat => .inr ⟨rfl, by exact_mod_cast hgreat⟩) fun _ => ?_
  refine ends_guard (fun hrange => absurd hrange (by simpa using hsize)) fun _ => ?_
  rw [Int.toNat_natCast, Int.toNat_natCast]
  split_ifs
  · refine (ends_drawFromPool next limit ?_).imp (fun xs hxs => isSample_of_subperm hxs.1 hxs.2) fun e => .inl
    rw [length_population]
    exact_mod_cast hsize
  · refine ((ends_drawFresh next limit n k []).imp (fun _ => id) fun e => .inl).bind fun js hjs => ends_pure ?_
    exact isSample_of_fresh hjs.1 hjs.2.1 fun j hj => (hjs.2.2 j hj).1

/-! ### Signs -/

theorem ends_unitFrom : Ends (unitFrom next) (fun _ => True) fun _ => False :=
  (ends_modifyGet _).bind fun _ _ => (ends_modifyGet _).bind fun _ _ => ends_pure trivial

theorem ends_randomSign (x : Int) :
    Ends (randomSign (wordDraws next limit) x) (fun l => l = x ∨ l = -x) fun _ => False := by
  refine (ends_unitFrom next).bind fun r _ => ends_pure ?_
  split_ifs
  · exact .inl rfl
  · exact .inr rfl

/-- The clause has `k` literals, and their variables are different numbers from one to `variableCount`. -/
structure IsRandomClause (variableCount k : Int) (c : List Literal) : Prop where
  length : (c.length : Int) = k
  distinct : (c.map Int.natAbs).Nodup
  within : ∀ l ∈ c, 1 ≤ l.natAbs ∧ (l.natAbs : Int) ≤ variableCount

namespace IsRandomClause

variable {variableCount k : Int} {c : List Literal}

/-- No literal stands twice. -/
theorem nodup (h : IsRandomClause variableCount k c) : c.Nodup :=
  h.distinct.of_map

/-- No literal stands next to its negation. -/
theorem neg_not_mem (h : IsRandomClause variableCount k c) {l : Literal} (hl : l ∈ c) : -l ∉ c := by
  intro hneg
  have heq : l = -l := List.inj_on_of_nodup_map h.distinct hl hneg (Int.natAbs_neg l).symm
  have hpos := (h.within l hl).1
  rw [self_eq_neg.1 heq] at hpos
  cases hpos

end IsRandomClause

theorem map_natAbs_of_signs {xs : List Int} {c : List Literal}
    (h : List.Forall₂ (fun x l => l = x ∨ l = -x) xs c) : c.map Int.natAbs = xs.map Int.natAbs := by
  induction h with
  | nil => rfl
  | cons hl _ ih =>
    rw [List.map_cons, List.map_cons, ih]
    rcases hl with rfl | rfl
    · rfl
    · rw [Int.natAbs_neg]

theorem IsSample.isRandomClause {variableCount k : Int} {xs : List Int} {c : List Literal}
    (hxs : IsSample variableCount k xs) (h : List.Forall₂ (fun x l => l = x ∨ l = -x) xs c) :
    IsRandomClause variableCount k c where
  length := h.length_eq ▸ hxs.length
  distinct := by
    rw [map_natAbs_of_signs h]
    refine hxs.nodup.map_on fun x hx y hy hxy => ?_
    have := (hxs.within x hx).1
    have := (hxs.within y hy).1
    omega
  within l hl := by
    have hmem : l.natAbs ∈ xs.map Int.natAbs := map_natAbs_of_signs h ▸ List.mem_map_of_mem hl
    obtain ⟨x, hx, hxl⟩ := List.mem_map.1 hmem
    have := hxs.within x hx
    omega

/-! ### Formulas -/

variable {variableCount k : Int}

theorem ends_randomClause (hk : 0 ≤ k) (hvariables : k ≤ variableCount) :
    Ends (randomClause (wordDraws next limit) variableCount k) (IsRandomClause variableCount k)
      (SampleFails variableCount) := by
  refine (ends_sampleFrom next limit hk hvariables).bind fun xs hxs => ?_
  have hsigns := ends_mapM fun x (_ : x ∈ xs) => ends_randomSign next limit x
  exact hsigns.imp (fun c hc => hxs.isRandomClause hc) fun _ => False.elim

theorem ends_randomCnf (clauseCount : Int) (hk : 0 ≤ k) (hvariables : k ≤ variableCount) :
    Ends (randomCnf (wordDraws next limit) variableCount clauseCount k)
      (fun f => f.length = clauseCount.toNat ∧ ∀ c ∈ f, IsRandomClause variableCount k c)
      (SampleFails variableCount) := by
  unfold randomCnf
  refine ends_guard (fun hfew => absurd hvariables (not_le.2 hfew)) fun _ => ?_
  have hclauses := ends_mapM fun (u : Unit) (_ : u ∈ List.replicate clauseCount.toNat ()) =>
    ends_randomClause next limit hk hvariables
  refine hclauses.imp (fun f hf => ⟨?_, fun c hc => ?_⟩) fun _ => id
  · rw [← hf.length_eq, List.length_replicate]
  · obtain ⟨_, -, hc⟩ := exists_mem_of_forall₂ hf c hc
    exact hc

/-- Whatever stream the words come from, such as the twister from any seed, and however many draws are allowed for
one number: a formula that is given has the number of clauses asked for, and each clause `k` different variables
from one to `variableCount`, so that no literal stands in it twice or next to its negation. There is no formula only
if no draw fits, or if the population is too great to draw from. -/
theorem randomCnf_shape (clauseCount : Int) (hk : 0 ≤ k) (hvariables : k ≤ variableCount) (s : σ) :
    (∀ f s', (randomCnf (wordDraws next limit) variableCount clauseCount k).run s = .ok (f, s') →
      (f.length : Int) = max clauseCount 0 ∧
        ∀ c ∈ f, IsRandomClause variableCount k c ∧ c.Nodup ∧ ∀ l ∈ c, -l ∉ c) ∧
    ∀ e, (randomCnf (wordDraws next limit) variableCount clauseCount k).run s = .error e →
      SampleFails variableCount e := by
  have hends := ends_randomCnf next limit clauseCount hk hvariables
  refine ⟨fun f s' hrun => ?_, hends.fails s⟩
  obtain ⟨hlength, hclauses⟩ := hends.yields s f s' hrun
  refine ⟨by omega, fun c hc => ?_⟩
  exact ⟨hclauses c hc, (hclauses c hc).nodup, fun l hl => (hclauses c hc).neg_not_mem hl⟩

/-- A stream of given words, with zeros behind them. -/
def nextWord (words : List UInt32) : UInt32 × List UInt32 :=
  (words.headD 0, words.tail)

/-- Words for two of three variables: the first one fits no number below three, and behind the second one the last
variable has moved to the front of the pool. -/
def poolWords : List UInt32 :=
  [0xC0000000, 0, 0, 0x80000000, 0, 0, 0]

/-- Words for two of thirty variables: the first one fits no number below thirty, and the third one is that of a
variable drawn before. -/
def repeatedWords : List UInt32 :=
  [0xF8000000, 0x20000000, 0x20000000, 0, 0, 0, 0x80000000, 0]

theorem randomCnf_shape_redrawn :
    ((randomCnf (wordDraws nextWord 3) 3 1 2).run poolWords = .ok ([[-1, 3]], []) ∧
      IsRandomClause 3 2 [-1, 3]) ∧
    (randomCnf (wordDraws nextWord 3) 30 1 2).run repeatedWords = .ok ([[5, -1]], []) ∧
      IsRandomClause 30 2 [5, -1] := by
  have hpool : (randomCnf (wordDraws nextWord 3) 3 1 2).run poolWords = .ok ([[-1, 3]], []) := by decide +kernel
  have hrepeated : (randomCnf (wordDraws nextWord 3) 30 1 2).run repeatedWords = .ok ([[5, -1]], []) := by
    decide +kernel
  have htwo : (0 : Int) ≤ 2 := by decide
  have hthree : (2 : Int) ≤ 3 := by decide
  have hthirty : (2 : Int) ≤ 30 := by decide
  obtain ⟨hsmall, -⟩ := randomCnf_shape nextWord 3 1 htwo hthree poolWords
  obtain ⟨hgreat, -⟩ := randomCnf_shape nextWord 3 1 htwo hthirty repeatedWords
  exact ⟨⟨hpool, ((hsmall _ _ hpool).2 _ List.mem_cons_self).1⟩, hrepeated,
    ((hgreat _ _ hrepeated).2 _ List.mem_cons_self).1⟩

end SatSearch
