import Mathlib

/-!
# Lists

A list that is read item by item (`List.mapM`) is read if every item is, and what cannot be read fails at some
item. A list that is counted key by key (`sum_map_countP`) is counted as a whole. Pairs are looked up the same
in any order if no key comes twice (`lookup_eq_of_perm`).
-/

namespace SatSearch

/-! ### Reading item by item -/

section MapM

variable {α β ε : Type} {g : α → Except ε β} {as : List α}

theorem mapM_eq_ok_iff {bs : List β} :
    as.mapM g = .ok bs ↔ List.Forall₂ (fun a b => g a = .ok b) as bs := by
  induction as generalizing bs with
  | nil => cases bs <;> simp [pure, Except.pure]
  | cons a as ih =>
    rw [List.mapM_cons]
    cases ha : g a with
    | error e => cases bs <;> simp [bind, Except.bind, ha]
    | ok b =>
      cases has : as.mapM g with
      | error e => cases bs <;> simp [bind, Except.bind, ha, ← ih, has]
      | ok cs => cases bs <;> simp [bind, Except.bind, pure, Except.pure, ha, ← ih, has]

theorem exists_mem_of_mapM_eq_error {e : ε} (h : as.mapM g = .error e) : ∃ a ∈ as, g a = .error e := by
  induction as with
  | nil => cases h
  | cons a as ih =>
    rw [List.mapM_cons] at h
    cases ha : g a with
    | error e' =>
      rw [ha] at h
      cases h
      exact ⟨a, List.mem_cons_self, ha⟩
    | ok b =>
      rw [ha] at h
      cases has : as.mapM g with
      | error e' =>
        rw [has] at h
        cases h
        obtain ⟨a', ha', he⟩ := ih has
        exact ⟨a', List.mem_cons_of_mem a ha', he⟩
      | ok bs =>
        rw [has] at h
        cases h

end MapM

section Forall₂

variable {α β : Type} {r : α → β → Prop}

theorem exists_mem_of_forall₂ {as : List α} {bs : List β} (h : List.Forall₂ r as bs) :
    ∀ b ∈ bs, ∃ a ∈ as, r a b := by
  induction h with
  | nil => simp
  | cons hab _ ih =>
    refine List.forall_mem_cons.2 ⟨⟨_, List.mem_cons_self, hab⟩, ?_⟩
    intro b hb
    obtain ⟨a, ha, hab⟩ := ih b hb
    exact ⟨a, List.mem_cons_of_mem _ ha, hab⟩

end Forall₂

/-! ### Counting -/

/-- Counting apart what has each of the keys counts everything, if no key is missing and none comes twice. -/
theorem sum_map_countP {α κ : Type} [DecidableEq κ] {keys : List κ} (hkeys : keys.Nodup) {key : α → κ}
    {p : α → Bool} {as : List α} (h : ∀ a ∈ as, p a = true → key a ∈ keys) :
    (keys.map fun k => as.countP fun a => key a == k && p a).sum = as.countP p := by
  induction as with
  | nil => simp
  | cons a as ih =>
    obtain ⟨ha, has⟩ := List.forall_mem_cons.1 h
    simp only [List.countP_cons, List.sum_map_add, ih has]
    congr 1
    rw [List.sum_map_eq_nsmul_single (key a)]
    · cases hp : p a with
      | false => simp
      | true => simp [List.count_eq_one_of_mem hkeys (ha hp)]
    · intro k hk _
      simp [hk.symm]

/-! ### Looking up -/

section Lookup

variable {α β : Type} [BEq α] [LawfulBEq α] {s t : List (α × β)}

theorem lookup_eq_some_iff_mem (h : (s.map Prod.fst).Nodup) {a : α} {b : β} :
    s.lookup a = some b ↔ (a, b) ∈ s := by
  induction s with
  | nil => simp
  | cons p s ih =>
    obtain ⟨a', b'⟩ := p
    rw [List.map_cons, List.nodup_cons] at h
    rw [List.lookup_cons, List.mem_cons, Prod.mk.injEq]
    cases ha : a == a' with
    | true =>
      obtain rfl := beq_iff_eq.1 ha
      have hout : (a, b) ∉ s := fun hmem => h.1 (List.mem_map.2 ⟨_, hmem, rfl⟩)
      simp [hout, eq_comm]
    | false => rw [ih h.2, or_iff_right fun heq => beq_eq_false_iff_ne.1 ha heq.1]

/-- Where no key comes twice, the order of the pairs makes no difference. -/
theorem lookup_eq_of_perm (h : (s.map Prod.fst).Nodup) (hperm : s.Perm t) (a : α) :
    t.lookup a = s.lookup a := by
  have ht : (t.map Prod.fst).Nodup := (hperm.map Prod.fst).nodup_iff.1 h
  refine Option.ext fun b => ?_
  rw [lookup_eq_some_iff_mem ht, lookup_eq_some_iff_mem h, hperm.mem_iff]

end Lookup

/-! ### Joining -/

/-- What a separator divides can be looked at piece by piece. -/
theorem apply_intercalate {α β : Type} {F : List α → List β} {sep : α} (hnil : F [] = [])
    (happend : ∀ s t, F (s ++ sep :: t) = F s ++ F t) (ls : List (List α)) :
    F ([sep].intercalate ls) = ls.flatMap F := by
  induction ls with
  | nil => exact hnil
  | cons l ls ih =>
    cases ls with
    | nil => rw [List.intercalate_singleton, List.flatMap_singleton]
    | cons l' ls =>
      rw [List.intercalate_cons_cons, List.append_assoc, List.singleton_append, happend, ih,
        ← List.flatMap_cons]

theorem intercalate_sublist {α : Type*} {sep : List α} {ls ls' : List (List α)} (h : ls.Sublist ls') :
    (sep.intercalate ls).Sublist (sep.intercalate ls') := by
  induction h with
  | slnil => exact List.Sublist.refl _
  | @cons ls ls' l h ih =>
    cases ls' with
    | nil =>
      rw [List.sublist_nil.1 h]
      exact List.nil_sublist _
    | cons l' ls' =>
      rw [List.intercalate_cons_cons]
      exact ih.trans (List.sublist_append_right _ _)
  | @cons_cons ls ls' l h ih =>
    cases ls with
    | nil =>
      rw [List.intercalate_singleton]
      cases ls' with
      | nil => rw [List.intercalate_singleton]
      | cons l' ls' =>
        rw [List.intercalate_cons_cons, List.append_assoc]
        exact List.sublist_append_left _ _
    | cons k ls =>
      obtain ⟨l', ls', rfl⟩ := List.exists_cons_of_ne_nil (List.ne_nil_of_length_pos
        (h.length_le.trans_lt' (Nat.succ_pos _)))
      rw [List.intercalate_cons_cons, List.intercalate_cons_cons]
      exact (List.Sublist.refl _).append ih

end SatSearch
