import Mathlib
import SatSearch.Random.Draw

/-!
# What draws lead to

A computation that draws can be looked at without its stream: `Yields` says what holds of all that it gives, and
`Ends` also says what it fails with. Both follow the steps of the computation.
-/

namespace SatSearch

variable {σ α β : Type}

/-! ### What is given -/

/-- What the computation gives satisfies `P`, whatever was drawn. -/
def Yields (d : Draw σ α) (P : α → Prop) : Prop :=
  ∀ s a s', d.run s = .ok (a, s') → P a

theorem yields_true (d : Draw σ α) : Yields d fun _ => True :=
  fun _ _ _ _ => trivial

theorem yields_pure {P : α → Prop} {a : α} (h : P a) : Yields (pure a : Draw σ α) P := by
  intro s b s' e
  cases e
  exact h

theorem Yields.bind {d : Draw σ α} {k : α → Draw σ β} {P : α → Prop} {Q : β → Prop} (hd : Yields d P)
    (hk : ∀ a, P a → Yields (k a) Q) : Yields (d >>= k) Q := by
  intro s b s' e
  rw [StateT.run_bind] at e
  cases hrun : d.run s with
  | error err =>
    rw [hrun] at e
    cases e
  | ok r =>
    rw [hrun] at e
    exact hk r.1 (hd s r.1 r.2 hrun) r.2 b s' e

theorem yields_mapM {P : β → Prop} {g : α → Draw σ β} {as : List α} (h : ∀ a ∈ as, Yields (g a) P) :
    Yields (as.mapM g) fun bs => ∀ b ∈ bs, P b := by
  induction as with
  | nil => exact yields_pure (List.forall_mem_nil P)
  | cons a as ih =>
    obtain ⟨ha, has⟩ := List.forall_mem_cons.1 h
    rw [List.mapM_cons]
    exact ha.bind fun b hb => (ih has).bind fun bs hbs =>
      yields_pure (List.forall_mem_cons.2 ⟨hb, hbs⟩)

/-! ### Success and failure -/

/-- What the computation gives satisfies `P`, and if it fails the error satisfies `E`, whatever was drawn. -/
structure Ends (d : Draw σ α) (P : α → Prop) (E : GenerationError → Prop) : Prop where
  yields : Yields d P
  fails : ∀ s e, d.run s = .error e → E e

variable {P : α → Prop} {Q : β → Prop} {E : GenerationError → Prop}

theorem ends_pure {a : α} (h : P a) : Ends (pure a : Draw σ α) P E where
  yields := yields_pure h
  fails := by
    rintro s e ⟨⟩

theorem ends_throw {e : GenerationError} (h : E e) : Ends (throw e : Draw σ α) P E where
  yields := by
    rintro s a s' ⟨⟩
  fails := by
    rintro s e' ⟨⟩
    exact h

/-- Reading from the stream never fails. -/
theorem ends_modifyGet (f : σ → α × σ) : Ends (modifyGet f : Draw σ α) (fun _ => True) E where
  yields := yields_true _
  fails := by
    rintro s e ⟨⟩

theorem Ends.bind {d : Draw σ α} {k : α → Draw σ β} (hd : Ends d P E) (hk : ∀ a, P a → Ends (k a) Q E) :
    Ends (d >>= k) Q E where
  yields := hd.yields.bind fun a ha => (hk a ha).yields
  fails := by
    intro s e hrun
    rw [StateT.run_bind] at hrun
    cases hd' : d.run s with
    | error e' =>
      rw [hd'] at hrun
      cases hrun
      exact hd.fails s _ hd'
    | ok r =>
      rw [hd'] at hrun
      exact (hk r.1 (hd.yields s r.1 r.2 hd')).fails r.2 e hrun

theorem Ends.imp {d : Draw σ α} {P' : α → Prop} {E' : GenerationError → Prop} (hd : Ends d P E)
    (hP : ∀ a, P a → P' a) (hE : ∀ e, E e → E' e) : Ends d P' E' where
  yields s a s' h := hP a (hd.yields s a s' h)
  fails s e h := hE e (hd.fails s e h)

theorem ends_guard {c : Prop} [Decidable c] {e : GenerationError} {k : PUnit → Draw σ α} (he : c → E e)
    (hk : ¬ c → Ends (k ⟨⟩) P E) : Ends (if c then throw e >>= k else k ⟨⟩) P E := by
  split_ifs with h
  · exact (ends_throw (P := fun _ => False) (he h)).bind fun _ hfalse => hfalse.elim
  · exact hk h

theorem ends_mapM {r : α → β → Prop} {g : α → Draw σ β} {as : List α} (h : ∀ a ∈ as, Ends (g a) (r a) E) :
    Ends (as.mapM g) (List.Forall₂ r as) E := by
  induction as with
  | nil => exact ends_pure .nil
  | cons a as ih =>
    obtain ⟨ha, has⟩ := List.forall_mem_cons.1 h
    rw [List.mapM_cons]
    exact ha.bind fun b hb => (ih has).bind fun bs hbs => ends_pure (.cons hb hbs)

end SatSearch
