import SatSearch.Bench.Generated
import SatSearch.Bench.Measure
import SatSearch.Proofs.Draws
import SatSearch.Proofs.Enumeration
import SatSearch.Proofs.Numerals
import SatSearch.Proofs.Pigeonhole

/-!
# Labels of generated instances

A label is right if it is the answer for the formula that the instance loads (`Instance.RightlyLabelled`). A
measurement without a limit finds a label correct exactly if it is right (`isCorrect_measure`).
Main statement: random instances are labelled rightly, pigeonhole instances exactly if the number of holes is
not negative (`generated_labels`).
-/

namespace SatSearch

/-! ### Labels -/

/-- The label of the instance, if it has one, is the answer for the formula that it loads. -/
def Instance.RightlyLabelled (i : Instance) : Prop :=
  ∀ label, i.expected = some label →
    ∃ f status, i.load = .ofCnf f ∧ label = Status.text status ∧ (status = .sat ↔ Cnf.Satisfiable f)

theorem Status.text_injective : Function.Injective Status.text := by
  intro a b h
  cases a <;> cases b <;> simp_all [Status.text]

theorem isAnswer_text (status : Status) : isAnswer status.text = true := by
  cases status <;> rfl

theorem startState_places (f : Cnf) :
    startState (Load.places f) = State.initial (f.map Clause.ofLiterals) := by
  rw [startState, Load.places, List.map_map]
  rfl

/-- The search for a formula that was loaded answers, and rightly. -/
theorem exists_answer_startState (f : Cnf) :
    ∃ answer, ((startState (Load.places f)).search none).ending = .answered answer ∧
      (answer = .sat ↔ f.Satisfiable) := by
  rw [startState_places]
  exact f.exists_answer

theorem Load.places_injective : Function.Injective Load.places :=
  List.map_injective_iff.2 (List.map_injective_iff.2 fun _ _ => Element.literal.inj)

theorem Load.ofCnf_injective : Function.Injective Load.ofCnf := by
  intro f g h
  have hclauses : Except.ok (places f) = Except.ok (places g) := congrArg Load.clauses h
  exact Load.places_injective (Except.ok.inj hclauses)

namespace Instance

variable {i : Instance} {f : Cnf} {a : Status}

/-- For the label of one formula there is nothing left to choose. -/
theorem rightlyLabelled_iff (hload : i.load = .ofCnf f) (hlabel : i.expected = some a.text) :
    i.RightlyLabelled ↔ (a = .sat ↔ f.Satisfiable) := by
  constructor
  · intro h
    obtain ⟨g, a', hg, htext, hright⟩ := h _ hlabel
    obtain rfl := Load.ofCnf_injective (hload.symm.trans hg)
    obtain rfl := Status.text_injective htext
    exact hright
  · intro hright label hexpected
    rw [hlabel] at hexpected
    cases hexpected
    exact ⟨f, a, hload, rfl, hright⟩

theorem rightlyLabelled_of_none (h : i.expected = none) : i.RightlyLabelled := by
  intro label hexpected
  rw [h] at hexpected
  cases hexpected

/-- A measurement without a limit finds the label correct exactly if it is the answer. -/
theorem isCorrect_measure (hload : i.load = .ofCnf f) (hlabel : i.expected = some a.text)
    (s : Surroundings) :
    (i.measure none s).1.row.isCorrect = some true ↔ (a = .sat ↔ f.Satisfiable) := by
  obtain ⟨answer, hending, hanswer⟩ := exists_answer_startState f
  have hcorrect : (i.measure none s).1.row.isCorrect = some (answer.text == a.text) := by
    simp only [measure, attempt, alarmSeconds, hload, Load.ofCnf, report, row, Attempt.ofRun, hending,
      hlabel, Option.filter_some, isAnswer_text, if_true, Option.map_some, Outcome.text]
  rw [hcorrect, Option.some.injEq, beq_iff_eq, ← hanswer, Status.text_injective.eq_iff]
  cases answer <;> cases a <;> decide

end Instance

/-! ### Random instances -/

theorem yields_randomInstances {σ : Type} (draws : Draws σ) (count variableCount : Int) (ratio : Float)
    (labelLimit : Int) :
    Yields (randomInstances draws count variableCount ratio labelLimit) fun instances =>
      ∀ i ∈ instances, ∃ clauseCount number f,
        i = randomInstance variableCount clauseCount labelLimit number f := by
  unfold randomInstances
  refine (yields_true _).bind fun clauseCount _ => yields_mapM fun number _ => ?_
  exact (yields_true _).bind fun f _ => yields_pure ⟨clauseCount, number + 1, f, rfl⟩

theorem rightlyLabelled_randomInstance (variableCount clauseCount labelLimit : Int) (number : Nat) (f : Cnf) :
    (randomInstance variableCount clauseCount labelLimit number f).RightlyLabelled := by
  by_cases h : variableCount ≤ labelLimit
  · exact (Instance.rightlyLabelled_iff rfl (if_pos h)).2 f.enumerate_eq_sat_iff
  · exact Instance.rightlyLabelled_of_none (if_neg h)

theorem isCorrect_randomInstance (variableCount clauseCount labelLimit : Int) (number : Nat) (f : Cnf)
    (s : Surroundings) :
    ((randomInstance variableCount clauseCount labelLimit number f).measure none s).1.row.isCorrect =
      (randomInstance variableCount clauseCount labelLimit number f).expected.map fun _ => true := by
  by_cases h : variableCount ≤ labelLimit
  · have hlabel : (randomInstance variableCount clauseCount labelLimit number f).expected =
        some f.enumerate.text := if_pos h
    rw [hlabel]
    exact (Instance.isCorrect_measure rfl hlabel s).2 f.enumerate_eq_sat_iff
  · have hlabel : (randomInstance variableCount clauseCount labelLimit number f).expected = none := if_neg h
    rw [hlabel]
    simp only [Instance.measure, attempt, alarmSeconds, randomInstance, Load.ofCnf, Instance.report,
      Instance.row, if_neg h]
    rfl

/-! ### Pigeonhole instances -/

/-- Without pigeons there is nothing to satisfy, and then there are fewer than no holes. -/
theorem satisfiable_pigeonhole_iff (holes : Int) :
    (pigeonhole (holes + 1).toNat holes.toNat).Satisfiable ↔ holes < 0 := by
  have hroom : (pigeonhole (holes + 1).toNat holes.toNat).Satisfiable ↔
      (holes + 1).toNat ≤ holes.toNat := by
    constructor
    · rintro ⟨v, hv⟩
      exact le_of_cnf_pigeonhole hv
    · intro h
      exact ⟨_, cnf_pigeonhole_ownHoles h⟩
  rw [hroom]
  omega

theorem rightlyLabelled_pigeonholeInstance_iff (holes : Int) :
    (pigeonholeInstance holes).RightlyLabelled ↔ 0 ≤ holes := by
  rw [Instance.rightlyLabelled_iff (a := .unsat) rfl rfl, satisfiable_pigeonhole_iff]
  simp

theorem isCorrect_pigeonholeInstance_iff (holes : Int) (s : Surroundings) :
    ((pigeonholeInstance holes).measure none s).1.row.isCorrect = some true ↔ 0 ≤ holes := by
  rw [Instance.isCorrect_measure (a := .unsat) rfl rfl, satisfiable_pigeonhole_iff]
  simp

theorem forall₂_of_pigeonholeInstances {sizes : List Int} {instances : List Instance}
    (h : pigeonholeInstances sizes = .ok instances) :
    List.Forall₂ (fun holes i => i = pigeonholeInstance holes) sizes instances := by
  unfold pigeonholeInstances at h
  split at h
  · cases h
  · cases h
    rw [List.forall₂_map_right_iff, List.forall₂_same]
    intro holes _
    rfl

/-- Whatever was drawn, every random instance is labelled rightly or not at all, and measured without a limit
its label is found correct. A pigeonhole instance is always labelled unsatisfiable; that is right, and found
correct, exactly if its number of holes is not negative. -/
theorem generated_labels {σ : Type} (draws : Draws σ) (count variableCount : Int) (ratio : Float)
    (labelLimit : Int) (s s' : σ) (surroundings : Surroundings) :
    (∀ instances, (randomInstances draws count variableCount ratio labelLimit).run s = .ok (instances, s') →
      ∀ i ∈ instances, i.RightlyLabelled ∧
        (i.measure none surroundings).1.row.isCorrect = i.expected.map fun _ => true) ∧
    ∀ sizes instances, pigeonholeInstances sizes = .ok instances →
      List.Forall₂ (fun holes i => i.expected = some Status.unsat.text ∧
        (i.RightlyLabelled ↔ 0 ≤ holes) ∧
        ((i.measure none surroundings).1.row.isCorrect = some true ↔ 0 ≤ holes)) sizes instances := by
  constructor
  · intro instances hrun i hi
    obtain ⟨clauseCount, number, f, rfl⟩ := yields_randomInstances draws _ _ _ _ s instances s' hrun i hi
    exact ⟨rightlyLabelled_randomInstance _ _ _ _ _, isCorrect_randomInstance _ _ _ _ _ _⟩
  · intro sizes instances h
    refine (forall₂_of_pigeonholeInstances h).imp ?_
    rintro holes i rfl
    exact ⟨rfl, rightlyLabelled_pigeonholeInstance_iff holes,
      isCorrect_pigeonholeInstance_iff holes surroundings⟩

/-- The draws of one clause over three variables. -/
def clauseScript : Script where
  samples := [[3, 1, 2]]
  units := [0.25, 0.5, 0.75]
  asked := []

theorem generated_labels_scripted :
    (randomInstances Script.draws 1 3 0.25 14).run clauseScript =
        .ok ([randomInstance 3 1 14 1 [[3, -1, -2]]], ⟨[], [], [(3, 3)]⟩) ∧
      (randomInstance 3 1 14 1 [[3, -1, -2]]).expected = some "SAT" ∧
      (randomInstance 3 1 14 1 [[3, -1, -2]]).RightlyLabelled ∧
      pigeonholeInstances [2, -1] = .ok [pigeonholeInstance 2, pigeonholeInstance (-1)] ∧
      (pigeonholeInstance 2).RightlyLabelled ∧ ¬ (pigeonholeInstance (-1)).RightlyLabelled := by
  have hrun : (randomInstances Script.draws 1 3 0.25 14).run clauseScript =
      .ok ([randomInstance 3 1 14 1 [[3, -1, -2]]], ⟨[], [], [(3, 3)]⟩) := rfl
  have hlabel : Cnf.enumerate [[3, -1, -2]] = .sat := (Cnf.enumerate_eq_sat_iff _).2 ⟨fun _ => true, rfl⟩
  have hshort : ∀ n : Int, n.natAbs < 10 → Text.hasLongText n = false := fun n hn =>
    Text.hasLongText_eq_false_iff.2 (hn.trans_le (Nat.le_self_pow (by decide) 10))
  have hsizes : pigeonholeInstances [2, -1] = .ok [pigeonholeInstance 2, pigeonholeInstance (-1)] := by
    rw [pigeonholeInstances, if_neg]
    · rfl
    · simp [hshort]
  obtain ⟨hrandom, hpigeonhole⟩ := generated_labels Script.draws 1 3 0.25 14 clauseScript
    ⟨[], [], [(3, 3)]⟩ { clock := ⟨[]⟩, rings := [], alarms := [] }
  have hright := hpigeonhole _ _ hsizes
  rw [List.forall₂_cons, List.forall₂_cons] at hright
  obtain ⟨⟨-, htwo, -⟩, ⟨-, hminus, -⟩, -⟩ := hright
  refine ⟨hrun, ?_, (hrandom _ hrun _ List.mem_cons_self).1, hsizes, htwo.2 (by decide), ?_⟩
  · exact congrArg (fun status => some (Status.text status)) hlabel
  · rw [hminus]
    decide

/-- No pigeon in fewer than no holes makes a formula without clauses, which is satisfiable. -/
theorem not_rightlyLabelled_no_pigeons : ¬ (pigeonholeInstance (-1)).RightlyLabelled := by
  rw [rightlyLabelled_pigeonholeInstance_iff]
  decide

end SatSearch
