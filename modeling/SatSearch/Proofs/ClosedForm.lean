import SatSearch.Proofs.Assignment

/-!
# A clause after many assignments

Assignments fix the values of variables, and of several on one variable the first one counts
(`PartialValuation.ofAssignments`). What a clause becomes under them is one formula that does not ask for their
order (`Clause.closedForm`): one assignment is a case of it (`assign_eq_closedForm`), and forms are put one
after the other by joining the values (`closedForm_closedForm`). Main statement: any assignments, at least one,
bring a clause into its closed form (`assignAll_closed_form`).
-/

namespace SatSearch

/-! ### Values of some variables -/

/-- Truth values for some of the variables. -/
abbrev PartialValuation := Nat → Option Bool

namespace PartialValuation

/-- The value that an assignment gives the variable of its literal. The literal 0 is its own negation and
becomes true by either value. -/
def fixedValue (l : Literal) (truth : Bool) : Bool :=
  l == 0 || truth == decide (0 < l)

/-- The values that assignments fix, oldest first. -/
def ofAssignments (calls : List (Literal × Bool)) : PartialValuation :=
  fun x => (calls.find? (·.1.natAbs == x)).map fun call => fixedValue call.1 call.2

/-- The values of `p`, and those of `q` for the variables that `p` leaves open. -/
def orElse (p q : PartialValuation) : PartialValuation :=
  fun x => (p x).or (q x)

/-- Whether a literal is true under the values. -/
def makesTrue (p : PartialValuation) (m : Literal) : Bool :=
  p m.natAbs == some (decide (0 ≤ m))

variable {p q : PartialValuation} {l m : Literal} {truth : Bool}

theorem ofAssignments_singleton (x : Nat) :
    ofAssignments [(l, truth)] x = if l.natAbs = x then some (fixedValue l truth) else none := by
  by_cases h : l.natAbs = x
  · simp [ofAssignments, h]
  · simp [ofAssignments, h]

theorem ofAssignments_append (older newer : List (Literal × Bool)) :
    ofAssignments (older ++ newer) = (ofAssignments older).orElse (ofAssignments newer) := by
  funext x
  rw [ofAssignments, List.find?_append, Option.map_or]
  rfl

theorem isSome_ofAssignments (calls : List (Literal × Bool)) (x : Nat) :
    (ofAssignments calls x).isSome = true ↔ x ∈ calls.map (·.1.natAbs) := by
  simp [ofAssignments]

theorem isSome_ofAssignments_singleton (l m : Literal) (truth : Bool) :
    (ofAssignments [(l, truth)] m.natAbs).isSome = true ↔ m = l ∨ m = -l := by
  rw [isSome_ofAssignments, List.map_singleton, List.mem_singleton, Int.natAbs_eq_natAbs_iff]

/-- Further values of a variable that has one change nothing. -/
theorem orElse_singleton (h : (p l.natAbs).isSome = true) :
    p.orElse (ofAssignments [(l, truth)]) = p := by
  funext x
  rw [orElse, ofAssignments_singleton]
  by_cases hx : l.natAbs = x
  · subst hx
    rw [Option.or_of_isSome h]
  · rw [if_neg hx, Option.or_none]

theorem orElse_singleton_comm {truth' : Bool} (h : l.natAbs ≠ m.natAbs) :
    (ofAssignments [(l, truth)]).orElse (ofAssignments [(m, truth')]) =
      (ofAssignments [(m, truth')]).orElse (ofAssignments [(l, truth)]) := by
  funext x
  simp only [orElse, ofAssignments_singleton]
  by_cases hl : l.natAbs = x
  · have hm : m.natAbs ≠ x := fun hm => h (hl.trans hm.symm)
    simp [hl, hm]
  · simp [hl]

theorem fixedValue_neg (l : Int) (truth : Bool) : fixedValue (-l) (!truth) = fixedValue l truth := by
  by_cases h : l = 0
  · subst h
    rfl
  · have hsign : decide (0 < -l) = !decide (0 < l) := by
      rw [← decide_not, decide_eq_decide]
      omega
    have hzero : (-l == 0) = (l == 0) := by
      rw [Bool.eq_iff_iff, beq_iff_eq, beq_iff_eq, neg_eq_zero]
    rw [fixedValue, fixedValue, hsign, hzero]
    cases truth <;> simp

theorem ofAssignments_neg (l : Literal) (truth : Bool) :
    ofAssignments [(-l, !truth)] = ofAssignments [(l, truth)] := by
  funext x
  rw [ofAssignments_singleton, ofAssignments_singleton, Int.natAbs_neg, fixedValue_neg]

theorem makesTrue_self (l : Int) (truth : Bool) :
    (ofAssignments [(l, truth)]).makesTrue l = (l == 0 || truth) := by
  rw [makesTrue, ofAssignments_singleton, if_pos rfl]
  rcases Int.lt_trichotomy l 0 with h | rfl | h
  · have hlt : ¬ 0 < l := by omega
    have hle : ¬ 0 ≤ l := by omega
    cases truth <;> simp [fixedValue, hlt, hle, h.ne]
  · rfl
  · cases truth <;> simp [fixedValue, h, h.le]

/-- An assignment makes a literal of its variable true if it gives it the value true or if the literal is 0,
and no other literal. -/
theorem makesTrue_singleton (l m : Int) (truth : Bool) :
    (ofAssignments [(l, truth)]).makesTrue m = ((m == l && truth) || (m == -l && !truth)) := by
  have hself : (m == -m) = (m == 0) := by
    rw [Bool.eq_iff_iff, beq_iff_eq, beq_iff_eq]
    omega
  by_cases h : l.natAbs = m.natAbs
  · rcases Int.natAbs_eq_natAbs_iff.1 h with rfl | rfl
    · rw [makesTrue_self, hself, beq_self_eq_true]
      cases truth <;> simp
    · rw [← Bool.not_not truth, ofAssignments_neg, makesTrue_self, hself, neg_neg, beq_self_eq_true]
      cases truth <;> simp
  · have hl : m ≠ l := fun e => h (e ▸ rfl)
    have hn : m ≠ -l := fun e => h (by rw [e, Int.natAbs_neg])
    rw [makesTrue, ofAssignments_singleton, if_neg h]
    simp [hl, hn]

/-- A literal is true under assignments if the first one of its variable makes it true, which any of 0 does. -/
theorem makesTrue_ofAssignments_iff (calls : List (Literal × Bool)) (m : Int) :
    (ofAssignments calls).makesTrue m = true ↔
      ∃ call, calls.find? (·.1.natAbs == m.natAbs) = some call ∧
        (m = 0 ∨ call = (m, true) ∨ call = (-m, false)) := by
  cases hfind : calls.find? (·.1.natAbs == m.natAbs) with
  | none => simp [makesTrue, ofAssignments, hfind]
  | some call =>
    obtain ⟨l, truth⟩ := call
    have hl : l.natAbs = m.natAbs := by simpa using List.find?_some hfind
    have hcases (l : Int) (hl : l.natAbs = m.natAbs) :
        ((m == l && truth) || (m == -l && !truth)) = true ↔
          m = 0 ∨ (l, truth) = (m, true) ∨ (l, truth) = (-m, false) := by
      cases truth <;> simp <;> omega
    have hfirst : (ofAssignments calls).makesTrue m = (ofAssignments [(l, truth)]).makesTrue m := by
      rw [makesTrue, makesTrue, ofAssignments_singleton, if_pos hl, ofAssignments, hfind, Option.map_some]
    rw [hfirst, makesTrue_singleton]
    simp only [Option.some.injEq, exists_eq_left']
    exact hcases l hl

end PartialValuation

open PartialValuation

/-! ### The closed form -/

namespace Element

/-- Whether a place holds a literal that is true under the values. -/
def isTrueUnder (p : PartialValuation) : Element → Bool
  | literal m => p.makesTrue m
  | resolved _ => false

/-- Whether a place holds no literal of a variable without a value. -/
def isKnownUnder (p : PartialValuation) : Element → Bool
  | literal m => (p m.natAbs).isSome
  | resolved _ => true

/-- The place with a literal whose variable has a value replaced by false; resolved places stay. -/
def reduce (p : PartialValuation) : Element → Element
  | literal m => if (p m.natAbs).isSome then resolved false else literal m
  | resolved b => resolved b

theorem isTrueUnder_singleton (e : Element) (l : Literal) (truth : Bool) :
    e.isTrueUnder (ofAssignments [(l, truth)]) = e.satisfiedBy l truth := by
  cases e with
  | resolved b => rfl
  | literal m => exact makesTrue_singleton l m truth

theorem isKnownUnder_singleton (e : Element) (l : Literal) (truth : Bool) :
    e.isKnownUnder (ofAssignments [(l, truth)]) = (e.assign l truth).literal?.isNone := by
  cases e with
  | resolved b => rfl
  | literal m =>
    rw [Bool.eq_iff_iff, isKnownUnder, isSome_ofAssignments_singleton, literal?_assign]
    by_cases hl : m = l
    · simp [hl, literal?, Option.filter]
    · by_cases hn : m = -l
      · simp [hn, literal?, Option.filter]
      · simp [hl, hn, literal?, Option.filter]

/-- A literal that an assignment resolves without making it true becomes false. -/
theorem reduce_singleton {e : Element} {l : Literal} {truth : Bool} (h : e.satisfiedBy l truth = false) :
    e.reduce (ofAssignments [(l, truth)]) = e.assign l truth := by
  cases e with
  | resolved b => rfl
  | literal m =>
    rw [reduce, assign]
    simp only [isSome_ofAssignments_singleton]
    by_cases hl : m = l
    · subst hl
      cases truth with
      | false => simp
      | true => simp [satisfiedBy] at h
    · by_cases hn : m = -l
      · subst hn
        cases truth with
        | false => simp [satisfiedBy] at h
        | true => simp [hl]
      · simp [hl, hn]

variable {p q : PartialValuation}

/-- A place that is not true under some values is looked at under further ones as it was left. -/
theorem isTrueUnder_orElse {e : Element} (h : e.isTrueUnder p = false) :
    e.isTrueUnder (p.orElse q) = (e.reduce p).isTrueUnder q := by
  cases e with
  | resolved b => rfl
  | literal m =>
    cases hp : p m.natAbs with
    | none => simp [isTrueUnder, makesTrue, orElse, reduce, hp]
    | some v => simpa [isTrueUnder, makesTrue, orElse, reduce, hp] using h

theorem isKnownUnder_orElse (e : Element) :
    e.isKnownUnder (p.orElse q) = (e.reduce p).isKnownUnder q := by
  cases e with
  | resolved b => rfl
  | literal m => cases hp : p m.natAbs <;> simp [isKnownUnder, orElse, reduce, hp]

theorem reduce_orElse (e : Element) : e.reduce (p.orElse q) = (e.reduce p).reduce q := by
  cases e with
  | resolved b => rfl
  | literal m => cases hp : p m.natAbs <;> simp [orElse, reduce, hp]

theorem isTrueUnder_orElse_of_isTrueUnder {e : Element} (h : e.isTrueUnder p = true) :
    e.isTrueUnder (p.orElse q) = true := by
  cases e with
  | resolved b => cases h
  | literal m =>
    cases hp : p m.natAbs with
    | none => simp [isTrueUnder, makesTrue, hp] at h
    | some v => simpa [isTrueUnder, makesTrue, orElse, hp] using h

/-- A place without a literal of an open variable holds no literal any more. -/
theorem exists_reduce_eq_resolved {e : Element} (h : e.isKnownUnder p = true) :
    ∃ b, e.reduce p = resolved b := by
  cases e with
  | resolved b => exact ⟨b, rfl⟩
  | literal m => exact ⟨false, if_pos h⟩

end Element

namespace Clause

/-- The clause under values: a clause that holds a true literal is true, one without a literal of a variable
that has no value is false, and any other one keeps its places, with false for the literals whose variables
have values. -/
def closedForm (p : PartialValuation) : Clause → Clause
  | decided b => decided b
  | undecided es =>
    if es.any (Element.isTrueUnder p) then decided true
    else if es.all (Element.isKnownUnder p) then decided false
    else undecided (es.map (Element.reduce p))

/-- The clause after assignments, oldest first. -/
def assignAll (calls : List (Literal × Bool)) (c : Clause) : Clause :=
  calls.foldl (fun c call => c.assign call.1 call.2) c

theorem assign_eq_closedForm (c : Clause) (l : Literal) (truth : Bool) :
    c.assign l truth = c.closedForm (ofAssignments [(l, truth)]) := by
  cases c with
  | decided b => rfl
  | undecided es =>
    have hany : es.any (Element.isTrueUnder (ofAssignments [(l, truth)])) =
        es.any (Element.satisfiedBy l truth) :=
      congrArg es.any (funext fun e => e.isTrueUnder_singleton l truth)
    have hall : es.all (Element.isKnownUnder (ofAssignments [(l, truth)])) =
        (es.map (Element.assign l truth)).all (·.literal?.isNone) := by
      rw [List.all_map]
      exact congrArg es.all (funext fun e => e.isKnownUnder_singleton l truth)
    rw [assign, closedForm, hany, hall]
    split_ifs with hsat hnone
    · rfl
    · rfl
    · rw [List.any_eq_true, not_exists] at hsat
      refine congrArg undecided (List.map_congr_left fun e he => ?_)
      have hfalse : e.satisfiedBy l truth = false := by
        rw [Bool.eq_false_iff]
        exact fun h => hsat e ⟨he, h⟩
      exact (Element.reduce_singleton hfalse).symm

/-- Where no place holds a literal any more, values find nothing that could become true. -/
theorem closedForm_of_resolved {es : List Element} (h : ∀ e ∈ es, ∃ b, e = .resolved b)
    (p : PartialValuation) : (undecided es).closedForm p = decided false := by
  have hany : ¬es.any (Element.isTrueUnder p) = true := by
    rw [List.any_eq_true]
    rintro ⟨e, he, htrue⟩
    obtain ⟨b, rfl⟩ := h e he
    cases htrue
  have hall : es.all (Element.isKnownUnder p) = true := by
    rw [List.all_eq_true]
    intro e he
    obtain ⟨b, rfl⟩ := h e he
    rfl
  rw [closedForm, if_neg hany, if_pos hall]

/-- Values that make no place true leave the clause with reduced places to further values. -/
theorem closedForm_orElse {es : List Element} {p : PartialValuation}
    (h : ∀ e ∈ es, e.isTrueUnder p = false) (q : PartialValuation) :
    (undecided es).closedForm (p.orElse q) = (undecided (es.map (Element.reduce p))).closedForm q := by
  have hany : es.any (Element.isTrueUnder (p.orElse q)) =
      (es.map (Element.reduce p)).any (Element.isTrueUnder q) := by
    rw [List.any_map, Bool.eq_iff_iff, List.any_eq_true, List.any_eq_true]
    refine exists_congr fun e => and_congr_right fun he => ?_
    rw [Element.isTrueUnder_orElse (h e he)]
    rfl
  have hall : es.all (Element.isKnownUnder (p.orElse q)) =
      (es.map (Element.reduce p)).all (Element.isKnownUnder q) := by
    rw [List.all_map]
    exact List.all_congr rfl Element.isKnownUnder_orElse
  have hmap : es.map (Element.reduce (p.orElse q)) =
      (es.map (Element.reduce p)).map (Element.reduce q) := by
    rw [List.map_map]
    exact List.map_congr_left fun e _ => e.reduce_orElse
  rw [closedForm, closedForm, hany, hall, hmap]

/-- Values on top of values are the joined values. -/
theorem closedForm_closedForm (c : Clause) (p q : PartialValuation) :
    (c.closedForm p).closedForm q = c.closedForm (p.orElse q) := by
  cases c with
  | decided b => rfl
  | undecided es =>
    by_cases htrue : es.any (Element.isTrueUnder p) = true
    · have hjoined : es.any (Element.isTrueUnder (p.orElse q)) = true := by
        obtain ⟨e, he, h⟩ := List.any_eq_true.1 htrue
        exact List.any_eq_true.2 ⟨e, he, Element.isTrueUnder_orElse_of_isTrueUnder h⟩
      rw [closedForm, if_pos htrue, closedForm, closedForm, if_pos hjoined]
    · have hfalse : ∀ e ∈ es, e.isTrueUnder p = false := by
        intro e he
        rw [Bool.eq_false_iff]
        exact fun h => htrue (List.any_eq_true.2 ⟨e, he, h⟩)
      rw [closedForm_orElse hfalse, closedForm, if_neg htrue]
      by_cases hknown : es.all (Element.isKnownUnder p) = true
      · have hresolved : ∀ e ∈ es.map (Element.reduce p), ∃ b, e = .resolved b := by
          rw [List.forall_mem_map]
          intro e he
          exact Element.exists_reduce_eq_resolved (List.all_eq_true.1 hknown e he)
        rw [if_pos hknown, closedForm_of_resolved hresolved, closedForm]
      · rw [if_neg hknown]

/-! ### Assignments one after the other -/

theorem assignAll_eq_closedForm (c : Clause) (first : Literal × Bool) (later : List (Literal × Bool)) :
    c.assignAll (first :: later) = c.closedForm (ofAssignments (first :: later)) := by
  -- The last assignment adds its value to those that the ones before it fixed.
  induction later using List.reverseRecOn with
  | nil => exact c.assign_eq_closedForm first.1 first.2
  | append_singleton later last ih =>
    have hlast : c.assignAll (first :: (later ++ [last])) =
        (c.assignAll (first :: later)).assign last.1 last.2 := by
      rw [← List.cons_append, assignAll, List.foldl_append]
      rfl
    rw [hlast, ih, assign_eq_closedForm, closedForm_closedForm, ← ofAssignments_append]
    rfl

/-- Giving a literal a value gives its negation the other one. -/
theorem assign_neg (c : Clause) (l : Literal) (truth : Bool) : c.assign (-l) (!truth) = c.assign l truth := by
  rw [assign_eq_closedForm, ofAssignments_neg, ← assign_eq_closedForm]

/-- Assignments of different variables can be made in either order. -/
theorem assign_comm (c : Clause) {l m : Literal} (h : l.natAbs ≠ m.natAbs) (truth truth' : Bool) :
    (c.assign l truth).assign m truth' = (c.assign m truth').assign l truth := by
  simp only [assign_eq_closedForm, closedForm_closedForm]
  rw [orElse_singleton_comm h]

/-- An assignment of a variable that has a value does nothing. -/
theorem assignAll_append_of_mem (c : Clause) {calls : List (Literal × Bool)} {l : Literal} (truth : Bool)
    (h : l.natAbs ∈ calls.map (·.1.natAbs)) : c.assignAll (calls ++ [(l, truth)]) = c.assignAll calls := by
  cases calls with
  | nil => cases h
  | cons first later =>
    rw [List.cons_append, assignAll_eq_closedForm, assignAll_eq_closedForm, ← List.cons_append,
      ofAssignments_append, orElse_singleton ((isSome_ofAssignments _ _).2 h)]

/-- Any assignments, at least one, bring a clause into its closed form under the values that they fix. So an
assignment is the opposite one of the negated literal, one of a variable that has a value does nothing, and two of
different variables can be made in either order. -/
theorem assignAll_closed_form (c : Clause) :
    (∀ first later, c.assignAll (first :: later) = c.closedForm (ofAssignments (first :: later))) ∧
      (∀ calls m, (ofAssignments calls).makesTrue m = true ↔
        ∃ call, calls.find? (·.1.natAbs == m.natAbs) = some call ∧
          (m = 0 ∨ call = (m, true) ∨ call = (-m, false))) ∧
      (∀ l truth, c.assign l truth = c.assign (-l) (!truth)) ∧
      (∀ calls l truth, l.natAbs ∈ calls.map (·.1.natAbs) →
        c.assignAll (calls ++ [(l, truth)]) = c.assignAll calls) ∧
      ∀ l m truth truth', l.natAbs ≠ m.natAbs →
        (c.assign l truth).assign m truth' = (c.assign m truth').assign l truth := by
  refine ⟨c.assignAll_eq_closedForm, makesTrue_ofAssignments_iff, ?_, ?_, ?_⟩
  · intro l truth
    exact (c.assign_neg l truth).symm
  · intro calls l truth h
    exact c.assignAll_append_of_mem truth h
  · intro l m truth truth' h
    exact c.assign_comm h truth truth'

/-- Literals of both polarities and a resolved place. -/
def mixed : Clause :=
  undecided [.literal 1, .literal (-2), .resolved true, .literal 3, .literal 2]

theorem assignAll_closed_form_mixed :
    mixed.assignAll [(-3, true), (1, false), (3, true)] =
        undecided [.resolved false, .literal (-2), .resolved true, .resolved false, .literal 2] ∧
      mixed.assign 2 false = mixed.assign (-2) true ∧
      mixed.assignAll ([(-3, true), (1, false)] ++ [(3, true)]) = mixed.assignAll [(-3, true), (1, false)] ∧
      (mixed.assign 1 false).assign (-3) true = (mixed.assign (-3) true).assign 1 false := by
  obtain ⟨hform, -, hneg, hagain, hcomm⟩ := assignAll_closed_form mixed
  exact ⟨(hform _ _).trans (by decide), hneg 2 false, hagain _ _ _ (by decide), hcomm _ _ _ _ (by decide)⟩

end Clause

end SatSearch
