import SatSearch.Proofs.Recursion

/-!
# Renaming variables and turning polarities over

A `Renaming` maps literals to literals, injectively and so that negations go to negations; it may
rename variables and turn over the polarity of any of them. No move of a search depends on what a
literal is beyond such a map: every operation commutes with renaming, from a single place of a clause
(`Element.assign_rename`) over the choice of a literal (`State.pickLiteral_rename`) to a round
(`Search.step_rename`). Main statement: so does a whole run (`search_rename`).
-/

namespace SatSearch

/-- A map of literals that keeps literals apart and negations negations. -/
structure Renaming where
  toFun : Literal → Literal
  injective : Function.Injective toFun
  map_neg : ∀ l, toFun (-l) = -toFun l

namespace Renaming

instance : CoeFun Renaming fun _ => Literal → Literal := ⟨toFun⟩

variable (f : Renaming) {l m : Literal}

theorem eq_iff : f l = f m ↔ l = m :=
  f.injective.eq_iff

theorem eq_neg_iff : f l = -f m ↔ l = -m := by
  rw [← f.map_neg, f.eq_iff]

/-- The renaming that turns every polarity over. -/
def mirror : Renaming where
  toFun l := -l
  injective := neg_injective
  map_neg _ := rfl

end Renaming

variable (f : Renaming)

/-! ### Elements -/

namespace Element

/-- The element with its literal renamed; a truth value stays. -/
def rename (f : Renaming) : Element → Element
  | literal l => literal (f l)
  | resolved b => resolved b

theorem literal?_rename (e : Element) : (e.rename f).literal? = e.literal?.map f := by
  cases e <;> rfl

theorem satisfiedBy_rename (e : Element) (l : Literal) (truth : Bool) :
    (e.rename f).satisfiedBy (f l) truth = e.satisfiedBy l truth := by
  cases e with
  | resolved b => rfl
  | literal m => simp [rename, satisfiedBy, Bool.beq_eq_decide_eq, f.eq_iff, f.eq_neg_iff]

theorem assign_rename (e : Element) (l : Literal) (truth : Bool) :
    (e.rename f).assign (f l) truth = (e.assign l truth).rename f := by
  cases e with
  | resolved b => rfl
  | literal m =>
    simp only [rename, assign, f.eq_iff, f.eq_neg_iff]
    split_ifs <;> rfl

end Element

/-! ### Clauses -/

namespace Clause

/-- The clause with its literals renamed. -/
def rename (f : Renaming) : Clause → Clause
  | decided b => decided b
  | undecided es => undecided (es.map (Element.rename f))

theorem isSatisfied_rename (c : Clause) : (c.rename f).isSatisfied = c.isSatisfied := by
  cases c <;> rfl

theorem isFalsified_rename (c : Clause) : (c.rename f).isFalsified = c.isFalsified := by
  cases c <;> rfl

theorem unassigned_rename (c : Clause) : (c.rename f).unassigned = c.unassigned.map f := by
  cases c with
  | decided b => rfl
  | undecided es =>
    simp only [rename, unassigned, List.filterMap_map, List.map_filterMap]
    exact congrArg (List.filterMap · es) (funext (Element.literal?_rename f))

theorem unit?_rename (c : Clause) : (c.rename f).unit? = c.unit?.map f := by
  rw [unit?, unit?, unassigned_rename]
  rcases c.unassigned with _ | ⟨l, _ | ⟨m, ls⟩⟩ <;> rfl

theorem assign_rename (c : Clause) (l : Literal) (truth : Bool) :
    (c.rename f).assign (f l) truth = (c.assign l truth).rename f := by
  cases c with
  | decided b => rfl
  | undecided es =>
    have hany : (es.map (Element.rename f)).any (Element.satisfiedBy (f l) truth) =
        es.any (Element.satisfiedBy l truth) := by
      rw [List.any_map]
      exact congrArg es.any (funext fun e => e.satisfiedBy_rename f l truth)
    have hmap : (es.map (Element.rename f)).map (Element.assign (f l) truth) =
        (es.map (Element.assign l truth)).map (Element.rename f) := by
      rw [List.map_map, List.map_map]
      exact congrArg (List.map · es) (funext fun e => e.assign_rename f l truth)
    have hall (ds : List Element) : (ds.map (Element.rename f)).all (·.literal?.isNone) =
        ds.all (·.literal?.isNone) := by
      rw [List.all_map]
      refine congrArg ds.all (funext fun e => ?_)
      cases e <;> rfl
    simp only [rename, assign, hany, hmap, hall]
    split_ifs <;> rfl

theorem map_assign_rename (cs : List Clause) (l : Literal) (truth : Bool) :
    (cs.map (rename f)).map (assign (f l) truth) = (cs.map (assign l truth)).map (rename f) := by
  rw [List.map_map, List.map_map]
  exact congrArg (List.map · cs) (funext fun c => c.assign_rename f l truth)

theorem under_rename (c : Clause) (trail : List Literal) :
    (c.rename f).under (trail.map f) = (c.under trail).rename f := by
  induction trail with
  | nil => rfl
  | cons l older ih => rw [List.map_cons, under, ih, assign_rename, under]

end Clause

theorem unassignedLiterals_rename (cs : List Clause) :
    unassignedLiterals (cs.map (Clause.rename f)) = (unassignedLiterals cs).map f := by
  rw [unassignedLiterals, List.flatMap_map, unassignedLiterals, List.map_flatMap]
  exact congrArg (List.flatMap · cs) (funext (Clause.unassigned_rename f))

theorem unitLiterals_rename (trail : List Literal) (cs : List Clause) :
    unitLiterals (trail.map f) (cs.map (Clause.rename f)) = (unitLiterals trail cs).map f := by
  induction cs generalizing trail with
  | nil => rfl
  | cons c cs ih =>
    rw [List.map_cons, unitLiterals, unitLiterals, Clause.under_rename, Clause.unit?_rename]
    cases (c.under trail).unit? with
    | none => exact ih trail
    | some l => exact ih (l :: trail)

/-- The most frequent literal is found by counting and by the order of first occurrence, so it does
not matter what the literals are. -/
theorem mostFrequent?_map (ls : List Literal) :
    mostFrequent? (ls.map f) = (mostFrequent? ls).map f := by
  have hcount (ms : List Literal) (l : Literal) :
      (tally (ms.map f)).getD (f l) 0 = (tally ms).getD l 0 := by
    rw [getD_tally, getD_tally, List.count_map_of_injective _ _ f.injective]
  -- The counts are those of the whole list while the rest of it is gone through.
  have hfold (all ms : List Literal) (best : Literal) :
      (ms.map f).foldl (fun best m =>
          if (tally (all.map f)).getD best 0 < (tally (all.map f)).getD m 0 then m else best) (f best) =
        f (ms.foldl (fun best m =>
          if (tally all).getD best 0 < (tally all).getD m 0 then m else best) best) := by
    induction ms generalizing best with
    | nil => rfl
    | cons m ms ih =>
      rw [List.map_cons, List.foldl_cons, List.foldl_cons, hcount, hcount, ← ih]
      congr 1
      split_ifs <;> rfl
  cases ls with
  | nil => rfl
  | cons l ls => exact congrArg some (hfold (l :: ls) ls l)

/-! ### States -/

namespace State

/-- The state with the literals of its clauses and snapshots renamed. -/
def rename (f : Renaming) (s : State) : State :=
  { clauses := s.clauses.map (Clause.rename f)
    snapshots := s.snapshots.map (List.map (Clause.rename f))
    counters := s.counters }

theorem status?_rename (s : State) : (s.rename f).status? = s.status? := by
  have hsat : (s.rename f).isSatisfied = s.isSatisfied := by
    rw [isSatisfied, rename, List.all_map]
    exact congrArg s.clauses.all (funext (Clause.isSatisfied_rename f))
  have hfals : (s.rename f).isFalsified = s.isFalsified := by
    rw [isFalsified, rename, List.any_map]
    exact congrArg s.clauses.any (funext (Clause.isFalsified_rename f))
  rw [status?, status?, hsat, hfals]

theorem propagate_rename (s : State) :
    (s.rename f).propagate = (s.propagate.1, s.propagate.2.rename f) := by
  have hunits : unitLiterals [] (s.rename f).clauses = (unitLiterals [] s.clauses).map f :=
    unitLiterals_rename f [] s.clauses
  by_cases hu : unitLiterals [] s.clauses = []
  · rw [propagate_of_no_units hu, propagate_of_no_units (by rw [hunits, hu]; rfl)]
  · rw [propagate_of_units hu, propagate_of_units (by rw [hunits]; simpa using hu)]
    have hclauses : (s.rename f).clauses.map (Clause.under ((unitLiterals [] s.clauses).map f)) =
        (s.clauses.map (Clause.under (unitLiterals [] s.clauses))).map (Clause.rename f) := by
      rw [rename, List.map_map, List.map_map]
      exact congrArg (List.map · s.clauses) (funext fun c => c.under_rename f _)
    simp only [propagated, hunits, hclauses, List.length_map]
    rfl

theorem pickLiteral_rename (s : State) : (s.rename f).pickLiteral = s.pickLiteral.map f := by
  have hpick : mostFrequent? (unassignedLiterals (s.rename f).clauses) =
      (mostFrequent? (unassignedLiterals s.clauses)).map f := by
    rw [rename, unassignedLiterals_rename, mostFrequent?_map]
  rw [pickLiteral, hpick, pickLiteral]
  cases mostFrequent? (unassignedLiterals s.clauses) <;> rfl

theorem assign_rename (s : State) (l : Literal) (truth : Bool) :
    (s.rename f).assign (f l) truth = (s.assign l truth).rename f := by
  simp only [assign, rename, Clause.map_assign_rename]

theorem branch_rename (s : State) (l : Literal) (first : Bool) :
    (s.rename f).branch (f l) first = (s.branch l first).rename f := by
  cases first with
  | false => exact assign_rename f s l true
  | true => exact assign_rename f { s with snapshots := s.clauses :: s.snapshots } l true

theorem backTrack_rename (s : State) :
    (s.rename f).backTrack = s.backTrack.map (rename f) := by
  obtain ⟨clauses, snapshots, counters⟩ := s
  cases snapshots <;> rfl

end State

/-! ### Rounds -/

/-- The event with its literal renamed. -/
def Event.rename (f : Renaming) : Event → Event
  | branched l depth => branched (f l) depth
  | backtracked l depth => backtracked (f l) depth
  | satisfied depth => satisfied depth

/-- The decision with its literal renamed. -/
def Decision.rename (f : Renaming) (d : Decision) : Decision :=
  { d with literal := f d.literal }

/-- The search with all its literals renamed. -/
def Search.rename (f : Renaming) (q : Search) : Search :=
  { state := q.state.rename f, decisions := q.decisions.map (Decision.rename f) }

/-- The outcome of a round with all its literals renamed. -/
def Move.rename (f : Renaming) : Move → Move
  | onward event next => onward (event.map (Event.rename f)) (next.rename f)
  | answer event status last => answer (event.map (Event.rename f)) status (last.rename f)
  | stuck error last => stuck error (last.rename f)

namespace Search

theorem length_decisions_rename (q : Search) : (q.rename f).decisions.length = q.decisions.length :=
  List.length_map _

theorem decide_rename (q : Search) (l : Literal) :
    (q.rename f).decide (f l) = (q.decide l).rename f := by
  simp only [decide, rename, List.length_map, List.map_cons, ← State.branch_rename]
  rfl

theorem retreat_rename (q : Search) : (q.rename f).retreat = q.retreat.rename f := by
  have hdrop : (q.rename f).decisions.dropWhile Decision.negated =
      (q.decisions.dropWhile Decision.negated).map (Decision.rename f) := List.dropWhile_map ..
  rw [retreat, hdrop, retreat]
  cases q.decisions.dropWhile Decision.negated with
  | nil => rfl
  | cons d older =>
    simp only [List.map_cons]
    rw [show (q.rename f).state.backTrack = _ from State.backTrack_rename f q.state]
    cases q.state.backTrack with
    | error e => rfl
    | ok restored =>
      simp only [Except.map, Decision.rename, ← f.map_neg, State.branch_rename, List.length_map]
      rfl

theorem extend_rename (q : Search) : (q.rename f).extend = q.extend.rename f := by
  rw [extend, show (q.rename f).state.propagate = _ from State.propagate_rename f q.state, extend]
  rcases q.state.propagate with ⟨_ | _, next⟩
  · simp only []
    rw [show (q.rename f).state.pickLiteral = _ from State.pickLiteral_rename f q.state]
    cases q.state.pickLiteral with
    | error e => rfl
    | ok l =>
      simp only [Except.map, Move.rename, Event.rename, Option.map_some, decide_rename,
        length_decisions_rename]
  · rfl

theorem step_rename (q : Search) : (q.rename f).step = q.step.rename f := by
  rw [step, show (q.rename f).state.status? = _ from State.status?_rename f q.state, step]
  rcases q.state.status? with _ | _ | _
  · exact extend_rename f q
  · simp only [Move.rename, Event.rename, Option.map_some, length_decisions_rename]
    rfl
  · exact retreat_rename f q

end Search

/-! ### Runs -/

/-- The run with all its literals renamed. -/
def Run.rename (f : Renaming) (r : Run) : Run :=
  { ending := r.ending, state := r.state.rename f, events := r.events.map (Event.rename f) }

theorem alarmAfter_rename (alarm : Option Nat) (event : Option Event) :
    alarmAfter alarm (event.map (Event.rename f)) = alarmAfter alarm event := by
  rw [alarmAfter, Option.isSome_map, alarmAfter]

theorem map_rename_append (event : Option Event) (events : List Event) :
    (event.map (Event.rename f)).toList ++ events.map (Event.rename f) =
      (event.toList ++ events).map (Event.rename f) := by
  cases event <;> rfl

theorem Search.runFrom_rename (alarm : Option Nat) (events : List Event) (q : Search) :
    (q.rename f).runFrom alarm (events.map (Event.rename f)) = (q.runFrom alarm events).rename f := by
  induction alarm, events, q using Search.runFrom.induct with
  | case1 events q =>
    rw [runFrom_zero, runFrom_zero, Run.rename, List.map_reverse]
    rfl
  | case2 alarm events q halarm event next hstep ih =>
    rw [runFrom_of_ne halarm, runFrom_of_ne halarm, step_rename, hstep]
    simp only [Move.rename, alarmAfter_rename, map_rename_append, ih]
  | case3 alarm events q halarm event status last hstep =>
    rw [runFrom_of_ne halarm, runFrom_of_ne halarm, step_rename, hstep]
    simp only [Move.rename, alarmAfter_rename, map_rename_append, Run.rename, List.map_reverse]
  | case4 alarm events q halarm error last hstep =>
    rw [runFrom_of_ne halarm, runFrom_of_ne halarm, step_rename, hstep]
    simp only [Move.rename, Run.rename, List.map_reverse]

/-- A search for renamed clauses is the renamed search: it ends the same way and with the same
counters, and its clauses, snapshots and events are those of the other with the literals renamed. An
alarm cuts both at the same place. -/
theorem search_rename (f : Renaming) (s : State) (alarm : Option Nat) :
    (s.rename f).search alarm = (s.search alarm).rename f :=
  Search.runFrom_rename f alarm [] (Search.start s)

/-- A state whose literals have both polarities, with a resolved place and a snapshot left over. -/
def tilted : State :=
  { clauses :=
      [.undecided [.literal 1, .resolved true], .undecided [.literal (-1), .literal 2, .literal (-3)]]
    snapshots := [[.undecided [.literal 3, .literal 0]]]
    counters := .none }

theorem search_tilted :
    (tilted.search none).ending = .answered .sat ∧
      (tilted.search none).events = [.branched 2 1, .satisfied 1] := by
  have hcall : Recurses 0 tilted _ :=
    .propagated (by decide) rfl (.first (l := 2) (by decide) rfl (by cbv) (.satisfied (by decide)) (by decide))
  rw [hcall.search_eq]
  exact ⟨rfl, rfl⟩

theorem search_rename_mirror :
    (tilted.rename .mirror).clauses =
        [.undecided [.literal (-1), .resolved true],
          .undecided [.literal 1, .literal (-2), .literal 3]] ∧
      (tilted.rename .mirror).search none = (tilted.search none).rename .mirror ∧
      ((tilted.rename .mirror).search none).ending = .answered .sat ∧
      ((tilted.rename .mirror).search none).events = [.branched (-2) 1, .satisfied 1] := by
  have hrename := search_rename .mirror tilted none
  refine ⟨by decide, hrename, ?_, ?_⟩
  · rw [hrename]
    exact search_tilted.1
  · rw [hrename, Run.rename, search_tilted.2]
    decide

end SatSearch
