import StyleSieve.Proofs.Fallible
import StyleSieve.Proofs.Selector.ThinSelector
import StyleSieve.Selector.Matching

/-!
# Matching with fewer conditions

A condition that is recognized as broken holds nowhere, and a chain of compound
selectors holds where each of its conditions does.  So a selector with some of its
conditions left out matches wherever the whole one does, and a selector that
matches does so in normal form, if that leaves out whole state pseudos.
-/

namespace StyleSieve.Selector

open Markup (Place)

/-! ## Where conditions hold -/

namespace Condition

variable {place : Place}

theorem not_never_of_holds {condition : Condition} (holds : condition.holds place = true) :
    condition.isNever = false := by
  cases condition with
  | never => cases holds
  | always | nothing | broken | choice => rfl

theorem not_broken_of_holds {condition : Condition} (holds : condition.holds place = true) :
    condition.isBroken = false := by
  cases condition with
  | broken => cases holds
  | always | nothing | never | choice => rfl

theorem holds_of_isAlways {condition : Condition} (always : condition.isAlways = true) :
    condition.holds place = true := by
  cases condition with
  | always => rfl
  | never | nothing | broken | choice => cases always

theorem holds_single {decides : Place → Bool} :
    (single decides).holds place = decides place := by
  simp [single, holds]

/-- All conditions hold together where each of them does. -/
theorem holds_all {conditions : List Condition} :
    (all conditions).holds place = true ↔
      ∀ condition ∈ conditions, condition.holds place = true := by
  have relevant : (∀ condition ∈ conditions, condition.holds place = true) ↔
      ∀ condition ∈ conditions.filter (!·.isAlways), condition.holds place = true := by
    constructor
    · intro each condition member
      exact each condition (List.mem_filter.mp member).1
    · intro each condition member
      cases always : condition.isAlways with
      | true => exact holds_of_isAlways always
      | false => exact each condition (List.mem_filter.mpr ⟨member, by simp [always]⟩)
  rw [relevant, all]
  split
  · rename_i nothing
    rw [nothing]
    simp [holds]
  · rename_i condition only
    rw [only]
    simp
  · constructor
    · intro holdsHere
      split at holdsHere
      · cases holdsHere
      · split at holdsHere
        · cases holdsHere
        · rw [holds_single, List.all_eq_true] at holdsHere
          exact holdsHere
    · intro each
      have noNever : (conditions.filter (!·.isAlways)).any isNever = false :=
        List.any_eq_false.mpr fun condition member =>
          Bool.eq_false_iff.mp (not_never_of_holds (each condition member))
      have noneBroken : (conditions.filter (!·.isAlways)).any isBroken = false :=
        List.any_eq_false.mpr fun condition member =>
          Bool.eq_false_iff.mp (not_broken_of_holds (each condition member))
      rw [noNever, noneBroken, if_neg Bool.false_ne_true, if_neg Bool.false_ne_true,
        holds_single, List.all_eq_true]
      exact each

end Condition

/-- The places to which an element may stand in a relation. -/
def placesBefore (combinator : Combinator) (place : Place) : List Place :=
  match combinator with
  | .descendant => place.ancestors
  | .child => place.parent?.toList
  | .next => place.previous.head?.toList
  | .following => place.previous

theorem holds_combinedCondition {combinator : Combinator} {outer : Condition} {place : Place} :
    (combinedCondition combinator outer).holds place = true ↔
      ∃ other ∈ placesBefore combinator place, outer.holds other = true := by
  cases outer with
  | broken => simp [combinedCondition, Condition.holds]
  | _ =>
      cases combinator <;>
        simp [combinedCondition, placesBefore, Condition.holds_single, Option.any_eq_true]

theorem holds_bothConditions {left right : Condition} {place : Place} :
    (bothConditions left right).holds place = true ↔
      left.holds place = true ∧ right.holds place = true := by
  have general (guarded : Condition)
      (isGuarded : guarded = if left.isBroken || right.isBroken then .broken
        else .single fun place => right.holds place && left.holds place) :
      guarded.holds place = true ↔ left.holds place = true ∧ right.holds place = true := by
    subst isGuarded
    constructor
    · intro holdsHere
      split at holdsHere
      · cases holdsHere
      · rw [Condition.holds_single, Bool.and_eq_true] at holdsHere
        exact holdsHere.symm
    · rintro ⟨leftHolds, rightHolds⟩
      rw [Condition.not_broken_of_holds leftHolds, Condition.not_broken_of_holds rightHolds,
        if_neg (by simp), Condition.holds_single, leftHolds, rightHolds]
      rfl
  cases right with
  | never => simp [bothConditions, Condition.holds]
  | always => simp [bothConditions, Condition.holds]
  | nothing => exact general _ rfl
  | broken => exact general _ rfl
  | choice first more => exact general _ rfl

/-! ## Fewer conditions -/

theorem simplesOf_cons {simple : Simple} {rest : List Simple} {conditions : List Condition} :
    simplesOf (simple :: rest) = .ok conditions ↔
      ∃ first others, simple.condition = .ok first ∧ simplesOf rest = .ok others ∧
        conditions = first :: others := by
  rw [simplesOf]
  constructor
  · intro handled
    cases first : simple.condition with
    | error failure =>
        rw [first] at handled
        cases handled
    | ok condition =>
        cases others : simplesOf rest with
        | error failure =>
            rw [first, others] at handled
            cases handled
        | ok more =>
            rw [first, others] at handled
            cases handled
            exact ⟨condition, more, rfl, rfl, rfl⟩
  · rintro ⟨first, others, firstHandled, othersHandled, rfl⟩
    rw [firstHandled, othersHandled]
    rfl

theorem simplesOf_sublist {fewer simples : List Simple} (sub : fewer.Sublist simples)
    {conditions : List Condition} (handled : simplesOf simples = .ok conditions) :
    ∃ kept, simplesOf fewer = .ok kept ∧ kept.Sublist conditions := by
  induction sub generalizing conditions with
  | slnil => exact ⟨[], by rw [simplesOf], List.nil_sublist _⟩
  | cons simple sub ih =>
      obtain ⟨first, others, _, othersHandled, rfl⟩ := simplesOf_cons.mp handled
      obtain ⟨kept, keptHandled, keptSub⟩ := ih othersHandled
      exact ⟨kept, keptHandled, .cons _ keptSub⟩
  | cons_cons simple sub ih =>
      obtain ⟨first, others, firstHandled, othersHandled, rfl⟩ := simplesOf_cons.mp handled
      obtain ⟨kept, keptHandled, keptSub⟩ := ih othersHandled
      exact ⟨first :: kept, simplesOf_cons.mpr ⟨first, kept, firstHandled, keptHandled, rfl⟩,
        .cons_cons _ keptSub⟩

theorem holds_all_of_sublist {kept conditions : List Condition} {place : Place}
    (sub : kept.Sublist conditions) (holdsHere : (Condition.all conditions).holds place = true) :
    (Condition.all kept).holds place = true :=
  Condition.holds_all.mpr fun condition member =>
    Condition.holds_all.mp holdsHere condition (sub.subset member)

theorem condition_combined {left : Complex} {combinator : Combinator} {right : List Simple}
    {outer : Condition} {conditions : List Condition} (handled : left.condition = .ok outer)
    (possible : outer.isNever = false) (rightHandled : simplesOf right = .ok conditions) :
    (Complex.combined left combinator right).condition =
      .ok (bothConditions (combinedCondition combinator outer) (.all conditions)) := by
  rw [Complex.condition, handled]
  simp only [bind, Except.bind, possible, rightHandled]
  rfl

/-- What a combined selector that can be handled comes to. -/
theorem condition_combined_eq_ok {left : Complex} {combinator : Combinator} {right : List Simple}
    {condition : Condition}
    (handled : (Complex.combined left combinator right).condition = .ok condition) :
    ∃ outer, left.condition = .ok outer ∧
      if outer.isNever then condition = .never
      else ∃ conditions, simplesOf right = .ok conditions ∧
        condition = bothConditions (combinedCondition combinator outer) (.all conditions) := by
  rw [Complex.condition] at handled
  obtain ⟨outer, leftHandled, handled⟩ := bind_eq_ok handled
  refine ⟨outer, leftHandled, ?_⟩
  split at handled
  · rw [if_pos ‹_›]
    exact (Except.ok.inj handled).symm
  · rw [if_neg ‹_›]
    obtain ⟨conditions, rightHandled, handled⟩ := bind_eq_ok handled
    exact ⟨conditions, rightHandled, (Except.ok.inj handled).symm⟩

/-- What a combined selector that holds somewhere is made of. -/
theorem condition_combined_of_holds {left : Complex} {combinator : Combinator}
    {right : List Simple} {condition : Condition} {place : Place}
    (handled : (Complex.combined left combinator right).condition = .ok condition)
    (somewhere : condition.holds place = true) :
    ∃ outer conditions, left.condition = .ok outer ∧ simplesOf right = .ok conditions ∧
      condition = bothConditions (combinedCondition combinator outer) (.all conditions) := by
  obtain ⟨outer, leftHandled, shape⟩ := condition_combined_eq_ok handled
  split at shape
  · rw [shape] at somewhere
    cases somewhere
  · obtain ⟨conditions, rightHandled, same⟩ := shape
    exact ⟨outer, conditions, leftHandled, rightHandled, same⟩

/-- Where a selector is recognized to match, it still is with fewer conditions. -/
theorem condition_of_thinner {fewer whole : Complex} (thinner : Thinner fewer whole)
    {strong : Condition} (handled : whole.condition = .ok strong) {place : Place}
    (somewhere : strong.holds place = true) :
    ∃ weak, fewer.condition = .ok weak ∧
      ∀ place, strong.holds place = true → weak.holds place = true := by
  induction thinner generalizing strong place with
  | @compound fewer simples sub =>
      rw [Complex.condition] at handled
      cases conditions : simplesOf simples with
      | error failure =>
          rw [conditions] at handled
          cases handled
      | ok all =>
          rw [conditions] at handled
          cases handled
          obtain ⟨kept, keptHandled, keptSub⟩ := simplesOf_sublist sub conditions
          refine ⟨.all kept, ?_, fun place => holds_all_of_sublist keptSub⟩
          rw [Complex.condition, keptHandled]
          rfl
  | @combined left whole fewer simples combinator outer sub ih =>
      obtain ⟨before, conditions, beforeHandled, rightHandled, rfl⟩ :=
        condition_combined_of_holds handled somewhere
      obtain ⟨other, _, otherHolds⟩ :=
        holds_combinedCondition.mp (holds_bothConditions.mp somewhere).1
      obtain ⟨weak, weakHandled, weaker⟩ := ih beforeHandled otherHolds
      obtain ⟨kept, keptHandled, keptSub⟩ := simplesOf_sublist sub rightHandled
      have possible := Condition.not_never_of_holds (weaker other otherHolds)
      refine ⟨_, condition_combined weakHandled possible keptHandled, ?_⟩
      intro place holdsHere
      obtain ⟨beforeHolds, rightHolds⟩ := holds_bothConditions.mp holdsHere
      obtain ⟨other, related, otherHolds⟩ := holds_combinedCondition.mp beforeHolds
      exact holds_bothConditions.mpr
        ⟨holds_combinedCondition.mpr ⟨other, related, weaker other otherHolds⟩,
          holds_all_of_sublist keptSub rightHolds⟩

/-! ## Matching texts -/

theorem wholeCondition_of_holds {selector : Complex} {condition : Condition} {place : Place}
    (handled : selector.condition = .ok condition) (somewhere : condition.holds place = true) :
    selector.wholeCondition = .ok condition := by
  rw [Complex.wholeCondition, handled]
  cases condition with
  | nothing | broken => cases somewhere
  | never | always | choice => rfl

theorem condition_of_wholeCondition {selector : Complex} {condition : Condition}
    (handled : selector.wholeCondition = .ok condition) : selector.condition = .ok condition := by
  rw [Complex.wholeCondition] at handled
  cases found : selector.condition with
  | error failure =>
      rw [found] at handled
      cases handled
  | ok given =>
      rw [found] at handled
      cases given with
      | nothing | broken => cases handled
      | never | always | choice => exact handled

theorem conditions_single (selector : Complex) :
    SelectorList.conditions ⟨[selector], none⟩ = selector.wholeCondition.map ([·]) := by
  rw [SelectorList.conditions, List.mapM_cons, List.mapM_nil]
  cases selector.wholeCondition <;> rfl

theorem failure_of_conditions {list : SelectorList} {conditions : List Condition}
    (handled : list.conditions = .ok conditions) : list.failure = none := by
  rw [SelectorList.conditions] at handled
  cases mapped : list.selectors.mapM Complex.wholeCondition with
  | error failure =>
      rw [mapped] at handled
      cases handled
  | ok given =>
      rw [mapped] at handled
      cases failure : list.failure with
      | none => rfl
      | some reason =>
          simp only [failure, bind, Except.bind] at handled
          cases handled

/-- A selector that matches somewhere matches there in normal form, if that
leaves out whole state pseudos. -/
theorem matches_normalize {selector : String} (only : LosesOnlyPseudos selector)
    {places : List Place} {conditions : List Condition}
    (handled : conditionsOfText selector = .ok conditions)
    (somewhere : matchesSome conditions places = true) :
    ∃ weak, conditionsOfText (normalize selector) = .ok weak ∧ matchesSome weak places = true := by
  obtain ⟨fewer, whole, wholeParsed, fewerParsed, thinner⟩ :=
    parse_normalize only (failure_of_conditions handled)
  rw [conditionsOfText, wholeParsed, conditions_single] at handled
  cases wholeHandled : whole.wholeCondition with
  | error failure =>
      rw [wholeHandled] at handled
      cases handled
  | ok strong =>
      rw [wholeHandled] at handled
      cases handled
      obtain ⟨place, member, holdsHere⟩ := List.any_eq_true.mp somewhere
      rw [List.any_cons, List.any_nil, Bool.or_false] at holdsHere
      obtain ⟨weak, weakHandled, weaker⟩ :=
        condition_of_thinner thinner (condition_of_wholeCondition wholeHandled) holdsHere
      have weakHolds := weaker place holdsHere
      refine ⟨[weak], ?_, ?_⟩
      · rw [conditionsOfText, fewerParsed, conditions_single,
          wholeCondition_of_holds weakHandled weakHolds]
        rfl
      · exact List.any_eq_true.mpr ⟨place, member, by simp [weakHolds]⟩

end StyleSieve.Selector
