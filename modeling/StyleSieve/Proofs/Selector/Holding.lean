import StyleSieve.Proofs.Selector.Demands
import StyleSieve.Proofs.Selector.Weakening

/-!
# Where conditions hold

A condition may turn out to be broken, and breaks all that is made of it.  This module tells for
each kind of condition where it holds, and where it holds unless it is broken; which conditions
always hold; and that dead selectors hold nowhere.
-/

namespace StyleSieve.Selector

open Markup (Place)

/-! ## Where conditions hold, unless they are broken -/

namespace Condition

variable {place : Place} {conditions : List Condition}

/-- A condition is broken, or holds at a place. -/
def HoldsOrBreaks (condition : Condition) (place : Place) : Prop :=
  condition.isBroken = true ∨ condition.holds place = true

theorem HoldsOrBreaks.not_never {condition : Condition} (holds : condition.HoldsOrBreaks place) :
    condition.isNever = false := by
  cases condition with
  | never => exact holds.elim nofun nofun
  | always | nothing | broken | choice => rfl

theorem HoldsOrBreaks.holds {condition : Condition} (holds : condition.HoldsOrBreaks place)
    (sound : condition.isBroken = false) : condition.holds place = true :=
  holds.resolve_left (Bool.eq_false_iff.mp sound)

theorem eq_broken {condition : Condition} (broken : condition.isBroken = true) :
    condition = .broken := by
  cases condition with
  | broken => rfl
  | always | nothing | never | choice => cases broken

theorem holdsOrBreaks_all
    (each : ∀ condition ∈ conditions, condition.HoldsOrBreaks place) :
    (all conditions).HoldsOrBreaks place := by
  by_cases sound : ∀ condition ∈ conditions, condition.isBroken = false
  · exact .inr (holds_all.mpr fun condition among =>
      (each condition among).holds (sound condition among))
  · push Not at sound
    obtain ⟨condition, among, broken⟩ := sound
    rw [ne_eq, Bool.not_eq_false] at broken
    have stays : condition ∈ conditions.filter (!·.isAlways) :=
      List.mem_filter.mpr ⟨among, by rw [eq_broken broken]; rfl⟩
    have noNever : (conditions.filter (!·.isAlways)).any isNever = false :=
      List.any_eq_false.mpr fun other member =>
        Bool.eq_false_iff.mp (each other (List.mem_filter.mp member).1).not_never
    have someBroken : (conditions.filter (!·.isAlways)).any isBroken = true :=
      List.any_eq_true.mpr ⟨condition, stays, broken⟩
    left
    rw [all]
    split
    · rename_i nothing
      rw [nothing] at stays
      cases stays
    · rename_i only single
      rw [single, List.mem_singleton] at stays
      rwa [← stays]
    · rw [noNever, someBroken]
      rfl

/-- One of several conditions, the first of which is there. -/
def firstOf (first : Condition) (more : List Condition) : Condition :=
  if (first :: more).any isBroken then .broken else .choice first.holds (more.map (·.holds))

theorem holds_firstOf {first : Condition} {more : List Condition}
    (holds : (firstOf first more).holds place = true) :
    ∃ condition ∈ first :: more, condition.holds place = true := by
  rw [firstOf] at holds
  split at holds
  · cases holds
  · simpa [Condition.holds] using holds

theorem holdsOrBreaks_firstOf {first condition : Condition} {more : List Condition}
    (among : condition ∈ first :: more) (holds : condition.HoldsOrBreaks place) :
    (firstOf first more).HoldsOrBreaks place := by
  rw [firstOf]
  split
  · exact .inl rfl
  · rename_i sound
    rw [Bool.not_eq_true, List.any_eq_false] at sound
    have found : ∃ condition ∈ first :: more, condition.holds place = true :=
      ⟨condition, among, holds.resolve_left (sound condition among)⟩
    exact .inr (by simpa [Condition.holds] using found)

theorem any_eq_firstOf (conditions : List Condition) :
    any conditions =
      match conditions.filter (!·.isNever) with
      | [] => .never
      | first :: more => firstOf first more := rfl

theorem holds_any (holds : (any conditions).holds place = true) :
    ∃ condition ∈ conditions, condition.holds place = true := by
  rw [any_eq_firstOf] at holds
  split at holds
  · cases holds
  · rename_i first more shape
    obtain ⟨condition, among, holdsHere⟩ := holds_firstOf holds
    exact ⟨condition, (List.mem_filter.mp (shape ▸ among)).1, holdsHere⟩

theorem holdsOrBreaks_any {condition : Condition} (among : condition ∈ conditions)
    (holds : condition.HoldsOrBreaks place) : (any conditions).HoldsOrBreaks place := by
  have stays : condition ∈ conditions.filter (!·.isNever) :=
    List.mem_filter.mpr ⟨among, by rw [holds.not_never]; rfl⟩
  rw [any_eq_firstOf]
  split
  · rename_i nothing
    rw [nothing] at stays
    cases stays
  · rename_i first more shape
    exact holdsOrBreaks_firstOf (shape ▸ stays) holds

/-- Where none of some conditions holds, some of them ask for something, and none of these is broken
or holds. -/
theorem holds_none (holds : (none conditions).holds place = true) :
    (∃ condition ∈ conditions, condition.isAlways = false) ∧
      ∀ condition ∈ conditions, condition.isAlways = false → ¬condition.HoldsOrBreaks place := by
  rw [none] at holds
  split at holds
  · cases holds
  · rename_i something
    have filled := List.exists_mem_of_ne_nil _ something
    split at holds
    · cases holds
    · rename_i sound
      rw [holds_single, Bool.not_eq_true', List.any_eq_false] at holds
      rw [Bool.not_eq_true, List.any_eq_false] at sound
      refine ⟨?_, fun condition among asks found => ?_⟩
      · obtain ⟨condition, member⟩ := filled
        simp only [List.mem_filter, Bool.not_eq_true'] at member
        exact ⟨condition, member⟩
      · have stays : condition ∈ conditions.filter (!·.isAlways) :=
          List.mem_filter.mpr ⟨among, by rw [asks]; rfl⟩
        exact found.elim (sound condition stays) (holds condition stays)

theorem holdsOrBreaks_none (some : ∃ condition ∈ conditions, condition.isAlways = false)
    (none : ∀ condition ∈ conditions, condition.isAlways = false → condition.holds place = false) :
    (Condition.none conditions).HoldsOrBreaks place := by
  obtain ⟨condition, among, asks⟩ := some
  have stays : condition ∈ conditions.filter (!·.isAlways) :=
    List.mem_filter.mpr ⟨among, by rw [asks]; rfl⟩
  rw [Condition.none]
  split
  · rename_i nothing
    rw [nothing] at stays
    cases stays
  · split
    · exact .inl rfl
    · right
      rw [holds_single, Bool.not_eq_true', List.any_eq_false]
      intro other member
      simp only [List.mem_filter, Bool.not_eq_true'] at member
      exact Bool.eq_false_iff.mp (none other member.1 member.2)

end Condition

theorem holdsOrBreaks_combined {combinator : Combinator} {outer : Condition} {place other : Place}
    (before : other ∈ placesBefore combinator place) (holds : outer.HoldsOrBreaks other) :
    (combinedCondition combinator outer).HoldsOrBreaks place := by
  rcases holds with broken | holds
  · rw [Condition.eq_broken broken]
    exact .inl rfl
  · exact .inr (holds_combinedCondition.mpr ⟨other, before, holds⟩)

theorem holdsOrBreaks_both {left right : Condition} {place : Place}
    (leftHolds : left.HoldsOrBreaks place) (rightHolds : right.HoldsOrBreaks place) :
    (bothConditions left right).HoldsOrBreaks place := by
  cases right with
  | never | nothing => exact rightHolds.elim nofun nofun
  | always => exact leftHolds
  | broken => exact .inl (by simp [bothConditions, Condition.isBroken])
  | choice first more =>
      rcases leftHolds with broken | holds
      · rw [Condition.eq_broken broken]
        exact .inl rfl
      · exact .inr (holds_bothConditions.mpr ⟨holds, rightHolds.holds rfl⟩)

theorem holds_relatedCondition {combinator : Combinator} {inner : Condition} {place : Place}
    (holds : (relatedCondition combinator inner).holds place = true) :
    ∃ other ∈ relatedPlaces combinator place, inner.holds other = true := by
  cases inner with
  | nothing | broken => cases holds
  | never | always | choice => exact List.any_eq_true.mp (Condition.holds_single.symm.trans holds)

theorem holdsOrBreaks_related {combinator : Combinator} {inner : Condition} {place other : Place}
    (related : other ∈ relatedPlaces combinator place) (holds : inner.HoldsOrBreaks other) :
    (relatedCondition combinator inner).HoldsOrBreaks place := by
  cases inner with
  | nothing | broken => exact .inl rfl
  | never => exact holds.elim nofun nofun
  | always | choice =>
      have holdsThere := holds.holds rfl
      refine .inr ?_
      rw [relatedCondition, Condition.holds_single]
      · exact List.any_eq_true.mpr ⟨other, related, holdsThere⟩
      · nofun
      · nofun

/-! ## Simple and compound selectors -/

theorem simplesOf_eq_mapM (simples : List Simple) :
    simplesOf simples = simples.mapM Simple.condition := by
  induction simples with
  | nil => rfl
  | cons simple rest ih => rw [simplesOf, ih, List.mapM_cons]

theorem conditionsOf_eq_mapM (selectors : List Complex) :
    conditionsOf selectors = selectors.mapM Complex.condition := by
  induction selectors with
  | nil => rfl
  | cons selector rest ih => rw [conditionsOf, ih, List.mapM_cons]

theorem relativesOf_cons {combinator : Combinator} {selector : Complex} {rest : List Relative}
    {conditions : List Condition}
    (handled : relativesOf (.mk combinator selector :: rest) = .ok conditions) :
    ∃ inner more, selector.condition = .ok inner ∧ relativesOf rest = .ok more ∧
      conditions = if inner.isNever then more else relatedCondition combinator inner :: more := by
  rw [relativesOf] at handled
  obtain ⟨inner, first, handled⟩ := bind_eq_ok handled
  obtain ⟨more, later, handled⟩ := bind_eq_ok handled
  exact ⟨inner, more, first, later, (Except.ok.inj handled).symm⟩

/-- Relative selectors that can be handled have conditions, of which those that never hold are left
out. -/
theorem exists_of_relativesOf {relatives : List Relative} {conditions : List Condition}
    (handled : relativesOf relatives = .ok conditions) :
    (∀ combinator selector, .mk combinator selector ∈ relatives →
      ∃ inner, selector.condition = .ok inner ∧
        (inner.isNever = false → relatedCondition combinator inner ∈ conditions)) ∧
    ∀ condition ∈ conditions, ∃ combinator selector inner,
      .mk combinator selector ∈ relatives ∧ selector.condition = .ok inner ∧
        condition = relatedCondition combinator inner := by
  induction relatives generalizing conditions with
  | nil =>
      cases handled
      exact ⟨nofun, nofun⟩
  | cons relative rest ih =>
      obtain ⟨combinator, selector⟩ := relative
      obtain ⟨inner, more, first, later, rfl⟩ := relativesOf_cons handled
      obtain ⟨each, back⟩ := ih later
      have fromMore : ∀ condition ∈ more, ∃ combinator' selector' inner',
          .mk combinator' selector' ∈ .mk combinator selector :: rest ∧
            selector'.condition = .ok inner' ∧
              condition = relatedCondition combinator' inner' := by
        intro condition among
        obtain ⟨combinator', selector', inner', inRest, isInner, same⟩ := back condition among
        exact ⟨combinator', selector', inner', List.mem_cons_of_mem _ inRest, isInner, same⟩
      refine ⟨fun combinator' selector' among => ?_, ?_⟩
      · rcases List.mem_cons.mp among with same | among
        · cases same
          refine ⟨inner, first, fun possible => ?_⟩
          rw [possible, if_neg Bool.false_ne_true]
          exact List.mem_cons_self
        · obtain ⟨inner', isInner, stays⟩ := each combinator' selector' among
          refine ⟨inner', isInner, fun possible => ?_⟩
          split
          · exact stays possible
          · exact List.mem_cons_of_mem _ (stays possible)
      · split
        · exact fromMore
        · rw [List.forall_mem_cons]
          exact ⟨⟨combinator, selector, inner, List.mem_cons_self, first, rfl⟩, fromMore⟩

theorem holds_anyRelated {conditions : List Condition} {place : Place}
    (holds : (anyRelated conditions).holds place = true) :
    ∃ condition ∈ conditions, condition.holds place = true := by
  cases conditions with
  | nil => cases holds
  | cons first more => exact Condition.holds_firstOf holds

theorem holdsOrBreaks_anyRelated {conditions : List Condition} {condition : Condition}
    {place : Place} (among : condition ∈ conditions) (holds : condition.HoldsOrBreaks place) :
    (anyRelated conditions).HoldsOrBreaks place := by
  cases conditions with
  | nil => cases among
  | cons first more => exact Condition.holdsOrBreaks_firstOf among holds

/-! ### Conditions that always hold -/

theorem AttributeTest.condition_ne_always {test : AttributeTest} {condition : Condition}
    (handled : test.condition = .ok condition) : condition.isAlways = false := by
  unfold AttributeTest.condition at handled
  split at handled
  · cases handled
  · rw [← Except.ok.inj handled]
    dsimp only
    repeat' split
    all_goals rfl

theorem pseudoCondition_ne_always {name : List Char} {condition : Condition}
    (handled : pseudoCondition name = .ok condition) : condition.isAlways = false := by
  unfold pseudoCondition at handled
  dsimp only at handled
  split at handled
  · cases handled
    rfl
  · split at handled <;> cases handled <;> rfl

theorem functionCondition_ne_always {name : List Char} {arguments : List Css.Component}
    {hasOf : Bool} {among : Except Failure (Option Condition)} {condition : Condition}
    (handled : functionCondition name arguments hasOf among = .ok condition) :
    condition.isAlways = false := by
  unfold functionCondition at handled
  split at handled
  · obtain ⟨languages, -, handled⟩ := bind_eq_ok handled
    cases handled
    unfold languageCondition
    dsimp only
    split <;> rfl
  · obtain ⟨found, -, handled⟩ := bind_eq_ok handled
    split at handled
    · cases handled
    · split at handled
      · cases handled
      · split at handled
        · cases handled
        · cases handled
        · cases handled
          unfold positionCondition
          split <;> rfl

theorem Simple.condition_ne_always {simple : Simple} {condition : Condition}
    (handled : simple.condition = .ok condition) : condition.isAlways = false := by
  cases simple with
  | type | noNamespace | id | className => cases handled; rfl
  | «attribute» test => exact AttributeTest.condition_ne_always handled
  | pseudoClass name => exact pseudoCondition_ne_always handled
  | function name arguments hasOf among failure => exact functionCondition_ne_always handled
  | not selectors =>
      obtain ⟨conditions, -, rfl⟩ := map_eq_ok handled
      unfold Condition.none
      split
      · rfl
      · split <;> rfl
  | anyOf selectors =>
      obtain ⟨conditions, -, rfl⟩ := map_eq_ok handled
      unfold Condition.any
      split
      · rfl
      · split <;> rfl
  | has selectors =>
      obtain ⟨conditions, -, rfl⟩ := map_eq_ok handled
      unfold anyRelated
      split
      · rfl
      · split <;> rfl

theorem Condition.all_ne_always {conditions : List Condition} (filled : conditions ≠ [])
    (noneAlways : ∀ condition ∈ conditions, condition.isAlways = false) :
    (all conditions).isAlways = false := by
  have same : conditions.filter (!·.isAlways) = conditions :=
    List.filter_eq_self.mpr fun condition among => by rw [noneAlways condition among]; rfl
  rw [all, same]
  split
  · exact absurd rfl filled
  · exact noneAlways _ (List.mem_singleton_self _)
  · split
    · rfl
    · split <;> rfl

theorem combinedCondition_ne_always (combinator : Combinator) (outer : Condition) :
    (combinedCondition combinator outer).isAlways = false := by
  cases outer <;> cases combinator <;> rfl

theorem bothConditions_ne_always {left : Condition} (notAlways : left.isAlways = false)
    (right : Condition) : (bothConditions left right).isAlways = false := by
  unfold bothConditions
  split
  · rfl
  · exact notAlways
  · split <;> rfl

/-- A selector always holds just if it asks for nothing. -/
theorem Complex.isAlways_eq_isAny {selector : Complex} {condition : Condition}
    (handled : selector.condition = .ok condition) : condition.isAlways = selector.isAny := by
  cases selector with
  | compound simples =>
      obtain ⟨conditions, given, rfl⟩ := map_eq_ok handled
      cases simples with
      | nil =>
          cases given
          rfl
      | cons simple rest =>
          obtain ⟨first, others, -, -, rfl⟩ := simplesOf_cons.mp given
          rw [simplesOf_eq_mapM] at given
          refine Condition.all_ne_always (List.cons_ne_nil _ _) fun found among => ?_
          obtain ⟨asked, -, isFound⟩ := (exists_of_mapM given).2 found among
          exact asked.condition_ne_always isFound
  | combined left combinator right =>
      obtain ⟨outer, -, shape⟩ := condition_combined_eq_ok handled
      split at shape
      · rw [shape]
        rfl
      · obtain ⟨conditions, -, rfl⟩ := shape
        exact bothConditions_ne_always (combinedCondition_ne_always combinator outer) _

/-! ### Dead selectors -/

mutual

theorem Simple.not_holds_of_isDead {simple : Simple} (dead : simple.isDead = true)
    {condition : Condition} (handled : simple.condition = .ok condition) (place : Place) :
    condition.holds place = false := by
  cases simple with
  | pseudoClass name =>
      rw [Simple.isDead] at dead
      rw [Simple.condition, pseudoCondition, dead, if_pos rfl] at handled
      cases handled
      rfl
  | anyOf selectors =>
      rw [Simple.condition] at handled
      obtain ⟨conditions, given, rfl⟩ := map_eq_ok handled
      rw [conditionsOf_eq_mapM] at given
      by_contra holds
      obtain ⟨found, among, holdsHere⟩ := Condition.holds_any (Bool.not_eq_false _ ▸ holds)
      obtain ⟨selector, member, isFound⟩ := (exists_of_mapM given).2 found among
      rw [Complex.not_holds_of_areDead dead selector member isFound place] at holdsHere
      cases holdsHere
  | type | noNamespace | id | className | «attribute» | function | not | has => cases dead
termination_by structural simple

theorem Simple.not_holds_of_hasDead {simples : List Simple} (dead : Simple.hasDead simples = true)
    {conditions : List Condition} (handled : simplesOf simples = .ok conditions) (place : Place) :
    (Condition.all conditions).holds place = false := by
  cases simples with
  | nil => cases dead
  | cons simple rest =>
      obtain ⟨first, others, firstHandled, othersHandled, rfl⟩ := simplesOf_cons.mp handled
      by_contra holds
      rw [Bool.not_eq_false, Condition.holds_all, List.forall_mem_cons,
        ← Condition.holds_all] at holds
      rw [Simple.hasDead, Bool.or_eq_true] at dead
      rcases dead with dead | dead
      · rw [Simple.not_holds_of_isDead dead firstHandled place] at holds
        cases holds.1
      · rw [Simple.not_holds_of_hasDead dead othersHandled place] at holds
        cases holds.2
termination_by structural simples

theorem Complex.not_holds_of_isDead {selector : Complex} (dead : selector.isDead = true)
    {condition : Condition} (handled : selector.condition = .ok condition) (place : Place) :
    condition.holds place = false := by
  cases selector with
  | compound simples =>
      rw [Complex.condition] at handled
      obtain ⟨conditions, given, rfl⟩ := map_eq_ok handled
      exact Simple.not_holds_of_hasDead dead given place
  | combined left combinator right =>
      by_contra holds
      rw [Bool.not_eq_false] at holds
      obtain ⟨outer, conditions, leftHandled, rightHandled, rfl⟩ :=
        condition_combined_of_holds handled holds
      obtain ⟨leftHolds, rightHolds⟩ := holds_bothConditions.mp holds
      rw [Complex.isDead, Bool.or_eq_true] at dead
      rcases dead with dead | dead
      · obtain ⟨other, -, otherHolds⟩ := holds_combinedCondition.mp leftHolds
        rw [Complex.not_holds_of_isDead dead leftHandled other] at otherHolds
        cases otherHolds
      · rw [Simple.not_holds_of_hasDead dead rightHandled place] at rightHolds
        cases rightHolds
termination_by structural selector

theorem Complex.not_holds_of_areDead {selectors : List Complex}
    (dead : Complex.areDead selectors = true) (selector : Complex) (among : selector ∈ selectors)
    {condition : Condition} (handled : selector.condition = .ok condition) (place : Place) :
    condition.holds place = false := by
  cases selectors with
  | nil => cases among
  | cons first rest =>
      rw [Complex.areDead, Bool.and_eq_true] at dead
      rcases List.mem_cons.mp among with same | among
      · rw [same] at handled
        exact Complex.not_holds_of_isDead dead.1 handled place
      · exact Complex.not_holds_of_areDead dead.2 selector among handled place
termination_by structural selectors

end

end StyleSieve.Selector
