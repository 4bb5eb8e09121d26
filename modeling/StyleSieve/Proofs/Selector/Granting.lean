import StyleSieve.Proofs.Selector.Holding

/-!
# Matching with lesser demands

Where a selector matches, one that asks for no more does, at the same place or further out: each
kind of condition hands on what its parts grant.  A condition that cannot hold hides what stands to
its right, so the other selector may show a part that is broken; then it is broken as a whole.
-/

namespace StyleSieve.Selector

open Markup (Place)

/-! ## Granting -/

/-- Where one of two conditions on an element holds, the other one does, unless it is broken. -/
def Simple.Grants (fewer whole : Simple) : Prop :=
  ∀ weak strong, fewer.condition = .ok weak → whole.condition = .ok strong →
    ∀ place, strong.holds place = true → weak.HoldsOrBreaks place

/-- Where one of two compound selectors holds, the other one does, unless it is broken. -/
def Simple.AllGrant (fewer whole : List Simple) : Prop :=
  ∀ weak strong, simplesOf fewer = .ok weak → simplesOf whole = .ok strong →
    ∀ place, (Condition.all strong).holds place = true → (Condition.all weak).HoldsOrBreaks place

/-- Where one of two chains holds, the other one does, unless it is broken. -/
def Complex.Grants (fewer whole : Complex) : Prop :=
  ∀ weak strong, fewer.condition = .ok weak → whole.condition = .ok strong →
    ∀ place, strong.holds place = true → weak.HoldsOrBreaks place

/-- Where one of two conditions on an element holds, the other one does there or further out, unless
it is broken. -/
def Simple.GrantsAround (fewer whole : Simple) : Prop :=
  ∀ weak strong, fewer.condition = .ok weak → whole.condition = .ok strong →
    ∀ place, strong.holds place = true →
      ∃ other ∈ place :: place.ancestors, weak.HoldsOrBreaks other

/-- Where one of two chains holds, the other one does there or further out, unless it is
broken. -/
def Complex.GrantsAround (fewer whole : Complex) : Prop :=
  ∀ weak strong, fewer.condition = .ok weak → whole.condition = .ok strong →
    ∀ place, strong.holds place = true →
      ∃ other ∈ place :: place.ancestors, weak.HoldsOrBreaks other

/-! ### Conditions on one element -/

theorem Simple.grants_anyOf {fewer whole : List Complex}
    (covered : ∀ other ∈ whole, ∃ one ∈ fewer, one.Grants other) :
    (Simple.anyOf fewer).Grants (.anyOf whole) := by
  intro weak strong weakHandled strongHandled place holds
  obtain ⟨weaks, fewerHandled, rfl⟩ := map_eq_ok weakHandled
  obtain ⟨strongs, wholeHandled, rfl⟩ := map_eq_ok strongHandled
  rw [conditionsOf_eq_mapM] at fewerHandled wholeHandled
  obtain ⟨found, among, holdsHere⟩ := Condition.holds_any holds
  obtain ⟨other, inWhole, isFound⟩ := (exists_of_mapM wholeHandled).2 found among
  obtain ⟨one, inFewer, grants⟩ := covered other inWhole
  obtain ⟨given, inWeaks, isGiven⟩ := (exists_of_mapM fewerHandled).1 one inFewer
  exact Condition.holdsOrBreaks_any inWeaks (grants given found isGiven isFound place holdsHere)

theorem Simple.grantsAround_anyOf {fewer whole : List Complex}
    (covered : ∀ other ∈ whole, ∃ one ∈ fewer, one.GrantsAround other) :
    (Simple.anyOf fewer).GrantsAround (.anyOf whole) := by
  intro weak strong weakHandled strongHandled place holds
  obtain ⟨weaks, fewerHandled, rfl⟩ := map_eq_ok weakHandled
  obtain ⟨strongs, wholeHandled, rfl⟩ := map_eq_ok strongHandled
  rw [conditionsOf_eq_mapM] at fewerHandled wholeHandled
  obtain ⟨found, among, holdsHere⟩ := Condition.holds_any holds
  obtain ⟨other, inWhole, isFound⟩ := (exists_of_mapM wholeHandled).2 found among
  obtain ⟨one, inFewer, grants⟩ := covered other inWhole
  obtain ⟨given, inWeaks, isGiven⟩ := (exists_of_mapM fewerHandled).1 one inFewer
  obtain ⟨outer, around, holdsThere⟩ := grants given found isGiven isFound place holdsHere
  exact ⟨outer, around, Condition.holdsOrBreaks_any inWeaks holdsThere⟩

theorem Simple.grants_has {fewer whole : List Relative}
    (covered : ∀ combinator other, .mk combinator other ∈ whole →
      ∃ one, .mk combinator one ∈ fewer ∧ one.Grants other) :
    (Simple.has fewer).Grants (.has whole) := by
  intro weak strong weakHandled strongHandled place holds
  obtain ⟨weaks, fewerHandled, rfl⟩ := map_eq_ok weakHandled
  obtain ⟨strongs, wholeHandled, rfl⟩ := map_eq_ok strongHandled
  obtain ⟨found, among, holdsHere⟩ := holds_anyRelated holds
  obtain ⟨combinator, other, inner, inWhole, isInner, rfl⟩ :=
    (exists_of_relativesOf wholeHandled).2 found among
  obtain ⟨there, related, holdsThere⟩ := holds_relatedCondition holdsHere
  obtain ⟨one, inFewer, grants⟩ := covered combinator other inWhole
  obtain ⟨given, isGiven, stays⟩ := (exists_of_relativesOf fewerHandled).1 combinator one inFewer
  have granted := grants given inner isGiven isInner there holdsThere
  exact holdsOrBreaks_anyRelated (stays granted.not_never)
    (holdsOrBreaks_related related granted)

/-- What is forbidden is granted the other way round.  Conditions that always hold are not looked
at among what is forbidden, so they have to belong together. -/
theorem Simple.grants_not {fewer whole : List Complex}
    (alike : ∀ other ∈ whole, ∃ one ∈ fewer, other.isAny = one.isAny)
    (covered : ∀ one ∈ fewer, ∃ other ∈ whole, other.Grants one ∧ other.isAny = one.isAny) :
    (Simple.not fewer).Grants (.not whole) := by
  intro weak strong weakHandled strongHandled place holds
  obtain ⟨weaks, fewerHandled, rfl⟩ := map_eq_ok weakHandled
  obtain ⟨strongs, wholeHandled, rfl⟩ := map_eq_ok strongHandled
  rw [conditionsOf_eq_mapM] at fewerHandled wholeHandled
  obtain ⟨⟨asked, inStrongs, isAsked⟩, noneHolds⟩ := Condition.holds_none holds
  refine Condition.holdsOrBreaks_none ?_ fun given inWeaks givenAsks => ?_
  · obtain ⟨other, inWhole, isOther⟩ := (exists_of_mapM wholeHandled).2 asked inStrongs
    obtain ⟨one, inFewer, same⟩ := alike other inWhole
    obtain ⟨given, inWeaks, isGiven⟩ := (exists_of_mapM fewerHandled).1 one inFewer
    refine ⟨given, inWeaks, ?_⟩
    rw [Complex.isAlways_eq_isAny isGiven, ← same, ← Complex.isAlways_eq_isAny isOther, isAsked]
  · obtain ⟨one, inFewer, isGiven⟩ := (exists_of_mapM fewerHandled).2 given inWeaks
    obtain ⟨other, inWhole, grants, same⟩ := covered one inFewer
    obtain ⟨found, inFound, isFound⟩ := (exists_of_mapM wholeHandled).1 other inWhole
    have foundAsks : found.isAlways = false := by
      rw [Complex.isAlways_eq_isAny isFound, same, ← Complex.isAlways_eq_isAny isGiven, givenAsks]
    by_contra holdsHere
    rw [Bool.not_eq_false] at holdsHere
    exact noneHolds found inFound foundAsks (grants found given isFound isGiven place holdsHere)

theorem Simple.grants_self (simple : Simple) : simple.Grants simple := by
  intro weak strong weakHandled strongHandled place holds
  rw [weakHandled] at strongHandled
  cases strongHandled
  exact .inr holds

/-! ### Chains -/

theorem Simple.allGrant_of_each {fewer whole : List Simple}
    (covered : ∀ one ∈ fewer, ∃ other ∈ whole, one.Grants other) :
    Simple.AllGrant fewer whole := by
  intro weak strong weakHandled strongHandled place holds
  rw [simplesOf_eq_mapM] at weakHandled strongHandled
  refine Condition.holdsOrBreaks_all fun given inWeak => ?_
  obtain ⟨one, inFewer, isGiven⟩ := (exists_of_mapM weakHandled).2 given inWeak
  obtain ⟨other, inWhole, grants⟩ := covered one inFewer
  obtain ⟨found, inStrong, isFound⟩ := (exists_of_mapM strongHandled).1 other inWhole
  exact grants given found isGiven isFound place (Condition.holds_all.mp holds found inStrong)

theorem Complex.grants_of_isDead {fewer whole : Complex} (dead : whole.isDead = true) :
    fewer.Grants whole := by
  intro weak strong _ strongHandled place holds
  rw [Complex.not_holds_of_isDead dead strongHandled place] at holds
  cases holds

theorem Complex.grants_compound {fewer whole : List Simple} (grant : Simple.AllGrant fewer whole) :
    (Complex.compound fewer).Grants (.compound whole) := by
  intro weak strong weakHandled strongHandled place holds
  obtain ⟨weaks, fewerHandled, rfl⟩ := map_eq_ok weakHandled
  obtain ⟨strongs, wholeHandled, rfl⟩ := map_eq_ok strongHandled
  exact grant weaks strongs fewerHandled wholeHandled place holds

/-- The last compound selector of a chain is asked for at the same place as the chain. -/
theorem Complex.grants_last {left : Complex} {combinator : Combinator} {fewer whole : List Simple}
    (grant : Simple.AllGrant fewer whole) :
    (Complex.compound fewer).Grants (.combined left combinator whole) := by
  intro weak strong weakHandled strongHandled place holds
  obtain ⟨weaks, fewerHandled, rfl⟩ := map_eq_ok weakHandled
  obtain ⟨outer, strongs, -, wholeHandled, rfl⟩ := condition_combined_of_holds strongHandled holds
  exact grant weaks strongs fewerHandled wholeHandled place (holds_bothConditions.mp holds).2

theorem mem_ancestors_trans {place other outer : Place} (above : other ∈ place.ancestors)
    (around : outer ∈ other :: other.ancestors) : outer ∈ place.ancestors := by
  induction place with
  | outermost => cases above
  | inside parent before self after ih =>
      rw [Place.ancestors] at above ⊢
      rcases List.mem_cons.mp above with rfl | above
      · exact around
      · exact List.mem_cons_of_mem _ (ih above)

theorem Complex.GrantsAround.of_grants {fewer whole : Complex} (grants : fewer.Grants whole) :
    fewer.GrantsAround whole :=
  fun weak strong weakHandled strongHandled place holds =>
    ⟨place, List.mem_cons_self, grants weak strong weakHandled strongHandled place holds⟩

/-- What encloses an element is asked for where it stands, or further out if any enclosing element
will do. -/
theorem Complex.grants_combined {left left' : Complex} {combinator : Combinator}
    {fewer whole : List Simple} (grantLast : Simple.AllGrant fewer whole)
    (grantLeft : left.Grants left' ∨ combinator = .descendant ∧ left.GrantsAround left') :
    (Complex.combined left combinator fewer).Grants (.combined left' combinator whole) := by
  intro weak strong weakHandled strongHandled place holds
  obtain ⟨outer', strongs, isOuter', wholeHandled, rfl⟩ :=
    condition_combined_of_holds strongHandled holds
  obtain ⟨leftHolds, lastHolds⟩ := holds_bothConditions.mp holds
  obtain ⟨there, before, holdsThere⟩ := holds_combinedCondition.mp leftHolds
  obtain ⟨outer, isOuter, shape⟩ := condition_combined_eq_ok weakHandled
  have somewhere : ∃ other ∈ placesBefore combinator place, outer.HoldsOrBreaks other := by
    rcases grantLeft with grants | ⟨rfl, grants⟩
    · exact ⟨there, before, grants outer outer' isOuter isOuter' there holdsThere⟩
    · obtain ⟨other, around, granted⟩ := grants outer outer' isOuter isOuter' there holdsThere
      exact ⟨other, mem_ancestors_trans before around, granted⟩
  obtain ⟨other, isBefore, granted⟩ := somewhere
  rw [granted.not_never, if_neg Bool.false_ne_true] at shape
  obtain ⟨weaks, fewerHandled, rfl⟩ := shape
  exact holdsOrBreaks_both (holdsOrBreaks_combined isBefore granted)
    (grantLast weaks strongs fewerHandled wholeHandled place lastHolds)

/-- What encloses the element of a chain stands further out. -/
theorem Complex.grantsAround_combined {fewer left : Complex} {last : List Simple}
    (grants : fewer.GrantsAround left) :
    fewer.GrantsAround (.combined left .descendant last) := by
  intro weak strong weakHandled strongHandled place holds
  obtain ⟨outer, strongs, isOuter, -, rfl⟩ := condition_combined_of_holds strongHandled holds
  obtain ⟨there, above, holdsThere⟩ :=
    holds_combinedCondition.mp (holds_bothConditions.mp holds).1
  obtain ⟨other, around, granted⟩ := grants weak outer weakHandled isOuter there holdsThere
  exact ⟨other, List.mem_cons_of_mem _ (mem_ancestors_trans above around), granted⟩

theorem Complex.grantsAround_compound {one other : Simple} {whole : List Simple}
    (inWhole : other ∈ whole) (grants : one.GrantsAround other) :
    (Complex.compound [one]).GrantsAround (.compound whole) := by
  intro weak strong weakHandled strongHandled place holds
  obtain ⟨weaks, fewerHandled, rfl⟩ := map_eq_ok weakHandled
  obtain ⟨strongs, wholeHandled, rfl⟩ := map_eq_ok strongHandled
  obtain ⟨given, none, isGiven, noMore, rfl⟩ := simplesOf_cons.mp fewerHandled
  cases noMore
  rw [simplesOf_eq_mapM] at wholeHandled
  obtain ⟨found, inStrongs, isFound⟩ := (exists_of_mapM wholeHandled).1 other inWhole
  obtain ⟨outer, around, granted⟩ :=
    grants given found isGiven isFound place (Condition.holds_all.mp holds found inStrongs)
  exact ⟨outer, around, Condition.holdsOrBreaks_all (List.forall_mem_singleton.mpr granted)⟩

/-! ### What asks for no more -/

mutual

theorem Simple.grants_of_asksNoMore {n : Nat} {fewer whole : Simple}
    (size : n = 2 * (sizeOf fewer + sizeOf whole)) (asks : fewer.asksNoMore whole = true) :
    fewer.Grants whole := by
  unfold Simple.asksNoMore at asks
  split at asks
  · refine Simple.grants_anyOf fun other inWhole => ?_
    obtain ⟨one, inFewer, asksOne⟩ :=
      (all_any_attach fun other (one : Complex) => one.asksNoMore other).mp asks other inWhole
    exact ⟨one, inFewer, Complex.grants_of_asksNoMore rfl asksOne⟩
  · refine Simple.grants_has fun combinator other inWhole => ?_
    obtain ⟨⟨combinator', one⟩, inFewer, asksOne⟩ :=
      (all_any_attach fun other (one : Relative) => one.asksNoMore other).mp asks _ inWhole
    rw [Relative.asksNoMore, Bool.and_eq_true, beq_iff_eq] at asksOne
    obtain ⟨rfl, asksOne⟩ := asksOne
    exact ⟨one, inFewer, Complex.grants_of_asksNoMore rfl asksOne⟩
  · obtain ⟨alike, covered⟩ := Complex.exists_of_eachAsksNoMore asks
    refine Simple.grants_not alike fun one inFewer => ?_
    obtain ⟨other, inWhole, asksOther, same⟩ := covered one inFewer
    exact ⟨other, inWhole, Complex.grants_of_asksNoMore rfl asksOther, same⟩
  · rw [Simple.eq_of_same asks]
    exact Simple.grants_self _
termination_by n
decreasing_by
  · have smaller := sizeOf_add_lt inFewer inWhole
    rw [Simple.anyOf.sizeOf_spec, Simple.anyOf.sizeOf_spec] at size
    omega
  · have smaller := sizeOf_add_lt inFewer inWhole
    rw [Relative.mk.sizeOf_spec, Relative.mk.sizeOf_spec] at smaller
    rw [Simple.has.sizeOf_spec, Simple.has.sizeOf_spec] at size
    omega
  · have smaller := sizeOf_add_lt inFewer inWhole
    rw [Simple.not.sizeOf_spec, Simple.not.sizeOf_spec] at size
    omega

theorem Simple.allGrant_of_allAskNoMore {n : Nat} {fewer whole : List Simple}
    (_ : n = 2 * (sizeOf fewer + sizeOf whole))
    (asks : Simple.allAskNoMore fewer whole = true) : Simple.AllGrant fewer whole := by
  rw [Simple.allAskNoMore] at asks
  refine Simple.allGrant_of_each fun one inFewer => ?_
  obtain ⟨other, inWhole, asksOne⟩ :=
    (all_any_attach fun (one : Simple) other => one.asksNoMore other).mp asks one inFewer
  exact ⟨other, inWhole, Simple.grants_of_asksNoMore rfl asksOne⟩
termination_by n
decreasing_by
  have smaller := sizeOf_add_lt inFewer inWhole
  omega

theorem Complex.grants_of_asksNoMore {n : Nat} {fewer whole : Complex}
    (size : n = 2 * (sizeOf fewer + sizeOf whole)) (asks : fewer.asksNoMore whole = true) :
    fewer.Grants whole := by
  rw [Complex.asksNoMore.eq_def, Bool.or_eq_true] at asks
  rcases asks with dead | asks
  · exact Complex.grants_of_isDead dead
  · split at asks
    · exact Complex.grants_compound (Simple.allGrant_of_allAskNoMore rfl asks)
    · exact Complex.grants_last (Simple.allGrant_of_allAskNoMore rfl asks)
    · simp only [Bool.and_eq_true, Bool.or_eq_true, beq_iff_eq] at asks
      obtain ⟨⟨rfl, asksLast⟩, asksLeft⟩ := asks
      refine Complex.grants_combined (Simple.allGrant_of_allAskNoMore rfl asksLast) ?_
      rcases asksLeft with asksLeft | ⟨isDescendant, asksLeft⟩
      · exact .inl (Complex.grants_of_asksNoMore rfl asksLeft)
      · exact .inr ⟨isDescendant, Complex.grantsAround_of_asksAround rfl asksLeft⟩
    · cases asks
termination_by n
decreasing_by
  all_goals
    simp only [Complex.compound.sizeOf_spec, Complex.combined.sizeOf_spec] at size
    omega

theorem Complex.grantsAround_of_asksAround {n : Nat} {fewer whole : Complex}
    (size : n = 2 * (sizeOf fewer + sizeOf whole) + 1) (asks : fewer.asksAround whole = true) :
    fewer.GrantsAround whole := by
  rw [Complex.asksAround.eq_def, Bool.or_eq_true] at asks
  rcases asks with asks | asks
  · exact .of_grants (Complex.grants_of_asksNoMore rfl asks)
  · split at asks
    · exact Complex.grantsAround_combined (Complex.grantsAround_of_asksAround rfl asks)
    · simp only [List.any_eq_true, List.mem_attach, true_and, Subtype.exists] at asks
      obtain ⟨other, inWhole, asksOne⟩ := asks
      exact Complex.grantsAround_compound inWhole
        (Simple.grantsAround_of_asksAround rfl asksOne)
    · cases asks
termination_by n
decreasing_by
  · omega
  · rw [Complex.combined.sizeOf_spec] at size
    omega
  · have smaller := List.sizeOf_lt_of_mem inWhole
    simp only [Complex.compound.sizeOf_spec, List.cons.sizeOf_spec] at size
    omega

theorem Simple.grantsAround_of_asksAround {n : Nat} {fewer whole : Simple}
    (size : n = 2 * (sizeOf fewer + sizeOf whole)) (asks : fewer.asksAround whole = true) :
    fewer.GrantsAround whole := by
  unfold Simple.asksAround at asks
  split at asks
  · refine Simple.grantsAround_anyOf fun other inWhole => ?_
    obtain ⟨one, inFewer, asksOne⟩ :=
      (all_any_attach fun other (one : Complex) => one.asksAround other).mp asks other inWhole
    exact ⟨one, inFewer, Complex.grantsAround_of_asksAround rfl asksOne⟩
  · cases asks
termination_by n
decreasing_by
  have smaller := sizeOf_add_lt inFewer inWhole
  rw [Simple.anyOf.sizeOf_spec, Simple.anyOf.sizeOf_spec] at size
  omega

end

/-! ## Texts -/

theorem mapM_of_conditions {list : SelectorList} {conditions : List Condition}
    (handled : list.conditions = .ok conditions) :
    list.selectors.mapM Complex.wholeCondition = .ok conditions := by
  rw [SelectorList.conditions] at handled
  obtain ⟨given, mapped, handled⟩ := bind_eq_ok handled
  split at handled
  · cases handled
  · cases handled
    exact mapped

theorem not_broken_of_wholeCondition {selector : Complex} {condition : Condition}
    (handled : selector.wholeCondition = .ok condition) : condition.isBroken = false := by
  rw [Complex.wholeCondition] at handled
  obtain ⟨given, -, handled⟩ := bind_eq_ok handled
  cases given with
  | nothing | broken => cases handled
  | never | always | choice => cases handled; rfl

/-- A selector that matches somewhere matches there or further out in normal form, if that can be
handled and asks for no more. -/
theorem matches_of_normalAsksNoMore {selector : String} (only : NormalAsksNoMore selector)
    {places : List Place}
    (closed : ∀ place ∈ places, ∀ other ∈ place.ancestors, other ∈ places)
    {conditions : List Condition} (handled : conditionsOfText selector = .ok conditions)
    (somewhere : matchesSome conditions places = true) :
    ∃ weak, conditionsOfText (normalize selector) = .ok weak ∧ matchesSome weak places = true := by
  cases normal : conditionsOfText (normalize selector) with
  | error failure =>
      have isHandled := only.handled
      rw [normal] at isHandled
      cases isHandled
  | ok weak =>
      refine ⟨weak, rfl, ?_⟩
      obtain ⟨place, inPlaces, holds⟩ := List.any_eq_true.mp somewhere
      obtain ⟨strong, inConditions, holds⟩ := List.any_eq_true.mp holds
      obtain ⟨whole, inWhole, wholeHandled⟩ :=
        (exists_of_mapM (mapM_of_conditions handled)).2 strong inConditions
      obtain ⟨fewer, inFewer, asks⟩ := only.asks whole inWhole
      obtain ⟨given, inWeak, fewerHandled⟩ :=
        (exists_of_mapM (mapM_of_conditions normal)).1 fewer inFewer
      obtain ⟨other, around, found⟩ := Complex.grantsAround_of_asksAround rfl asks given strong
        (condition_of_wholeCondition fewerHandled) (condition_of_wholeCondition wholeHandled)
        place holds
      have there : other ∈ places := by
        rcases List.mem_cons.mp around with rfl | above
        · exact inPlaces
        · exact closed place inPlaces other above
      exact List.any_eq_true.mpr ⟨other, there, List.any_eq_true.mpr ⟨given, inWeak,
        found.holds (not_broken_of_wholeCondition fewerHandled)⟩⟩

end StyleSieve.Selector
