import StyleSieve.Selector.Matching
import StyleSieve.Selector.Normal

/-!
# What selectors ask for

The normal form of a selector may be read as a selector that asks for less.  This module compares
selectors by their structure: which of two conditions, compound selectors or chains asks for no more
than the other one, so that it holds wherever the other one does, or holds there or further out.
-/

namespace StyleSieve.Selector

/-! ## Selectors that are the same -/

mutual

/-- Whether two conditions on one element are the same. -/
def Simple.same : Simple → Simple → Bool
  | .type name, .type name' => name == name'
  | .noNamespace, .noNamespace => true
  | .id name, .id name' => name == name'
  | .className name, .className name' => name == name'
  | .attribute test, .attribute test' => test == test'
  | .pseudoClass name, .pseudoClass name' => name == name'
  | .function name arguments hasOf among failure,
      .function name' arguments' hasOf' among' failure' =>
      name == name' && arguments == arguments' && hasOf == hasOf' &&
        Complex.allSame among among' && failure == failure'
  | .not selectors, .not selectors' => Complex.allSame selectors selectors'
  | .anyOf selectors, .anyOf selectors' => Complex.allSame selectors selectors'
  | .has selectors, .has selectors' => Relative.allSame selectors selectors'
  | _, _ => false

/-- Whether two compound selectors are the same. -/
def Simple.allSame : List Simple → List Simple → Bool
  | [], [] => true
  | simple :: rest, simple' :: rest' => simple.same simple' && Simple.allSame rest rest'
  | _, _ => false

/-- Whether two chains of compound selectors are the same. -/
def Complex.same : Complex → Complex → Bool
  | .compound simples, .compound simples' => Simple.allSame simples simples'
  | .combined left combinator right, .combined left' combinator' right' =>
      left.same left' && combinator == combinator' && Simple.allSame right right'
  | _, _ => false

/-- Whether two lists of selectors are the same. -/
def Complex.allSame : List Complex → List Complex → Bool
  | [], [] => true
  | selector :: rest, selector' :: rest' => selector.same selector' && Complex.allSame rest rest'
  | _, _ => false

/-- Whether two relative selectors are the same. -/
def Relative.same : Relative → Relative → Bool
  | .mk combinator selector, .mk combinator' selector' =>
      combinator == combinator' && selector.same selector'

/-- Whether two lists of relative selectors are the same. -/
def Relative.allSame : List Relative → List Relative → Bool
  | [], [] => true
  | relative :: rest, relative' :: rest' => relative.same relative' && Relative.allSame rest rest'
  | _, _ => false

end

mutual

theorem Simple.eq_of_same {first second : Simple} (isSame : first.same second = true) :
    first = second := by
  cases first <;> cases second <;>
    simp only [Simple.same, Bool.false_eq_true, Bool.and_eq_true, beq_iff_eq] at isSame
  case noNamespace.noNamespace => rfl
  case function.function among failure _ _ _ among' failure' =>
    obtain ⟨⟨⟨⟨rfl, rfl⟩, rfl⟩, sameAmong⟩, rfl⟩ := isSame
    rw [Complex.eq_of_allSame sameAmong]
  case not.not | anyOf.anyOf => rw [Complex.eq_of_allSame isSame]
  case has.has => rw [Relative.eq_of_allSame isSame]
  all_goals rw [isSame]
termination_by structural first

theorem Simple.eq_of_allSame {first second : List Simple}
    (isSame : Simple.allSame first second = true) : first = second := by
  cases first <;> cases second <;>
    simp only [Simple.allSame, Bool.false_eq_true, Bool.and_eq_true] at isSame
  case nil.nil => rfl
  case cons.cons => rw [Simple.eq_of_same isSame.1, Simple.eq_of_allSame isSame.2]
termination_by structural first

theorem Complex.eq_of_same {first second : Complex} (isSame : first.same second = true) :
    first = second := by
  cases first <;> cases second <;>
    simp only [Complex.same, Bool.false_eq_true, Bool.and_eq_true, beq_iff_eq] at isSame
  case compound.compound => rw [Simple.eq_of_allSame isSame]
  case combined.combined =>
    rw [Complex.eq_of_same isSame.1.1, isSame.1.2, Simple.eq_of_allSame isSame.2]
termination_by structural first

theorem Complex.eq_of_allSame {first second : List Complex}
    (isSame : Complex.allSame first second = true) : first = second := by
  cases first <;> cases second <;>
    simp only [Complex.allSame, Bool.false_eq_true, Bool.and_eq_true] at isSame
  case nil.nil => rfl
  case cons.cons => rw [Complex.eq_of_same isSame.1, Complex.eq_of_allSame isSame.2]
termination_by structural first

theorem Relative.eq_of_same {first second : Relative} (isSame : first.same second = true) :
    first = second := by
  cases first
  cases second
  simp only [Relative.same, Bool.and_eq_true, beq_iff_eq] at isSame
  rw [isSame.1, Complex.eq_of_same isSame.2]
termination_by structural first

theorem Relative.eq_of_allSame {first second : List Relative}
    (isSame : Relative.allSame first second = true) : first = second := by
  cases first <;> cases second <;>
    simp only [Relative.allSame, Bool.false_eq_true, Bool.and_eq_true] at isSame
  case nil.nil => rfl
  case cons.cons => rw [Relative.eq_of_same isSame.1, Relative.eq_of_allSame isSame.2]
termination_by structural first

end

/-! ## Selectors that hold nowhere -/

mutual

/-- Whether a condition can be told to hold nowhere: no fixed document decides it, or it asks
for one of several selectors that hold nowhere. -/
def Simple.isDead : Simple → Bool
  | .pseudoClass name => dynamicPseudos.contains (nameText name)
  | .anyOf selectors => Complex.areDead selectors
  | _ => false

/-- Whether one of some conditions can be told to hold nowhere. -/
def Simple.hasDead : List Simple → Bool
  | [] => false
  | simple :: rest => simple.isDead || Simple.hasDead rest

/-- Whether a chain can be told to hold nowhere. -/
def Complex.isDead : Complex → Bool
  | .compound simples => Simple.hasDead simples
  | .combined left _ right => left.isDead || Simple.hasDead right

/-- Whether all of some selectors can be told to hold nowhere. -/
def Complex.areDead : List Complex → Bool
  | [] => true
  | selector :: rest => selector.isDead && Complex.areDead rest

end

/-! ## Selectors that ask for no more -/

/-- Whether a selector asks for nothing. -/
def Complex.isAny : Complex → Bool
  | .compound [] => true
  | _ => false

theorem sizeOf_add_lt {α β : Type} [SizeOf α] [SizeOf β] {one : α} {other : β} {fewer : List α}
    {whole : List β} (inFewer : one ∈ fewer) (inWhole : other ∈ whole) :
    sizeOf one + sizeOf other < sizeOf fewer + sizeOf whole :=
  Nat.add_lt_add (List.sizeOf_lt_of_mem inFewer) (List.sizeOf_lt_of_mem inWhole)

mutual

/-- Whether a condition asks for no more than another one.  A choice has to offer something for
all that the other one offers; what is forbidden has to be forbidden by the other one as
well. -/
def Simple.asksNoMore (fewer whole : Simple) : Bool :=
  match fewer, whole with
  | .anyOf fewer, .anyOf whole =>
      whole.attach.all fun ⟨other, _⟩ => fewer.attach.any fun ⟨one, _⟩ => one.asksNoMore other
  | .has fewer, .has whole =>
      whole.attach.all fun ⟨other, _⟩ => fewer.attach.any fun ⟨one, _⟩ => one.asksNoMore other
  | .not fewer, .not whole => Complex.eachAsksNoMore whole fewer
  | fewer, whole => fewer.same whole
termination_by 2 * (sizeOf fewer + sizeOf whole)
decreasing_by
  · have smaller := sizeOf_add_lt ‹one ∈ _› ‹other ∈ _›
    simp only [Simple.anyOf.sizeOf_spec]
    omega
  · have smaller := sizeOf_add_lt ‹one ∈ _› ‹other ∈ _›
    simp only [Simple.has.sizeOf_spec]
    omega
  · simp only [Simple.not.sizeOf_spec]
    omega

/-- Whether a compound selector asks for no more than another one: each of its conditions
asks for no more than one of the other ones. -/
def Simple.allAskNoMore (fewer whole : List Simple) : Bool :=
  fewer.attach.all fun ⟨one, _⟩ => whole.attach.any fun ⟨other, _⟩ => one.asksNoMore other
termination_by 2 * (sizeOf fewer + sizeOf whole)
decreasing_by
  have smaller := sizeOf_add_lt ‹one ∈ _› ‹other ∈ _›
  omega

/-- Whether a chain asks for no more than another one.  A compound selector at its start may be
missing, and so may one that another one encloses. -/
def Complex.asksNoMore (fewer whole : Complex) : Bool :=
  whole.isDead ||
  match fewer, whole with
  | .compound fewer, .compound whole => Simple.allAskNoMore fewer whole
  | .compound fewer, .combined _ _ whole => Simple.allAskNoMore fewer whole
  | .combined left combinator fewer, .combined left' combinator' whole =>
      combinator == combinator' && Simple.allAskNoMore fewer whole &&
        (left.asksNoMore left' || combinator == .descendant && left.asksAround left')
  | .combined .., .compound _ => false
termination_by 2 * (sizeOf fewer + sizeOf whole)

/-- Whether each of some selectors asks for no more than the one with which it is paired, and
asks for nothing just if that does. -/
def Complex.eachAsksNoMore (fewer whole : List Complex) : Bool :=
  match fewer, whole with
  | [], [] => true
  | one :: more, other :: others =>
      one.asksNoMore other && one.isAny == other.isAny && Complex.eachAsksNoMore more others
  | _, _ => false
termination_by 2 * (sizeOf fewer + sizeOf whole)

/-- Whether a relative selector asks for no more than another one. -/
def Relative.asksNoMore (fewer whole : Relative) : Bool :=
  match fewer, whole with
  | .mk combinator fewer, .mk combinator' whole =>
      combinator == combinator' && fewer.asksNoMore whole
termination_by 2 * (sizeOf fewer + sizeOf whole)

/-- Whether a chain asks at a place or further out for no more than another one asks for at
that place.  A compound selector at its end may be missing, if another one encloses it. -/
def Complex.asksAround (fewer whole : Complex) : Bool :=
  fewer.asksNoMore whole ||
  match fewer, whole with
  | fewer, .combined left .descendant _ => fewer.asksAround left
  | .compound [one], .compound whole => whole.attach.any fun ⟨other, _⟩ => one.asksAround other
  | _, _ => false
termination_by 2 * (sizeOf fewer + sizeOf whole) + 1
decreasing_by
  · omega
  · simp only [Complex.combined.sizeOf_spec]
    omega
  · have smaller := List.sizeOf_lt_of_mem ‹other ∈ _›
    simp only [Complex.compound.sizeOf_spec, List.cons.sizeOf_spec]
    omega

/-- Whether a condition asks at a place or further out for no more than another one asks for at
that place. -/
def Simple.asksAround (fewer whole : Simple) : Bool :=
  match fewer, whole with
  | .anyOf fewer, .anyOf whole =>
      whole.attach.all fun ⟨other, _⟩ => fewer.attach.any fun ⟨one, _⟩ => one.asksAround other
  | _, _ => false
termination_by 2 * (sizeOf fewer + sizeOf whole)
decreasing_by
  have smaller := sizeOf_add_lt ‹one ∈ _› ‹other ∈ _›
  simp only [Simple.anyOf.sizeOf_spec]
  omega

end

/-! ### What is compared -/

theorem all_any_attach {α β : Type} {firsts : List α} {seconds : List β} (test : α → β → Bool) :
    (firsts.attach.all fun ⟨first, _⟩ => seconds.attach.any fun ⟨second, _⟩ =>
        test first second) = true ↔
      ∀ first ∈ firsts, ∃ second ∈ seconds, test first second = true := by
  simp

/-- What is asked of several selectors by pairs. -/
theorem Complex.exists_of_eachAsksNoMore {fewer whole : List Complex}
    (asks : Complex.eachAsksNoMore fewer whole = true) :
    (∀ one ∈ fewer, ∃ other ∈ whole, one.isAny = other.isAny) ∧
      ∀ other ∈ whole, ∃ one ∈ fewer,
        one.asksNoMore other = true ∧ one.isAny = other.isAny := by
  induction fewer generalizing whole with
  | nil =>
      cases whole with
      | nil => exact ⟨nofun, nofun⟩
      | cons other others => rw [Complex.eachAsksNoMore] at asks; cases asks; all_goals nofun
  | cons one more ih =>
      cases whole with
      | nil => rw [Complex.eachAsksNoMore] at asks; cases asks; all_goals nofun
      | cons other others =>
          simp only [Complex.eachAsksNoMore, Bool.and_eq_true, beq_iff_eq] at asks
          obtain ⟨⟨first, same⟩, rest⟩ := asks
          obtain ⟨alike, covered⟩ := ih rest
          rw [List.forall_mem_cons, List.forall_mem_cons]
          refine ⟨⟨⟨other, List.mem_cons_self, same⟩, fun found among => ?_⟩,
            ⟨one, List.mem_cons_self, first, same⟩, fun found among => ?_⟩
          · obtain ⟨like, inOthers, isAlike⟩ := alike found among
            exact ⟨like, List.mem_cons_of_mem _ inOthers, isAlike⟩
          · obtain ⟨like, inMore, isCovered⟩ := covered found among
            exact ⟨like, List.mem_cons_of_mem _ inMore, isCovered⟩

/-! ## Normal forms -/

/-- The selectors that can be handled in normal form and ask for no more then: for each selector
that is spelled, the normal form spells one that asks for no more there or further out. -/
structure NormalAsksNoMore (selector : String) : Prop where
  handled : (conditionsOfText (normalize selector)).isOk = true
  asks : ∀ whole ∈ (SelectorList.parse selector).selectors,
    ∃ fewer ∈ (SelectorList.parse (normalize selector)).selectors,
      fewer.asksAround whole = true

theorem normalAsksNoMore_iff {selector : String} :
    NormalAsksNoMore selector ↔
      (conditionsOfText (normalize selector)).isOk = true ∧
        ∀ whole ∈ (SelectorList.parse selector).selectors,
          ∃ fewer ∈ (SelectorList.parse (normalize selector)).selectors,
            fewer.asksAround whole = true :=
  ⟨fun only => ⟨only.handled, only.asks⟩, fun parts => ⟨parts.1, parts.2⟩⟩

instance (selector : String) : Decidable (NormalAsksNoMore selector) :=
  decidable_of_iff' _ normalAsksNoMore_iff

end StyleSieve.Selector
