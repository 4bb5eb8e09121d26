import Mathlib.Tactic.ByContra
import StyleSieve.Proofs.Selector.Thinning

/-!
# Whole pseudos

A state pseudo is whole where no other colon stands before it.  This module leaves whole
pseudos out of lists of components, and tells how lists are read for that.
-/

namespace StyleSieve.Selector

open Css

variable {ι : Type} (view : ι → Component)

/-- The number of components of the whole state pseudo that a list starts with, zero if it
starts with none. -/
def wholePseudoLength (afterColon : Bool) (items : List ι) : Nat :=
  if afterColon then 0 else statePseudoLength view items

/-- The components after the first `skip` ones without the whole state pseudos among them. -/
def withoutWholePseudos (afterColon : Bool) (skip : Nat) : List ι → List ι
  | [] => []
  | first :: rest =>
      match skip with
      | skip + 1 => withoutWholePseudos afterColon skip rest
      | 0 =>
          match wholePseudoLength view afterColon (first :: rest) with
          | length + 1 => withoutWholePseudos false length rest
          | 0 => first :: withoutWholePseudos ((view first).isDelim ":") 0 rest

/-- Whether the last component is a colon, where `afterColon` tells it before the list. -/
def endsInColon (afterColon : Bool) (items : List ι) : Bool :=
  items.foldl (fun _ item => (view item).isDelim ":") afterColon

theorem withoutWholePseudos_skip (afterColon : Bool) (skip : Nat) (items : List ι) :
    withoutWholePseudos view afterColon skip items =
      withoutWholePseudos view afterColon 0 (items.drop skip) := by
  induction items generalizing skip with
  | nil => simp [withoutWholePseudos]
  | cons first rest ih =>
      cases skip with
      | zero => rfl
      | succ skip => rw [withoutWholePseudos, ih, List.drop_succ_cons]

theorem withoutWholePseudos_cons {afterColon : Bool} {first : ι} {rest : List ι}
    (noPseudo : wholePseudoLength view afterColon (first :: rest) = 0) :
    withoutWholePseudos view afterColon 0 (first :: rest) =
      first :: withoutWholePseudos view ((view first).isDelim ":") 0 rest := by
  rw [withoutWholePseudos, noPseudo]

/-- Components among which no state pseudo starts are kept. -/
theorem withoutWholePseudos_append {taken more : List ι}
    (noPseudo : ∀ front back, taken = front ++ back → back ≠ [] →
      statePseudoLength view (back ++ more) = 0) (afterColon : Bool) :
    withoutWholePseudos view afterColon 0 (taken ++ more) =
      taken ++ withoutWholePseudos view (endsInColon view afterColon taken) 0 more := by
  induction taken generalizing afterColon with
  | nil => rfl
  | cons first rest ih =>
      have here : wholePseudoLength view afterColon (first :: (rest ++ more)) = 0 := by
        rw [wholePseudoLength]
        split
        · rfl
        · exact noPseudo [] (first :: rest) rfl (List.cons_ne_nil _ _)
      rw [List.cons_append, withoutWholePseudos_cons view here, ih]
      · rfl
      · exact fun front back split => noPseudo (first :: front) back (congrArg (first :: ·) split)

theorem endsInColon_of_last {items : List ι}
    (notColon : ∀ item ∈ items.getLast?, (view item).isDelim ":" = false) :
    endsInColon view false items = false := by
  rcases List.eq_nil_or_concat items with rfl | ⟨front, last, rfl⟩
  · rfl
  · rw [List.concat_eq_append] at notColon ⊢
    rw [endsInColon, List.foldl_append]
    exact notColon last List.getLast?_concat

/-- Components that are one colon and the name of a class, or two colons and the name of an
element. -/
inductive StatePseudo : List ι → Prop where
  | ofClass {colon name : ι} : (view colon).isDelim ":" = true →
      isOneOfWords stateClasses (view name) = true → StatePseudo [colon, name]
  | ofElement {first second name : ι} : (view first).isDelim ":" = true →
      (view second).isDelim ":" = true → isOneOfWords stateElements (view name) = true →
      StatePseudo [first, second, name]

variable {view}

/-- A list starts with a state pseudo where its components are found. -/
theorem StatePseudo.length {pseudo : List ι} (isPseudo : StatePseudo view pseudo)
    (rest : List ι) : statePseudoLength view (pseudo ++ rest) = pseudo.length := by
  cases isPseudo with
  | ofClass isColon isClass =>
      rw [List.cons_append, List.cons_append, statePseudoLength, if_pos isColon, if_pos isClass]
      rfl
  | @ofElement first second name isColon isSecond isElement =>
      have noClass : isOneOfWords stateClasses (view second) = false := by
        obtain ⟨offset, colon⟩ := isDelim_iff.1 isSecond
        rw [colon]
        rfl
      rw [List.cons_append, List.cons_append, List.cons_append, statePseudoLength,
        if_pos isColon, noClass, if_neg Bool.false_ne_true, isSecond, List.head?_cons,
        Option.map_some, Option.any_some, isElement]
      rfl

/-- The components of the state pseudo that a list starts with. -/
theorem exists_statePseudo {items : List ι} (starts : statePseudoLength view items ≠ 0) :
    ∃ pseudo rest, items = pseudo ++ rest ∧ StatePseudo view pseudo := by
  unfold statePseudoLength at starts
  split at starts
  · rename_i first second rest
    split at starts
    · rename_i isColon
      split at starts
      · rename_i isClass
        exact ⟨[first, second], rest, rfl, .ofClass isColon isClass⟩
      · split at starts
        · rename_i isElement
          rw [Bool.and_eq_true] at isElement
          cases rest with
          | nil => cases isElement.2
          | cons third more =>
              exact ⟨[first, second, third], more, rfl, .ofElement isColon isElement.1 isElement.2⟩
        · exact absurd rfl starts
    · exact absurd rfl starts
  · exact absurd rfl starts

theorem withoutWholePseudos_statePseudo {pseudo : List ι} (isPseudo : StatePseudo view pseudo)
    (rest : List ι) :
    withoutWholePseudos view false 0 (pseudo ++ rest) = withoutWholePseudos view false 0 rest := by
  have starts := isPseudo.length rest
  cases pseudo with
  | nil => cases isPseudo
  | cons first others =>
      rw [List.cons_append] at starts ⊢
      have isWhole : wholePseudoLength view false (first :: (others ++ rest)) =
          others.length + 1 := starts
      rw [withoutWholePseudos, isWhole]
      dsimp only
      rw [withoutWholePseudos_skip, List.drop_left]

theorem statePseudo_map {κ : Type} {image : κ → ι} {items : List κ} :
    StatePseudo view (items.map image) ↔ StatePseudo (fun item => view (image item)) items := by
  constructor
  · intro isPseudo
    generalize shape : items.map image = images at isPseudo
    cases isPseudo with
    | ofClass isColon isClass =>
        obtain ⟨colon, _, rfl, rfl, others⟩ := List.map_eq_cons_iff.1 shape
        obtain ⟨name, _, rfl, rfl, nothing⟩ := List.map_eq_cons_iff.1 others
        rw [List.map_eq_nil_iff.1 nothing]
        exact .ofClass isColon isClass
    | ofElement isColon isSecond isElement =>
        obtain ⟨first, _, rfl, rfl, others⟩ := List.map_eq_cons_iff.1 shape
        obtain ⟨second, _, rfl, rfl, last⟩ := List.map_eq_cons_iff.1 others
        obtain ⟨name, _, rfl, rfl, nothing⟩ := List.map_eq_cons_iff.1 last
        rw [List.map_eq_nil_iff.1 nothing]
        exact .ofElement isColon isSecond isElement
  · intro isPseudo
    cases isPseudo with
    | ofClass isColon isClass => exact .ofClass isColon isClass
    | ofElement isColon isSecond isElement => exact .ofElement isColon isSecond isElement

/-- Whether a list is empty or starts with a component that belongs to no state pseudo. -/
def StartsApart (view : ι → Component) (items : List ι) : Prop :=
  ∀ item ∈ items.head?, ∀ pseudo, StatePseudo view pseudo → item ∉ pseudo

/-- A state pseudo that starts in a list does not reach into what stands apart from it. -/
theorem statePseudoLength_of_append {items more : List ι} (apart : StartsApart view more)
    (starts : statePseudoLength view (items ++ more) ≠ 0) :
    statePseudoLength view items ≠ 0 := by
  obtain ⟨pseudo, rest, split, isPseudo⟩ := exists_statePseudo starts
  rcases List.append_eq_append_iff.1 split with ⟨reach, rfl, rfl⟩ | ⟨others, rfl, _⟩
  · cases reach with
    | nil =>
        rw [List.append_nil] at isPseudo
        have length := isPseudo.length []
        rw [List.append_nil] at length
        rw [length]
        cases isPseudo <;> exact Nat.succ_ne_zero _
    | cons item reach =>
        exact absurd (List.mem_append_right items List.mem_cons_self) (apart item rfl _ isPseudo)
  · rw [isPseudo.length others]
    cases isPseudo <;> exact Nat.succ_ne_zero _

theorem wholePseudoLength_of_apart {items : List ι} (apart : StartsApart view items)
    (afterColon : Bool) : wholePseudoLength view afterColon items = 0 := by
  have noPseudo : statePseudoLength view items = 0 := by
    by_contra starts
    have inNothing : statePseudoLength view [] ≠ 0 := statePseudoLength_of_append apart starts
    exact inNothing rfl
  rw [wholePseudoLength, noPseudo, ite_self]

/-- Induction over a list as its whole pseudos are left out: a component is kept, or a whole
pseudo is dropped. -/
theorem withoutWholePseudos_induction (view : ι → Component) {motive : Bool → List ι → Prop}
    (nil : ∀ afterColon, motive afterColon [])
    (keep : ∀ afterColon first rest, wholePseudoLength view afterColon (first :: rest) = 0 →
      motive ((view first).isDelim ":") rest → motive afterColon (first :: rest))
    (drop : ∀ pseudo rest, StatePseudo view pseudo → motive false rest →
      motive false (pseudo ++ rest))
    (afterColon : Bool) (items : List ι) : motive afterColon items := by
  induction length : items.length using Nat.strongRecOn generalizing afterColon items with
  | ind n ih =>
      subst length
      cases items with
      | nil => exact nil afterColon
      | cons first rest =>
          by_cases noPseudo : wholePseudoLength view afterColon (first :: rest) = 0
          · exact keep _ _ _ noPseudo (ih _ (Nat.lt_succ_self _) _ _ rfl)
          · rw [wholePseudoLength] at noPseudo
            split at noPseudo
            · exact absurd rfl noPseudo
            · rename_i before
              obtain ⟨pseudo, others, split, isPseudo⟩ := exists_statePseudo noPseudo
              rw [Bool.not_eq_true] at before
              rw [split, before]
              refine drop pseudo others isPseudo (ih _ ?_ _ _ rfl)
              rw [split, List.length_append]
              cases isPseudo <;> simp

/-- A list and what stands apart from it lose their whole pseudos one by one. -/
theorem withoutWholePseudos_append_apart {items more : List ι} (apart : StartsApart view more)
    (afterColon : Bool) :
    withoutWholePseudos view afterColon 0 (items ++ more) =
      withoutWholePseudos view afterColon 0 items ++ withoutWholePseudos view false 0 more := by
  induction afterColon, items using withoutWholePseudos_induction view with
  | nil afterColon =>
      rw [List.nil_append, withoutWholePseudos, List.nil_append]
      cases more with
      | nil => rfl
      | cons first rest =>
          have noPseudo := wholePseudoLength_of_apart apart
          rw [withoutWholePseudos_cons view (noPseudo afterColon),
            withoutWholePseudos_cons view (noPseudo false)]
  | keep afterColon first rest noPseudo ih =>
      have here : wholePseudoLength view afterColon (first :: (rest ++ more)) = 0 := by
        rw [wholePseudoLength] at noPseudo ⊢
        split at noPseudo
        · exact if_pos ‹_›
        · rw [if_neg ‹_›]
          by_contra starts
          exact statePseudoLength_of_append apart starts noPseudo
      rw [List.cons_append, withoutWholePseudos_cons view here, ih,
        withoutWholePseudos_cons view noPseudo, List.cons_append]
  | drop pseudo rest isPseudo ih =>
      rw [List.append_assoc, withoutWholePseudos_statePseudo isPseudo, ih,
        withoutWholePseudos_statePseudo isPseudo]

end StyleSieve.Selector
