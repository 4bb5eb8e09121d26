import StyleSieve.Proofs.Sheet.Pruning

/-!
# Deleting empty rules

A style rule without selectors is an empty shell, and so is a media rule around nothing
but empty shells.  Deleting the empty rules deletes these and nothing else: what is left is
the largest part of the rules in which no rule is empty.
-/

namespace StyleSieve.Rule

mutual

/-- A rule is a part of another one, if it has some of its selectors or of the rules in it,
in their order, under the same condition and with the same declarations. -/
inductive PartOf : Rule → Rule → Prop
  | style {kept selectors : List String} (declarations : List String)
      (fewer : kept.Sublist selectors) :
      PartOf (.style kept declarations) (.style selectors declarations)
  | media {kept rules : List Rule} (condition : String) (inner : PartsOf kept rules) :
      PartOf (.media condition kept) (.media condition rules)
  | verbatim (text : String) : PartOf (.verbatim text) (.verbatim text)

/-- Rules that are parts of some of other rules, in their order. -/
inductive PartsOf : List Rule → List Rule → Prop
  | nil : PartsOf [] []
  | keep {kept rule : Rule} {more rest : List Rule} (first : PartOf kept rule)
      (later : PartsOf more rest) : PartsOf (kept :: more) (rule :: rest)
  | drop {kept rest : List Rule} (rule : Rule) (later : PartsOf kept rest) :
      PartsOf kept (rule :: rest)

end

/-- A style rule where it stands: the conditions of the media rules around it, outermost
first, and what is in it. -/
structure PlacedStyle where
  conditions : List String
  selectors : List String
  declarations : List String
  deriving DecidableEq, Repr

mutual

/-- The style rules in a rule inside the given conditions. -/
def styles (conditions : List String) : Rule → List PlacedStyle
  | .style selectors declarations => [⟨conditions, selectors, declarations⟩]
  | .media condition rules => stylesIn (conditions ++ [condition]) rules
  | .verbatim _ => []

/-- The style rules in some rules, in order. -/
def stylesIn (conditions : List String) : List Rule → List PlacedStyle
  | [] => []
  | rule :: rest => rule.styles conditions ++ stylesIn conditions rest

end

/-! ## What is left -/

/-- Deleting empty rules is sifting by no condition. -/
theorem pruneAll_eq_siftAll (rules : List Rule) : pruneAll rules = siftAll (fun _ => true) rules := by
  rw [← pruneAll_restrictAll, restrictAll_true]

theorem areFilled_pruneAll (rules : List Rule) : areFilled (pruneAll rules) = true := by
  rw [pruneAll_eq_siftAll, areFilled_siftAll]

theorem verbatimsIn_pruneAll (conditions : List String) (rules : List Rule) :
    verbatimsIn conditions (pruneAll rules) = verbatimsIn conditions rules := by
  rw [pruneAll_eq_siftAll, verbatimsIn_siftAll]

theorem stylesIn_append (conditions : List String) (first second : List Rule) :
    stylesIn conditions (first ++ second) =
      stylesIn conditions first ++ stylesIn conditions second := by
  induction first with
  | nil => rfl
  | cons rule rest ih => simp only [List.cons_append, stylesIn, ih, List.append_assoc]

mutual

theorem stylesIn_prune? (conditions : List String) (rule : Rule) :
    stylesIn conditions rule.prune?.toList =
      (rule.styles conditions).filter (!·.selectors.isEmpty) := by
  cases rule with
  | style selectors declarations =>
      cases selectors with
      | nil => rfl
      | cons selector more => rfl
  | media condition rules =>
      have inner := stylesIn_pruneAll (conditions ++ [condition]) rules
      rw [prune?_media, styles, ← inner]
      split
      · rename_i nothing
        rw [List.isEmpty_iff.1 nothing]
        rfl
      · simp [stylesIn, styles]
  | verbatim text => rfl

/-- The style rules that are left are those with selectors, unchanged and where they
stood. -/
theorem stylesIn_pruneAll (conditions : List String) (rules : List Rule) :
    stylesIn conditions (pruneAll rules) =
      (stylesIn conditions rules).filter (!·.selectors.isEmpty) := by
  cases rules with
  | nil => rfl
  | cons rule rest =>
      rw [pruneAll_cons, stylesIn_append, stylesIn_prune? conditions rule,
        stylesIn_pruneAll conditions rest, stylesIn, List.filter_append]

end

mutual

theorem selectors_eq_flatMap (conditions : List String) (rule : Rule) :
    rule.selectors = (rule.styles conditions).flatMap PlacedStyle.selectors := by
  cases rule with
  | style given declarations => exact (List.flatMap_singleton _ _).symm
  | media condition rules =>
      exact selectorsOf_eq_flatMap (conditions ++ [condition]) rules
  | verbatim text => rfl

/-- The selectors of rules are those of the style rules in them. -/
theorem selectorsOf_eq_flatMap (conditions : List String) (rules : List Rule) :
    selectorsOf rules = (stylesIn conditions rules).flatMap PlacedStyle.selectors := by
  cases rules with
  | nil => rfl
  | cons rule rest =>
      rw [selectorsOf, stylesIn, List.flatMap_append, selectors_eq_flatMap conditions rule,
        selectorsOf_eq_flatMap conditions rest]

end

/-- Style rules without selectors contribute none. -/
theorem flatMap_selectors_filter (placed : List PlacedStyle) :
    (placed.filter (!·.selectors.isEmpty)).flatMap PlacedStyle.selectors =
      placed.flatMap PlacedStyle.selectors := by
  induction placed with
  | nil => rfl
  | cons style rest ih =>
      obtain ⟨conditions, selectors, declarations⟩ := style
      cases selectors with
      | nil => exact ih
      | cons selector more =>
          rw [List.filter_cons_of_pos rfl, List.flatMap_cons, List.flatMap_cons, ih]

theorem selectorsOf_pruneAll (rules : List Rule) :
    selectorsOf (pruneAll rules) = selectorsOf rules := by
  rw [selectorsOf_eq_flatMap [], stylesIn_pruneAll, flatMap_selectors_filter,
    ← selectorsOf_eq_flatMap]

mutual

theorem prune?_of_isFilled {rule : Rule} (filled : rule.isFilled = true) :
    rule.prune? = some rule := by
  cases rule with
  | style selectors declarations =>
      cases selectors with
      | nil => exact absurd filled Bool.false_ne_true
      | cons selector more => rfl
  | media condition rules =>
      rw [isFilled, Bool.and_eq_true, Bool.not_eq_true'] at filled
      rw [prune?_media, pruneAll_of_areFilled filled.2, filled.1]
      rfl
  | verbatim text => rfl

/-- Where no rule is empty none is deleted. -/
theorem pruneAll_of_areFilled {rules : List Rule} (filled : areFilled rules = true) :
    pruneAll rules = rules := by
  cases rules with
  | nil => rfl
  | cons rule rest =>
      rw [areFilled, Bool.and_eq_true] at filled
      rw [pruneAll_cons, prune?_of_isFilled filled.1, pruneAll_of_areFilled filled.2]
      rfl

end

theorem pruneAll_eq_self_iff (rules : List Rule) :
    pruneAll rules = rules ↔ areFilled rules = true := by
  constructor
  · intro same
    rw [← same, areFilled_pruneAll]
  · exact pruneAll_of_areFilled

/-! ## The largest part -/

mutual

theorem partOf_prune? {rule kept : Rule} (left : rule.prune? = some kept) :
    kept.PartOf rule := by
  cases rule with
  | style selectors declarations =>
      rw [prune?_style] at left
      split at left
      · exact absurd left nofun
      · cases left
        exact .style declarations (List.Sublist.refl selectors)
  | media condition rules =>
      rw [prune?_media] at left
      split at left
      · exact absurd left nofun
      · cases left
        exact .media condition (partsOf_pruneAll rules)
  | verbatim text =>
      cases left
      exact .verbatim text

/-- What is left of some rules is a part of them. -/
theorem partsOf_pruneAll (rules : List Rule) : PartsOf (pruneAll rules) rules := by
  cases rules with
  | nil => exact .nil
  | cons rule rest =>
      have later := partsOf_pruneAll rest
      rw [pruneAll_cons]
      cases left : rule.prune? with
      | none => exact .drop rule later
      | some kept => exact .keep (partOf_prune? left) later

end

mutual

theorem PartOf.prune? {part rule : Rule} (within : part.PartOf rule)
    (filled : part.isFilled = true) : ∃ kept, rule.prune? = some kept ∧ part.PartOf kept := by
  cases within with
  | @style kept selectors declarations fewer =>
      have nonempty : selectors.isEmpty = false := by
        rw [isFilled, Bool.not_eq_true'] at filled
        cases selectors with
        | nil => rw [List.sublist_nil.1 fewer] at filled; exact filled
        | cons => rfl
      rw [prune?_style, nonempty]
      exact ⟨_, rfl, .style declarations fewer⟩
  | @media kept rules condition inner =>
      rw [isFilled, Bool.and_eq_true, Bool.not_eq_true'] at filled
      have within := inner.pruneAll filled.2
      have nonempty : (Rule.pruneAll rules).isEmpty = false := by
        cases left : Rule.pruneAll rules with
        | nil =>
            rw [left] at within
            cases within
            exact filled.1
        | cons => rfl
      rw [prune?_media, nonempty]
      exact ⟨_, rfl, .media condition within⟩
  | verbatim text => exact ⟨_, rfl, .verbatim text⟩

/-- A part without empty rules is a part of what is left. -/
theorem PartsOf.pruneAll {part rules : List Rule} (within : PartsOf part rules)
    (filled : areFilled part = true) : PartsOf part (Rule.pruneAll rules) := by
  cases within with
  | nil => exact .nil
  | keep first later =>
      rw [areFilled, Bool.and_eq_true] at filled
      obtain ⟨left, isLeft, firstWithin⟩ := first.prune? filled.1
      rw [pruneAll_cons, isLeft]
      exact .keep firstWithin (later.pruneAll filled.2)
  | drop rule later =>
      rw [pruneAll_cons]
      cases rule.prune? with
      | none => exact later.pruneAll filled
      | some left => exact .drop left (later.pruneAll filled)

end

/-- What is left of rules when the empty ones are deleted is the largest part of them in
which no rule is empty.  It has all their selectors and verbatim rules, and their style
rules with selectors, unchanged; and it is all of them only where no rule is empty. -/
theorem pruneAll_isLargest (rules : List Rule) :
    areFilled (pruneAll rules) = true ∧
      PartsOf (pruneAll rules) rules ∧
      (∀ part, PartsOf part rules → areFilled part = true → PartsOf part (pruneAll rules)) ∧
      selectorsOf (pruneAll rules) = selectorsOf rules ∧
      verbatimsIn [] (pruneAll rules) = verbatimsIn [] rules ∧
      stylesIn [] (pruneAll rules) = (stylesIn [] rules).filter (!·.selectors.isEmpty) ∧
      (pruneAll rules = rules ↔ areFilled rules = true) :=
  ⟨areFilled_pruneAll rules, partsOf_pruneAll rules,
    fun _ within filled => within.pruneAll filled, selectorsOf_pruneAll rules,
    verbatimsIn_pruneAll [] rules, stylesIn_pruneAll [] rules, pruneAll_eq_self_iff rules⟩

/-- A verbatim rule between shells stays, and with it the media rules around it. -/
theorem pruneAll_isLargest_nested :
    let rules : List Rule := [.media "print" [.media "tv" [.style [] ["a: b"]],
      .media "screen" [.style [] [], .verbatim "@c;"]], .style [".d", ".e"] []]
    let part : List Rule := [.media "print" [.media "screen" [.verbatim "@c;"]], .style [".e"] []]
    PartsOf part rules ∧ areFilled part = true ∧ PartsOf part (pruneAll rules) ∧
      pruneAll rules =
        [.media "print" [.media "screen" [.verbatim "@c;"]], .style [".d", ".e"] []] := by
  intro rules part
  have within : PartsOf part rules :=
    .keep (.media _ (.drop _ (.keep (.media _ (.drop _ (.keep (.verbatim _) .nil))) .nil)))
      (.keep (.style _ (.cons _ (.refl _))) .nil)
  have filled : areFilled part = true := rfl
  exact ⟨within, filled, (pruneAll_isLargest rules).2.2.1 part within filled, rfl⟩

end StyleSieve.Rule
