import StyleSieve.Sheet.Filter

/-!
# What filtering leaves of a sheet

Filtering deletes selectors in a first pass and empty rules in a second one.
This module identifies the two passes with a single one from the inside out, and
the result with a sublist: the selectors of a sheet, each with the media
conditions around it and with its declarations, are kept or deleted one by one.
-/

namespace StyleSieve

/-- A selector where it stands: the conditions of the media rules around it,
outermost first, and the declarations that it shares. -/
structure Occurrence where
  conditions : List String
  declarations : List String
  selector : String
  deriving DecidableEq, Repr

namespace Rule

mutual

/-- What is left of a rule when only selectors that satisfy a condition are
kept, found in one pass: nothing, if no selector and no inner rule is left. -/
def sift? (wanted : String → Bool) : Rule → Option Rule
  | .style selectors declarations =>
      let kept := selectors.filter wanted
      if kept.isEmpty then none else some (.style kept declarations)
  | .media condition rules =>
      let kept := siftAll wanted rules
      if kept.isEmpty then none else some (.media condition kept)
  | .verbatim text => some (.verbatim text)

/-- What is left of some rules. -/
def siftAll (wanted : String → Bool) : List Rule → List Rule
  | [] => []
  | rule :: rest => (rule.sift? wanted).toList ++ siftAll wanted rest

end

mutual

/-- The selectors of a rule where they stand, inside the given conditions. -/
def occurrences (conditions : List String) : Rule → List Occurrence
  | .style selectors declarations => selectors.map (⟨conditions, declarations, ·⟩)
  | .media condition rules => occurrencesIn (conditions ++ [condition]) rules
  | .verbatim _ => []

/-- The selectors of some rules where they stand, in order. -/
def occurrencesIn (conditions : List String) : List Rule → List Occurrence
  | [] => []
  | rule :: rest => rule.occurrences conditions ++ occurrencesIn conditions rest

end

/-! ## One pass instead of two -/

theorem pruneAll_cons (rule : Rule) (rest : List Rule) :
    pruneAll (rule :: rest) = rule.prune?.toList ++ pruneAll rest := by
  rw [pruneAll]
  cases rule.prune? <;> rfl

theorem prune?_style (selectors declarations : List String) :
    (style selectors declarations).prune? =
      if selectors.isEmpty then none else some (.style selectors declarations) := by
  cases selectors <;> rfl

theorem prune?_media (condition : String) (rules : List Rule) :
    (media condition rules).prune? =
      if (pruneAll rules).isEmpty then none
      else some (.media condition (pruneAll rules)) := by
  rw [prune?]
  cases pruneAll rules <;> rfl

mutual

theorem prune?_restrict (wanted : String → Bool) (rule : Rule) :
    (rule.restrict wanted).prune? = rule.sift? wanted := by
  cases rule with
  | style selectors declarations => rw [restrict, prune?_style, sift?]
  | media condition rules =>
      rw [restrict, prune?_media, pruneAll_restrictAll wanted rules, sift?]
  | verbatim text => rfl

/-- Deleting selectors and then empty rules is the same as sifting once. -/
theorem pruneAll_restrictAll (wanted : String → Bool) (rules : List Rule) :
    pruneAll (restrictAll wanted rules) = siftAll wanted rules := by
  cases rules with
  | nil => rfl
  | cons rule rest =>
      rw [restrictAll, pruneAll_cons, prune?_restrict wanted rule,
        pruneAll_restrictAll wanted rest, siftAll]

end

/-! ## Selectors are kept one by one -/

theorem occurrencesIn_append (conditions : List String) (first second : List Rule) :
    occurrencesIn conditions (first ++ second) =
      occurrencesIn conditions first ++ occurrencesIn conditions second := by
  induction first with
  | nil => rfl
  | cons rule rest ih => simp only [List.cons_append, occurrencesIn, ih, List.append_assoc]

/-- A rule that is left out when nothing is left of it has the occurrences that
it would have if it stayed. -/
theorem occurrencesIn_unlessEmpty {α : Type} (conditions : List String) (kept : List α)
    (rule : Rule) (nothing : kept = [] → rule.occurrences conditions = []) :
    occurrencesIn conditions (if kept.isEmpty then none else some rule : Option Rule).toList =
      rule.occurrences conditions := by
  cases kept with
  | nil => simp [occurrencesIn, nothing]
  | cons => simp [occurrencesIn]

mutual

theorem occurrencesIn_sift? (wanted : String → Bool) (conditions : List String)
    (rule : Rule) :
    occurrencesIn conditions (rule.sift? wanted).toList =
      (rule.occurrences conditions).filter (wanted ·.selector) := by
  cases rule with
  | style selectors declarations =>
      rw [sift?, occurrencesIn_unlessEmpty]
      · rw [occurrences, occurrences, List.filter_map]
        rfl
      · intro none
        rw [none]
        rfl
  | media condition rules =>
      have inner := occurrencesIn_siftAll wanted (conditions ++ [condition]) rules
      rw [sift?, occurrencesIn_unlessEmpty]
      · rw [occurrences, occurrences, inner]
      · intro none
        rw [none]
        rfl
  | verbatim text => rfl

/-- The occurrences that sifting leaves are those of wanted selectors, in their
order. -/
theorem occurrencesIn_siftAll (wanted : String → Bool) (conditions : List String)
    (rules : List Rule) :
    occurrencesIn conditions (siftAll wanted rules) =
      (occurrencesIn conditions rules).filter (wanted ·.selector) := by
  cases rules with
  | nil => rfl
  | cons rule rest =>
      rw [siftAll, occurrencesIn_append, occurrencesIn_sift? wanted conditions rule,
        occurrencesIn_siftAll wanted conditions rest, occurrencesIn, List.filter_append]

end

end Rule

namespace Stylesheet

/-- What is left of a sheet when only selectors that satisfy a condition are
kept, found in one pass. -/
def sift (wanted : String → Bool) (sheet : Stylesheet) : Stylesheet :=
  ⟨Rule.siftAll wanted sheet.rules⟩

/-- The selectors of a sheet where they stand, in document order. -/
def occurrences (sheet : Stylesheet) : List Occurrence :=
  Rule.occurrencesIn [] sheet.rules

theorem keepOnly_eq_sift (wanted : String → Bool) (sheet : Stylesheet) :
    sheet.keepOnly wanted = sheet.sift wanted :=
  congrArg Stylesheet.mk (Rule.pruneAll_restrictAll wanted sheet.rules)

theorem occurrences_sift (wanted : String → Bool) (sheet : Stylesheet) :
    (sheet.sift wanted).occurrences =
      sheet.occurrences.filter (wanted ·.selector) :=
  Rule.occurrencesIn_siftAll wanted [] sheet.rules

end Stylesheet

end StyleSieve
