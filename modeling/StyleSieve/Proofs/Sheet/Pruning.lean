import StyleSieve.Proofs.Sheet.Sifting

/-!
# Prunings of a sheet

A pruning of a sheet has some of its selectors, where they stood and in their order, and
all of its verbatim rules.  Sifting prunes, and leaves neither a style rule without
selectors nor a media rule around nothing.
-/

namespace StyleSieve

namespace Rule

mutual

/-- The verbatim rules in a rule inside the given conditions, each with the conditions
around it. -/
def verbatims (conditions : List String) : Rule → List (List String × String)
  | .style _ _ => []
  | .media condition rules => verbatimsIn (conditions ++ [condition]) rules
  | .verbatim text => [(conditions, text)]

/-- The verbatim rules in some rules, in order. -/
def verbatimsIn (conditions : List String) : List Rule → List (List String × String)
  | [] => []
  | rule :: rest => rule.verbatims conditions ++ verbatimsIn conditions rest

end

mutual

/-- Whether a rule is not empty, nor any rule in it: style rules have selectors, and
media rules enclose rules. -/
def isFilled : Rule → Bool
  | .style selectors _ => !selectors.isEmpty
  | .media _ rules => !rules.isEmpty && areFilled rules
  | .verbatim _ => true

/-- Whether none of some rules is empty, at any depth. -/
def areFilled : List Rule → Bool
  | [] => true
  | rule :: rest => rule.isFilled && areFilled rest

end

/-! ## Sifting -/

theorem verbatimsIn_append (conditions : List String) (first second : List Rule) :
    verbatimsIn conditions (first ++ second) =
      verbatimsIn conditions first ++ verbatimsIn conditions second := by
  induction first with
  | nil => rfl
  | cons rule rest ih => simp only [List.cons_append, verbatimsIn, ih, List.append_assoc]

mutual

theorem verbatimsIn_sift? (wanted : String → Bool) (conditions : List String) (rule : Rule) :
    verbatimsIn conditions (rule.sift? wanted).toList = rule.verbatims conditions := by
  cases rule with
  | style selectors declarations =>
      rw [sift?]
      split
      · rfl
      · rfl
  | media condition rules =>
      have inner := verbatimsIn_siftAll wanted (conditions ++ [condition]) rules
      rw [sift?, verbatims, ← inner]
      split
      · rename_i nothing
        rw [List.isEmpty_iff.1 nothing]
        rfl
      · simp [verbatimsIn, verbatims]
  | verbatim text => rfl

/-- Sifting keeps the verbatim rules where they stand. -/
theorem verbatimsIn_siftAll (wanted : String → Bool) (conditions : List String)
    (rules : List Rule) :
    verbatimsIn conditions (siftAll wanted rules) = verbatimsIn conditions rules := by
  cases rules with
  | nil => rfl
  | cons rule rest =>
      rw [siftAll, verbatimsIn_append, verbatimsIn_sift? wanted conditions rule,
        verbatimsIn_siftAll wanted conditions rest, verbatimsIn]

end

theorem areFilled_append (first second : List Rule) :
    areFilled (first ++ second) = (areFilled first && areFilled second) := by
  induction first with
  | nil => rfl
  | cons rule rest ih => simp only [List.cons_append, areFilled, ih, Bool.and_assoc]

mutual

theorem areFilled_sift? (wanted : String → Bool) (rule : Rule) :
    areFilled (rule.sift? wanted).toList = true := by
  cases rule with
  | style selectors declarations =>
      rw [sift?]
      split
      · rfl
      · rename_i some
        simpa [areFilled, isFilled] using some
  | media condition rules =>
      have inner := areFilled_siftAll wanted rules
      rw [sift?]
      split
      · rfl
      · rename_i some
        simpa [areFilled, isFilled, inner] using some
  | verbatim text => rfl

/-- Sifting leaves no empty rule. -/
theorem areFilled_siftAll (wanted : String → Bool) (rules : List Rule) :
    areFilled (siftAll wanted rules) = true := by
  cases rules with
  | nil => rfl
  | cons rule rest =>
      rw [siftAll, areFilled_append, areFilled_sift? wanted rule, areFilled_siftAll wanted rest]
      rfl

end

/-! ## Sifting by several conditions -/

mutual

theorem restrict_true (rule : Rule) : rule.restrict (fun _ => true) = rule := by
  cases rule with
  | style selectors declarations => simp [restrict]
  | media condition rules => rw [restrict, restrictAll_true rules]
  | verbatim text => rfl

theorem restrictAll_true (rules : List Rule) : restrictAll (fun _ => true) rules = rules := by
  cases rules with
  | nil => rfl
  | cons rule rest => rw [restrictAll, restrict_true rule, restrictAll_true rest]

end

theorem siftAll_append (wanted : String → Bool) (first second : List Rule) :
    siftAll wanted (first ++ second) = siftAll wanted first ++ siftAll wanted second := by
  induction first with
  | nil => rfl
  | cons rule rest ih => simp only [List.cons_append, siftAll, ih, List.append_assoc]

theorem siftAll_toList (wanted : String → Bool) (rule? : Option Rule) :
    siftAll wanted rule?.toList = (rule?.bind (sift? wanted)).toList := by
  cases rule? with
  | none => rfl
  | some rule => simp [siftAll]

mutual

theorem sift?_sift? (first second : String → Bool) (rule : Rule) :
    (rule.sift? first).bind (sift? second) =
      rule.sift? fun selector => first selector && second selector := by
  cases rule with
  | style selectors declarations =>
      have twice : (selectors.filter first).filter second =
          selectors.filter fun selector => first selector && second selector := by
        rw [List.filter_filter]
        simp only [Bool.and_comm]
      rw [sift?, sift?, ← twice]
      split
      · rename_i nothing
        rw [List.isEmpty_iff.1 nothing]
        rfl
      · rfl
  | media condition rules =>
      have twice := siftAll_siftAll first second rules
      rw [sift?, sift?, ← twice]
      split
      · rename_i nothing
        rw [List.isEmpty_iff.1 nothing]
        rfl
      · rfl
  | verbatim text => rfl

/-- Sifting twice is sifting once by both conditions. -/
theorem siftAll_siftAll (first second : String → Bool) (rules : List Rule) :
    siftAll second (siftAll first rules) =
      siftAll (fun selector => first selector && second selector) rules := by
  cases rules with
  | nil => rfl
  | cons rule rest =>
      rw [siftAll, siftAll_append, siftAll_toList, sift?_sift? first second rule,
        siftAll_siftAll first second rest, siftAll]

end

mutual

theorem sift?_congr {first second : String → Bool} (rule : Rule)
    (agree : ∀ selector ∈ rule.selectors, first selector = second selector) :
    rule.sift? first = rule.sift? second := by
  cases rule with
  | style given declarations =>
      have same : given.filter first = given.filter second := List.filter_congr agree
      rw [sift?, sift?, same]
  | media condition rules =>
      rw [sift?, sift?, siftAll_congr rules agree]
  | verbatim text => rfl

/-- What sifting leaves depends on the selectors that occur only. -/
theorem siftAll_congr {first second : String → Bool} (rules : List Rule)
    (agree : ∀ selector ∈ selectorsOf rules, first selector = second selector) :
    siftAll first rules = siftAll second rules := by
  cases rules with
  | nil => rfl
  | cons rule rest =>
      rw [selectorsOf, List.forall_mem_append] at agree
      rw [siftAll, siftAll, sift?_congr rule agree.1, siftAll_congr rest agree.2]

end

end Rule

namespace Stylesheet

/-- The verbatim rules of a sheet, each with the conditions around it, in order. -/
def verbatims (sheet : Stylesheet) : List (List String × String) :=
  Rule.verbatimsIn [] sheet.rules

/-- Whether no rule of a sheet is empty, at any depth. -/
def isFilled (sheet : Stylesheet) : Bool :=
  Rule.areFilled sheet.rules

/-- A sheet with some of the selectors of another one, where they stand there and in
their order, and with all its verbatim rules. -/
structure IsPruningOf (pruned sheet : Stylesheet) : Prop where
  occurrences : pruned.occurrences.Sublist sheet.occurrences
  verbatims : pruned.verbatims = sheet.verbatims

theorem IsPruningOf.refl (sheet : Stylesheet) : sheet.IsPruningOf sheet :=
  ⟨List.Sublist.refl _, rfl⟩

theorem IsPruningOf.trans {first second third : Stylesheet} (later : third.IsPruningOf second)
    (earlier : second.IsPruningOf first) : third.IsPruningOf first :=
  ⟨later.occurrences.trans earlier.occurrences, later.verbatims.trans earlier.verbatims⟩

/-- Sifting prunes a sheet. -/
theorem isPruningOf_sift (wanted : String → Bool) (sheet : Stylesheet) :
    (sheet.sift wanted).IsPruningOf sheet := by
  constructor
  · rw [occurrences_sift]
    exact List.filter_sublist
  · exact Rule.verbatimsIn_siftAll wanted [] sheet.rules

/-- Sifting leaves no empty rule. -/
theorem isFilled_sift (wanted : String → Bool) (sheet : Stylesheet) :
    (sheet.sift wanted).isFilled = true :=
  Rule.areFilled_siftAll wanted sheet.rules

theorem filter_eq_sift (entries : List Selector.KeepEntry) (used : List String)
    (sheet : Stylesheet) :
    sheet.filter entries used = sheet.sift (Selector.isWanted entries used) :=
  keepOnly_eq_sift _ sheet

/-- Deleting empty rules is sifting by no condition. -/
theorem prune_eq_sift (sheet : Stylesheet) : sheet.prune = sheet.sift fun _ => true := by
  rw [← keepOnly_eq_sift, keepOnly, restrict, Rule.restrictAll_true]

theorem sift_append (wanted : String → Bool) (first second : Stylesheet) :
    (first.append second).sift wanted = (first.sift wanted).append (second.sift wanted) :=
  congrArg Stylesheet.mk (Rule.siftAll_append wanted first.rules second.rules)

theorem sift_sift (first second : String → Bool) (sheet : Stylesheet) :
    (sheet.sift first).sift second =
      sheet.sift fun selector => first selector && second selector :=
  congrArg Stylesheet.mk (Rule.siftAll_siftAll first second sheet.rules)

theorem sift_congr {first second : String → Bool} {sheet : Stylesheet}
    (agree : ∀ selector ∈ sheet.selectors, first selector = second selector) :
    sheet.sift first = sheet.sift second :=
  congrArg Stylesheet.mk (Rule.siftAll_congr sheet.rules agree)

end Stylesheet

end StyleSieve
