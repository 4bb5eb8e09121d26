import Mathlib.Algebra.Ring.Nat
import StyleSieve.Proofs.Sheet.Shells
import StyleSieve.Proofs.Usage.Survival

/-!
# Counting rules and selectors

The counts of a sheet are those of its style rules and of the selectors in them, at any depth.
Sifting takes a selector off the count for each that is not wanted, and a rule for each in which
none is.
-/

namespace StyleSieve

namespace Rule

/-! ## Totals -/

mutual

theorem total_eq_sum (measure : List String → List String → Nat) (conditions : List String)
    (rule : Rule) :
    rule.total measure =
      ((rule.styles conditions).map fun placed =>
        measure placed.selectors placed.declarations).sum := by
  cases rule with
  | style given declarations => exact (List.sum_singleton).symm
  | media condition rules =>
      exact totalOf_eq_sum measure (conditions ++ [condition]) rules
  | verbatim text => rfl

/-- A total over rules is the sum over the style rules in them. -/
theorem totalOf_eq_sum (measure : List String → List String → Nat) (conditions : List String)
    (rules : List Rule) :
    totalOf measure rules =
      ((stylesIn conditions rules).map fun placed =>
        measure placed.selectors placed.declarations).sum := by
  cases rules with
  | nil => rfl
  | cons rule rest =>
      rw [totalOf, stylesIn, List.map_append, List.sum_append, total_eq_sum measure conditions rule,
        totalOf_eq_sum measure conditions rest]

end

mutual

theorem total_le_of_isFilled {rule : Rule} (filled : rule.isFilled = true) :
    rule.total (fun _ _ => 1) ≤ rule.total fun selectors _ => selectors.length := by
  cases rule with
  | style given declarations =>
      cases given with
      | nil => cases filled
      | cons selector more => exact Nat.succ_le_succ (Nat.zero_le _)
  | media condition rules =>
      rw [isFilled, Bool.and_eq_true] at filled
      exact totalOf_le_of_areFilled filled.2
  | verbatim text => exact Nat.le_refl 0

/-- Where no rule is empty each style rule has a selector of its own. -/
theorem totalOf_le_of_areFilled {rules : List Rule} (filled : areFilled rules = true) :
    totalOf (fun _ _ => 1) rules ≤ totalOf (fun selectors _ => selectors.length) rules := by
  cases rules with
  | nil => exact Nat.le_refl 0
  | cons rule rest =>
      rw [areFilled, Bool.and_eq_true] at filled
      exact Nat.add_le_add (total_le_of_isFilled filled.1) (totalOf_le_of_areFilled filled.2)

end

/-! ## Sifting -/

/-- A style rule with those of its selectors that satisfy a condition. -/
def PlacedStyle.restrict (wanted : String → Bool) (placed : PlacedStyle) : PlacedStyle :=
  { placed with selectors := placed.selectors.filter wanted }

mutual

theorem styles_restrict (wanted : String → Bool) (conditions : List String) (rule : Rule) :
    (rule.restrict wanted).styles conditions =
      (rule.styles conditions).map (PlacedStyle.restrict wanted) := by
  cases rule with
  | style given declarations => rfl
  | media condition rules => exact stylesIn_restrictAll wanted (conditions ++ [condition]) rules
  | verbatim text => rfl

theorem stylesIn_restrictAll (wanted : String → Bool) (conditions : List String)
    (rules : List Rule) :
    stylesIn conditions (restrictAll wanted rules) =
      (stylesIn conditions rules).map (PlacedStyle.restrict wanted) := by
  cases rules with
  | nil => rfl
  | cons rule rest =>
      rw [restrictAll, stylesIn, styles_restrict wanted conditions rule,
        stylesIn_restrictAll wanted conditions rest, stylesIn, List.map_append]

end

/-- The style rules that sifting leaves are those with a selector that is wanted, without their
other selectors. -/
theorem stylesIn_siftAll (wanted : String → Bool) (conditions : List String)
    (rules : List Rule) :
    stylesIn conditions (siftAll wanted rules) =
      ((stylesIn conditions rules).filter (·.selectors.any wanted)).map
        (PlacedStyle.restrict wanted) := by
  have some (placed : PlacedStyle) :
      (!(placed.restrict wanted).selectors.isEmpty) = placed.selectors.any wanted := by
    rw [Bool.eq_iff_iff]
    simp [PlacedStyle.restrict, List.filter_eq_nil_iff]
  rw [← pruneAll_restrictAll, stylesIn_pruneAll, stylesIn_restrictAll, List.filter_map]
  simp only [Function.comp_def, some]

end Rule

namespace Stylesheet

open Rule (stylesIn)

/-- The style rules of a sheet, at any depth. -/
theorem ruleCount_eq_length (sheet : Stylesheet) :
    sheet.ruleCount = (stylesIn [] sheet.rules).length := by
  rw [ruleCount, Rule.totalOf_eq_sum _ [], List.map_const', List.sum_replicate_nat, Nat.mul_one]

theorem selectorCount_eq_length (sheet : Stylesheet) :
    sheet.selectorCount = sheet.selectors.length := by
  rw [selectorCount, selectors, Rule.totalOf_eq_sum _ [], Rule.selectorsOf_eq_flatMap [],
    List.length_flatMap]

theorem selectors_sift (wanted : String → Bool) (sheet : Stylesheet) :
    (sheet.sift wanted).selectors = sheet.selectors.filter wanted := by
  rw [← map_selector_occurrences, ← map_selector_occurrences, occurrences_sift, List.filter_map]
  rfl

/-- Each rule in which a selector is wanted counts after sifting. -/
theorem ruleCount_sift (wanted : String → Bool) (sheet : Stylesheet) :
    (sheet.sift wanted).ruleCount =
      (stylesIn [] sheet.rules).countP (·.selectors.any wanted) := by
  rw [ruleCount_eq_length, sift, Rule.stylesIn_siftAll, List.length_map,
    List.countP_eq_length_filter]

/-- Each selector that is not wanted is off the count after sifting. -/
theorem selectorCount_sift (wanted : String → Bool) (sheet : Stylesheet) :
    sheet.selectorCount =
      (sheet.sift wanted).selectorCount + sheet.selectors.countP (!wanted ·) := by
  rw [selectorCount_eq_length, selectorCount_eq_length, selectors_sift,
    ← List.countP_eq_length_filter, List.length_eq_countP_add_countP wanted]
  congr 2
  funext selector
  cases wanted selector <;> rfl

/-- After sifting there are no more rules than before, nor more than there are selectors. -/
theorem ruleCount_sift_le (wanted : String → Bool) (sheet : Stylesheet) :
    (sheet.sift wanted).ruleCount ≤ sheet.ruleCount ∧
      (sheet.sift wanted).ruleCount ≤ (sheet.sift wanted).selectorCount := by
  constructor
  · rw [ruleCount_sift, ruleCount_eq_length]
    exact List.countP_le_length
  · exact Rule.totalOf_le_of_areFilled (isFilled_sift wanted sheet)

end Stylesheet

end StyleSieve
