import Mathlib.Data.List.Forall2
import StyleSieve.Proofs.Sheet.Pruning

/-!
# Filtering in several passes

A sheet may be filtered more than once, by other lists each time, and its empty rules may
be deleted in between.  Each pass sifts what the one before it left, so that a row of
passes sifts once, by the conditions of all of them.
-/

namespace StyleSieve

namespace Selector

theorem isKept_mono {entries wider : List KeepEntry} (within : entries ⊆ wider)
    {normalized : String} (kept : isKept entries normalized = true) :
    isKept wider normalized = true := by
  rw [isKept, List.any_eq_true] at kept ⊢
  obtain ⟨entry, member, covers⟩ := kept
  exact ⟨entry, within member, covers⟩

/-- A selector that is wanted by some lists is wanted by wider ones. -/
theorem isWanted_mono {entries wider : List KeepEntry} {used more : List String}
    (within : entries ⊆ wider) (less : used ⊆ more) {selector : String}
    (wanted : isWanted entries used selector = true) : isWanted wider more selector = true := by
  simp only [isWanted, Bool.or_eq_true, List.contains_iff_mem] at wanted ⊢
  rcases wanted with (atRule | kept) | found
  · exact .inl (.inl atRule)
  · exact .inl (.inr (isKept_mono within kept))
  · exact .inr (less found)

end Selector

namespace Stylesheet

/-- What is done to a sheet in one pass. -/
inductive Pass where
  | filter (entries : List Selector.KeepEntry) (used : List String)
  | prune

namespace Pass

/-- The sheet that a pass leaves. -/
def apply : Pass → Stylesheet → Stylesheet
  | .filter entries used, sheet => sheet.filter entries used
  | .prune, sheet => sheet.prune

/-- Whether a pass keeps a selector. -/
def wants : Pass → String → Bool
  | .filter entries used => Selector.isWanted entries used
  | .prune => fun _ => true

/-- Whether a pass filters. -/
def isFilter : Pass → Bool
  | .filter .. => true
  | .prune => false

/-- A pass of the same kind as another one, by lists that are contained in its lists. -/
inductive Within : Pass → Pass → Prop
  | filter {entries wider : List Selector.KeepEntry} {used more : List String}
      (entriesWithin : entries ⊆ wider) (usedWithin : used ⊆ more) :
      Within (.filter entries used) (.filter wider more)
  | prune : Within .prune .prune

theorem apply_eq_sift (pass : Pass) (sheet : Stylesheet) :
    pass.apply sheet = sheet.sift pass.wants := by
  cases pass with
  | filter entries used => exact filter_eq_sift entries used sheet
  | prune => exact prune_eq_sift sheet

theorem Within.wants {pass wider : Pass} (within : pass.Within wider) {selector : String}
    (wanted : pass.wants selector = true) : wider.wants selector = true := by
  cases within with
  | filter entriesWithin usedWithin =>
      exact Selector.isWanted_mono entriesWithin usedWithin wanted
  | prune => rfl

/-- What all of some passes keep is kept by all passes by wider lists. -/
theorem all_wants_of_within {passes wider : List Pass}
    (within : List.Forall₂ Within passes wider) {selector : String}
    (wanted : passes.all (·.wants selector) = true) :
    wider.all (·.wants selector) = true := by
  induction within with
  | nil => rfl
  | cons first _ ih =>
      rw [List.all_cons, Bool.and_eq_true] at wanted ⊢
      exact ⟨first.wants wanted.1, ih wanted.2⟩

end Pass

/-- The sheet that a row of passes leaves. -/
def inPasses (passes : List Pass) (sheet : Stylesheet) : Stylesheet :=
  passes.foldl (fun left pass => pass.apply left) sheet

theorem inPasses_cons (pass : Pass) (rest : List Pass) (sheet : Stylesheet) :
    sheet.inPasses (pass :: rest) = (pass.apply sheet).inPasses rest := rfl

/-- Passes over what sifting left sift by its condition too. -/
theorem inPasses_sift (wanted : String → Bool) (passes : List Pass) (sheet : Stylesheet) :
    (sheet.sift wanted).inPasses passes =
      sheet.sift fun selector => wanted selector && passes.all (·.wants selector) := by
  induction passes generalizing wanted with
  | nil => simp only [inPasses, List.foldl_nil, List.all_nil, Bool.and_true]
  | cons pass rest ih =>
      rw [inPasses_cons, pass.apply_eq_sift, sift_sift, ih]
      simp only [List.all_cons, Bool.and_assoc]

/-- A row of passes sifts once, by what all of them keep. -/
theorem inPasses_eq_sift {passes : List Pass} (some : passes ≠ []) (sheet : Stylesheet) :
    sheet.inPasses passes = sheet.sift fun selector => passes.all (·.wants selector) := by
  cases passes with
  | nil => exact absurd rfl some
  | cons pass rest =>
      rw [inPasses_cons, pass.apply_eq_sift, inPasses_sift]
      simp only [List.all_cons]

/-- A sheet sifted by a condition is a pruning of the sheet sifted by a weaker one. -/
theorem isPruningOf_sift_sift {first second : String → Bool}
    (implies : ∀ selector, first selector = true → second selector = true)
    (sheet : Stylesheet) : (sheet.sift first).IsPruningOf (sheet.sift second) := by
  have both : (fun selector => second selector && first selector) = first := by
    funext selector
    cases holds : first selector with
    | false => rw [Bool.and_false]
    | true => rw [implies selector holds, Bool.and_true]
  have again := isPruningOf_sift first (sheet.sift second)
  rwa [sift_sift, both] at again

/-- The order of passes does not matter. -/
theorem inPasses_perm {passes others : List Pass} (reordered : passes.Perm others)
    (sheet : Stylesheet) : sheet.inPasses passes = sheet.inPasses others := by
  cases passes with
  | nil => rw [List.nil_perm.1 reordered]
  | cons pass rest =>
      have some : others ≠ [] := by
        rintro rfl
        exact List.cons_ne_nil pass rest (List.perm_nil.1 reordered)
      rw [inPasses_eq_sift (List.cons_ne_nil pass rest), inPasses_eq_sift some]
      congr 1
      funext selector
      exact reordered.all_eq

/-- Passes by wider lists remove nothing that passes by the given ones keep. -/
theorem inPasses_mono {passes wider : List Pass} (within : List.Forall₂ Pass.Within passes wider)
    (sheet : Stylesheet) : (sheet.inPasses passes).IsPruningOf (sheet.inPasses wider) := by
  have wants : ∀ selector, passes.all (·.wants selector) = true →
      wider.all (·.wants selector) = true :=
    fun _ wanted => Pass.all_wants_of_within within wanted
  cases within with
  | nil => exact IsPruningOf.refl sheet
  | cons _ _ =>
      rw [inPasses_eq_sift (List.cons_ne_nil _ _), inPasses_eq_sift (List.cons_ne_nil _ _)]
      exact isPruningOf_sift_sift wants sheet

/-- A row of passes among which one filters leaves what one filter leaves that keeps the
selectors that all passes keep; so a second filter by the same lists leaves the sheet as it
is, the order of the passes does not matter, and wider lists keep all that is kept. -/
theorem inPasses_eq_keepOnly (passes : List Pass) (sheet : Stylesheet)
    (filters : passes.any Pass.isFilter = true) :
    sheet.inPasses passes = sheet.keepOnly (fun selector => passes.all (·.wants selector)) ∧
      (∀ entries used,
        (sheet.filter entries used).filter entries used = sheet.filter entries used) ∧
      (∀ others : List Pass, passes.Perm others →
        sheet.inPasses others = sheet.inPasses passes) ∧
      ∀ wider : List Pass, List.Forall₂ Pass.Within passes wider →
        (sheet.inPasses passes).IsPruningOf (sheet.inPasses wider) := by
  have some : passes ≠ [] := by
    rintro rfl
    exact Bool.false_ne_true filters
  refine ⟨?_, ?_, ?_, ?_⟩
  · rw [inPasses_eq_sift some, keepOnly_eq_sift]
  · intro entries used
    rw [filter_eq_sift, filter_eq_sift, sift_sift]
    simp only [Bool.and_self]
  · intro others reordered
    exact (inPasses_perm reordered sheet).symm
  · intro wider within
    exact inPasses_mono within sheet

/-- A media rule that one filter empties and another one does not, in both orders. -/
theorem inPasses_eq_keepOnly_nested :
    let sheet : Stylesheet :=
      ⟨[.media "print" [.media "tv" [.style [".a", ".b:hover"] ["c: d"]], .style [".c"] []]]⟩
    let passes : List Pass := [.filter [.exact ".a"] [".c"], .prune, .filter [] [".a"]]
    let wider : List Pass := [.filter [.exact ".a"] [".c"], .prune, .filter [] [".c", ".a"]]
    passes.any Pass.isFilter = true ∧
      sheet.inPasses passes = ⟨[.media "print" [.media "tv" [.style [".a"] ["c: d"]]]]⟩ ∧
      sheet.inPasses passes.reverse = sheet.inPasses passes ∧
      (sheet.inPasses passes).IsPruningOf (sheet.inPasses wider) ∧
      sheet.inPasses wider =
        ⟨[.media "print" [.media "tv" [.style [".a"] ["c: d"]], .style [".c"] []]]⟩ := by
  intro sheet passes wider
  have filters : passes.any Pass.isFilter = true := rfl
  have within : List.Forall₂ Pass.Within passes wider :=
    .cons (.filter (List.Subset.refl _) (List.Subset.refl _)) (.cons .prune
      (.cons (.filter (List.Subset.refl _) (List.subset_cons_self ..)) .nil))
  obtain ⟨once, _, reorders, widens⟩ := inPasses_eq_keepOnly passes sheet filters
  have kept : sheet.keepOnly (fun selector => passes.all (·.wants selector)) =
      ⟨[.media "print" [.media "tv" [.style [".a"] ["c: d"]]]]⟩ := by decide +kernel
  exact ⟨filters, once.trans kept, reorders passes.reverse passes.reverse_perm.symm,
    widens wider within, by decide +kernel⟩

end Stylesheet

end StyleSieve
