import StyleSieve.Proofs.Run.Stages
import StyleSieve.Proofs.Sheet.Counting

/-!
# What a run removes

The report of a run tells how many rules and selectors its sheet has before and after.  The
difference is what no document uses and nothing says to keep.
-/

namespace StyleSieve.Run

open Usage (Document Pages staticOracle)

/-! ## Used selectors -/

/-- Whether a selector in normal form matches an element of one of some documents, which are looked
up or loaded one after another. -/
def UsedBySome (normalized : String) : List Document → Pages → Prop
  | [], _ => False
  | document :: rest, pages =>
      (∃ places, (document.load pages).1 = .ok places ∧
          Usage.matchesIn places normalized = .ok true) ∨
        UsedBySome normalized rest (document.load pages).2

/-- If all documents are answered about, a selector that is asked about is reported just if one of
them uses it. -/
theorem isReported_iff {selectors : List String} {normalized : String}
    (asked : normalized ∈ selectors) {documents : List Document} {pages : Pages}
    (answered : ∀ job ∈ (staticOracle.collectJobs selectors documents pages).1,
      job.outcome.isOk = true) :
    Usage.isReported (staticOracle.collectJobs selectors documents pages).1 normalized = true ↔
      UsedBySome normalized documents pages := by
  induction documents generalizing pages with
  | nil => exact iff_of_false Bool.false_ne_true id
  | cons document rest ih =>
      have some : selectors.isEmpty = false := by
        simpa using List.ne_nil_of_mem asked
      have first : staticOracle.collectJob document selectors pages =
          (⟨0, (Usage.answer document selectors pages).1⟩, (document.load pages).2) := by
        rw [Usage.Oracle.collectJob, some]
        rfl
      rw [Usage.Oracle.collectJobs, first] at answered ⊢
      rw [List.forall_mem_cons] at answered
      -- the documents after this one are asked with the pages that it has loaded
      rw [Usage.isReported, List.any_cons, Bool.or_eq_true, ← Usage.isReported, ih answered.2,
        UsedBySome]
      refine or_congr_left ?_
      cases loaded : (document.load pages).1 with
      | error failure =>
          have fails : (Usage.answer document selectors pages).1 = .error failure := by
            rw [Usage.answer, Usage.Engine.answer, loaded]
            rfl
          rw [fails] at answered
          cases answered.1
      | ok places =>
          have told : (Usage.answer document selectors pages).1 =
              Usage.conditionEngine.matchesAmong places selectors := by
            rw [Usage.answer, Usage.Engine.answer, loaded]
            rfl
          cases matched : Usage.conditionEngine.matchesAmong places selectors with
          | error failure =>
              rw [told, matched] at answered
              cases answered.1
          | ok found =>
              simp only [told, matched, List.contains_iff_mem,
                Usage.Engine.mem_matchesAmong matched, asked, true_and, Except.ok.injEq, exists_eq_left']
              rfl

/-! ## The report -/

theorem exists_keepEntries {documents : List Document} {sheet reduced : Stylesheet}
    {keep : List Selector.KeepValue} {pages : Pages}
    (reduces : (Usage.reduce staticOracle documents sheet keep pages).1 = .ok reduced) :
    ∃ entries, Selector.keepEntries keep = .ok entries := by
  cases builds : Selector.keepEntries keep with
  | error error => rw [Usage.reduce_eq, builds] at reduces; cases reduces
  | ok entries => exact ⟨entries, rfl⟩

/-- The report of a run tells what is removed: the selectors of the sheet that is read, at any
depth, that do not start like at-rules in normal form, are not to be kept and are not used by any
document; and the rules without a selector that stays. -/
theorem report_counts {world : Fetch.World} {options : Options} {sources : List String}
    {pages : Pages} {result : Result}
    (ended : (run world options sources pages).result = .ok result) :
    ∃ (course : Course world options sources pages) (entries : List Selector.KeepEntry)
        (stays : String → Bool),
      course.result = result ∧ Selector.keepEntries options.keep = .ok entries ∧
      (∀ selector ∈ course.sheet.selectors, stays selector = true ↔
        (Selector.normalize selector).toList.head? = some '@' ∨
          Selector.isKept entries (Selector.normalize selector) = true ∨
          UsedBySome (Selector.normalize selector) course.documents pages) ∧
      result.report.before.selectors = course.sheet.selectors.length ∧
      result.report.after.selectors = result.sheet.selectors.length ∧
      result.report.before.selectors - result.report.after.selectors =
        course.sheet.selectors.countP (!stays ·) ∧
      result.report.before.rules = (Rule.stylesIn [] course.sheet.rules).length ∧
      result.report.after.rules =
        (Rule.stylesIn [] course.sheet.rules).countP (·.selectors.any stays) ∧
      result.report.after.rules ≤ result.report.before.rules ∧
      result.report.after.selectors ≤ result.report.before.selectors ∧
      result.report.after.rules ≤ result.report.after.selectors := by
  obtain ⟨course, rfl, -⟩ := exists_course ended
  obtain ⟨entries, builds⟩ := exists_keepEntries course.isReduced
  obtain ⟨answered, isSifted⟩ := Usage.sift_of_reduce builds course.isReduced
  let jobs := (staticOracle.collectJobs (Usage.question course.sheet) course.documents pages).1
  let stays := Usage.stays entries jobs
  have before : course.result.report.before = Counts.ofSheet course.sheet := rfl
  have after : course.result.report.after = Counts.ofSheet (course.sheet.sift stays) :=
    congrArg Counts.ofSheet isSifted
  have sheet : course.result.sheet = course.sheet.sift stays := isSifted
  have off := Stylesheet.selectorCount_sift stays course.sheet
  have rules := Stylesheet.ruleCount_sift_le stays course.sheet
  refine ⟨course, entries, stays, rfl, builds, fun selector among => ?_, ?_⟩
  · have asked : Selector.normalize selector ∈ Usage.question course.sheet :=
      List.mem_map_of_mem among
    rw [Course.documents, ← isReported_iff asked answered]
    simp only [stays, Usage.stays, Bool.or_eq_true, beq_iff_eq, or_assoc, jobs, Course.documents]
  · rw [before, after, sheet]
    exact ⟨Stylesheet.selectorCount_eq_length _, Stylesheet.selectorCount_eq_length _,
      Nat.sub_eq_of_eq_add' off, Stylesheet.ruleCount_eq_length _,
      Stylesheet.ruleCount_sift stays _, rules.1, Nat.le.intro off.symm, rules.2⟩

/-- A world with a document and the sheet that it links, without a network. -/
def pageWorld : Fetch.World where
  directory := "/d"
  files := fun path =>
    if path = "p.html" then .file (Text.encodeUtf8 "<link rel=stylesheet href=s.css><a>")
    else if path = "s.css" then .file (Text.encodeUtf8 "a, b\x7bc:d\x7d@media x\x7bb\x7b\x7d")
    else .free
  network := Fetch.offline

/-- More of the sheet, which is given as a text. -/
def givenOptions : Options where
  keep := [.text ".k"]
  extraHtml := "<i>"
  extraCss := ".k, b\x7b\x7d\x7d"

/-- Of three rules with five selectors one rule and three selectors are removed. -/
theorem report_counts_given :
    ∃ result, (run pageWorld givenOptions ["p.html"] []).result = .ok result ∧
      result.report.documents = ["p.html", "<raw html>"] ∧ result.report.sheets = ["s.css"] ∧
      result.report.before = ⟨3, 5⟩ ∧ result.report.after = ⟨2, 2⟩ ∧
      ∃ (course : Course pageWorld givenOptions ["p.html"] []) (stays : String → Bool),
        course.result = result ∧ course.sheet.selectors.countP (!stays ·) = 3 ∧
          (Rule.stylesIn [] course.sheet.rules).countP (·.selectors.any stays) = 2 := by
  have counts : (run pageWorld givenOptions ["p.html"] []).result.toOption.map
      (fun result => (result.report.documents, result.report.sheets, result.report.before,
        result.report.after)) =
          some (["p.html", "<raw html>"], ["s.css"], ⟨3, 5⟩, ⟨2, 2⟩) := by
    decide +kernel
  obtain ⟨result, told, isReport⟩ := Option.map_eq_some_iff.mp counts
  simp only [Prod.mk.injEq] at isReport
  obtain ⟨documents, sheets, before, after⟩ := isReport
  have ended := eq_ok_of_toOption told
  obtain ⟨course, _, stays, isResult, _, _, _, _, removed, _, kept, _⟩ := report_counts ended
  rw [before, after] at removed
  rw [after] at kept
  exact ⟨result, ended, documents, sheets, before, after, course, stays, isResult, removed.symm,
    kept.symm⟩

end StyleSieve.Run
