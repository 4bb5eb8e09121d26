import StyleSieve.Proofs.Fallible
import StyleSieve.Run.Reduction

/-!
# The stages of a run

A run that comes to a result has passed all its stages: it has fetched its documents, found the
sheets they refer to, fetched these, read them as one sheet and reduced it.
-/

namespace StyleSieve.Run

open Usage (Document Pages)

/-- What a run that comes to a result goes through: the texts of its documents, the locations and
the texts of its sheets, the sheet they are read as, and what is left of it. -/
structure Course (world : Fetch.World) (options : Options) (sources : List String)
    (pages : Pages) where
  texts : List String
  locations : List String
  sheetTexts : List String
  sheet : Stylesheet
  reduced : Stylesheet
  fetched : (Fetch.fetchAll world options.client sources).outcome = .ok texts
  found : sheetLocations options (documentsOf options sources texts) = .ok locations
  sheetsFetched : (Fetch.fetchAll world options.client locations).outcome = .ok sheetTexts
  read : Stylesheet.parse (joinedSource options sheetTexts) = .ok sheet
  isReduced :
    (Usage.reduce Usage.staticOracle (documentsOf options sources texts) sheet options.keep
      pages).1 = .ok reduced

namespace Course

variable {world : Fetch.World} {options : Options} {sources : List String} {pages : Pages}

/-- The documents of a run. -/
def documents (course : Course world options sources pages) : List Document :=
  documentsOf options sources course.texts

/-- What a run makes ready before it reduces the sheet. -/
def prepared (course : Course world options sources pages) : Prepared :=
  ⟨course.documents, course.locations, course.sheet⟩

/-- What a run ends with. -/
def result (course : Course world options sources pages) : Result :=
  course.prepared.result course.reduced

end Course

variable {world : Fetch.World} {options : Options} {sources : List String} {pages : Pages}

theorem outcome_of_fetchTexts {locations texts : List String}
    (fetched : (fetchTexts world options locations).1 = .ok texts) :
    (Fetch.fetchAll world options.client locations).outcome = .ok texts :=
  mapError_eq_ok.mp fetched

theorem sheetLocations_of_findSheets {texts locations : List String} {documents : List Document}
    (found : findSheets options sources texts = .ok (documents, locations)) :
    documents = documentsOf options sources texts ∧
      sheetLocations options documents = .ok locations := by
  rw [findSheets] at found
  split at found
  · cases found
  · cases located : sheetLocations options (documentsOf options sources texts) with
    | error failure => rw [located] at found; cases found
    | ok others =>
        rw [located] at found
        change (if others.isEmpty && options.extraCss == "" then _ else _) = _ at found
        split at found
        · cases found
        · cases found
          exact ⟨rfl, located⟩

/-- A run that makes a sheet ready has fetched and read it; it acts for its documents and then for
its sheets. -/
theorem exists_of_prepare {prepared : Prepared}
    (ready : (prepare world options sources).1 = .ok prepared) :
    ∃ texts sheetTexts,
      (Fetch.fetchAll world options.client sources).outcome = .ok texts ∧
      prepared.documents = documentsOf options sources texts ∧
      sheetLocations options prepared.documents = .ok prepared.locations ∧
      (Fetch.fetchAll world options.client prepared.locations).outcome = .ok sheetTexts ∧
      Stylesheet.parse (joinedSource options sheetTexts) = .ok prepared.sheet ∧
      (prepare world options sources).2.acts =
        (Fetch.fetchAll world options.client sources).acts ++
          (Fetch.fetchAll world options.client prepared.locations).acts := by
  -- each stage succeeds or ends the preparation
  cases loaded : (fetchTexts world options sources).1 with
  | error failure => simp only [prepare, loaded, reduceCtorEq] at ready
  | ok texts =>
  cases found : findSheets options sources texts with
  | error failure => simp only [prepare, loaded, found, reduceCtorEq] at ready
  | ok pair =>
  obtain ⟨documents, locations⟩ := pair
  cases sheets : (fetchTexts world options locations).1 with
  | error failure => simp only [prepare, loaded, found, sheets, reduceCtorEq] at ready
  | ok sheetTexts =>
  cases read : Stylesheet.parse (joinedSource options sheetTexts) with
  | error error => simp only [prepare, loaded, found, sheets, read, reduceCtorEq] at ready
  | ok sheet =>
  simp only [prepare, loaded, found, sheets, read, Except.ok.injEq] at ready ⊢
  obtain ⟨isDocuments, located⟩ := sheetLocations_of_findSheets found
  subst ready
  refine ⟨texts, sheetTexts, outcome_of_fetchTexts loaded, isDocuments, located,
    outcome_of_fetchTexts sheets, read, ?_⟩
  simp only [Journal.append, fetchTexts, List.append_nil]

/-- A run that comes to a result has run its course, and has acted for its documents and then for
its sheets. -/
theorem exists_course {result : Result}
    (ended : (run world options sources pages).result = .ok result) :
    ∃ course : Course world options sources pages, course.result = result ∧
      (run world options sources pages).journal.acts =
        (Fetch.fetchAll world options.client sources).acts ++
          (Fetch.fetchAll world options.client course.locations).acts := by
  cases preparation : prepare world options sources with
  | mk readiness journal =>
  cases readiness with
  | error failure => simp only [run, preparation, reduceCtorEq] at ended
  | ok prepared =>
  cases reduction : (Usage.reduce Usage.staticOracle prepared.documents prepared.sheet
      options.keep pages).1 with
  | error error => simp only [run, preparation, reduction, reduceCtorEq] at ended
  | ok reduced =>
  have ready : (prepare world options sources).1 = .ok prepared := by rw [preparation]
  obtain ⟨texts, sheetTexts, fetched, isDocuments, found, sheetsFetched, read, acts⟩ :=
    exists_of_prepare ready
  rw [preparation] at acts
  simp only [run, preparation, reduction, Except.ok.injEq] at ended ⊢
  rw [isDocuments] at found reduction
  refine ⟨⟨texts, prepared.locations, sheetTexts, prepared.sheet, reduced, fetched, found,
    sheetsFetched, read, reduction⟩, ?_, ?_⟩
  · rw [← ended, Course.result, Course.prepared, Course.documents, ← isDocuments]
  · simpa only [Journal.append, List.append_nil] using acts

end StyleSieve.Run
