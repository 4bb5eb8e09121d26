import StyleSieve.Run.Questions
import StyleSieve.Run.Sheets
import StyleSieve.Sheet.Printer

/-!
# Runs

A run fetches documents and the sheets that they refer to, reads the sheets as
one, and reduces it to what the documents use.  Whatever comes of it, a run
leaves the pages it has seen, and tells what it did and its notes.
-/

namespace StyleSieve.Run

open Usage (Document Pages)

/-- What a run ends with: the reduced sheet, and a report. -/
structure Result where
  sheet : Stylesheet
  report : Report

/-- The text of the reduced sheet. -/
def Result.css (result : Result) : String := result.sheet.print

/-- What a run does besides its result. -/
structure Journal where
  acts : List Fetch.Act := []
  notes : List Note := []

/-- The requests of a run. -/
def Journal.requests (journal : Journal) : List Fetch.Request :=
  journal.acts.filterMap Fetch.Act.request?

/-- A run that has come to its end. -/
structure Outcome where
  result : Except Failure Result
  pages : Pages
  journal : Journal

/-- One journal after another. -/
def Journal.append (first second : Journal) : Journal :=
  ⟨first.acts ++ second.acts, first.notes ++ second.notes⟩

/-- The texts at some locations, with the journal of fetching them. -/
def fetchTexts (world : Fetch.World) (options : Options) (locations : List String) :
    Except Failure (List String) × Journal :=
  let fetched := Fetch.fetchAll world options.client locations
  (fetched.outcome.mapError .fetch, ⟨fetched.acts, locations.map .fetching⟩)

/-- The documents of a run, from the texts at its sources: the one that is given
as a text comes last. -/
def documentsOf (options : Options) (sources texts : List String) : List Document :=
  List.zipWith Document.mk sources texts ++
    if options.extraHtml = "" then [] else [⟨extraLocation, options.extraHtml⟩]

/-- The source of the sheet of a run, from the texts of its sheets: the one that
is given as a text comes last. -/
def joinedSource (options : Options) (texts : List String) : String :=
  "\n".intercalate (texts ++ if options.extraCss = "" then [] else [options.extraCss])

/-- What a run has made ready before it reduces the sheet. -/
structure Prepared where
  documents : List Document
  locations : List String
  sheet : Stylesheet

/-- The documents of a run and the locations of its sheets. -/
def findSheets (options : Options) (sources texts : List String) :
    Except Failure (List Document × List String) := do
  let documents := documentsOf options sources texts
  if documents.isEmpty then throw .noDocuments
  let locations ← sheetLocations options documents
  if locations.isEmpty && options.extraCss == "" then throw .noSheets
  return (documents, locations)

/-- The notes about the sheet of a run while its source is read. -/
def sourceNotes (source : String) : List Note :=
  (Stylesheet.droppedDeclarations source).map .dropped

/-- The documents, the locations of the sheets and the sheet of a run. -/
def prepare (world : Fetch.World) (options : Options) (sources : List String) :
    Except Failure Prepared × Journal :=
  let loaded := fetchTexts world options sources
  match loaded.1 with
  | .error failure => (.error failure, loaded.2)
  | .ok texts =>
      let journal :=
        loaded.2.append ⟨[], sheetNotes options (documentsOf options sources texts)⟩
      match findSheets options sources texts with
      | .error failure => (.error failure, journal)
      | .ok (documents, locations) =>
          let sheets := fetchTexts world options locations
          let journal := journal.append sheets.2
          match sheets.1 with
          | .error failure => (.error failure, journal)
          | .ok texts =>
              let source := joinedSource options texts
              let journal := journal.append ⟨[], sourceNotes source⟩
              match Stylesheet.parse source with
              | .error error => (.error (.unfinished error), journal)
              | .ok sheet => (.ok ⟨documents, locations, sheet⟩, journal)

/-- The result of a run that reduces a sheet. -/
def Prepared.result (prepared : Prepared) (reduced : Stylesheet) : Result where
  sheet := reduced
  report := {
    documents := prepared.documents.map (·.location)
    sheets := prepared.locations
    before := Counts.ofSheet prepared.sheet
    after := Counts.ofSheet reduced }

/-- A run from some sources, by an oracle that knows some pages. -/
def run (world : Fetch.World) (options : Options) (sources : List String) (pages : Pages) :
    Outcome :=
  match prepare world options sources with
  | (.error failure, journal) => ⟨.error failure, pages, journal⟩
  | (.ok prepared, journal) =>
      let reduced :=
        Usage.reduce Usage.staticOracle prepared.documents prepared.sheet options.keep pages
      let asked :=
        match Selector.keepEntries options.keep with
        | .ok _ => usageNotes prepared.documents prepared.sheet pages
        | .error _ => []
      match reduced.1 with
      | .error error => ⟨.error (.reduce error), reduced.2, journal.append ⟨[], asked⟩⟩
      | .ok sheet =>
          let result := prepared.result sheet
          ⟨.ok result, reduced.2, journal.append ⟨[], asked ++ [.finished result.report]⟩⟩

end StyleSieve.Run
