import StyleSieve.Fetch.Fetching
import StyleSieve.Location.Resolve
import StyleSieve.Selector.Keep
import StyleSieve.Sheet.Basic

/-!
# Options and reports

What a run is told besides the documents it starts from, and what it reports: the
report names what went into a run and counts what is left.
-/

namespace StyleSieve.Run

/-- The options of a run: where references are looked up, the references to use
instead of those in the documents, what to keep, patterns for the locations of
sheets to skip, a sheet and a document given as texts, and who sends
requests. -/
structure Options where
  lookup : Location.Lookup := {}
  sheets : List String := []
  keep : List Selector.KeepValue := []
  skip : List String := []
  extraCss : String := ""
  extraHtml : String := ""
  client : Fetch.Client := {}

/-- The location that stands for the document given as a text. -/
def extraLocation : String := "<raw html>"

/-- The numbers of style rules and of selectors in a sheet, at any depth. -/
structure Counts where
  rules : Nat
  selectors : Nat
  deriving DecidableEq, Repr

/-- The counts of a sheet. -/
def Counts.ofSheet (sheet : Stylesheet) : Counts :=
  ⟨sheet.ruleCount, sheet.selectorCount⟩

/-- The report of a run: the locations of its documents and of its sheets, and
the counts before and after. -/
structure Report where
  documents : List String
  sheets : List String
  before : Counts
  after : Counts
  deriving DecidableEq, Repr

/-- A report in one line. -/
def Report.summary (report : Report) : String :=
  toString report.documents.length ++ " document(s), " ++
    toString report.sheets.length ++ " stylesheet(s): rules " ++
    toString report.before.rules ++ " -> " ++ toString report.after.rules ++ ", selectors " ++
    toString report.before.selectors ++ " -> " ++ toString report.after.selectors

end StyleSieve.Run
