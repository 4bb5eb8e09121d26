import StyleSieve.Run.Failure
import StyleSieve.Run.Note
import StyleSieve.Run.Report
import StyleSieve.Usage.Static

/-!
# The sheets of a run

A run reduces the sheets that its documents refer to, or those it is told to use
as if the first document referred to them.  Each sheet is taken once, where it
is first referred to, and the locations that a pattern is found in are skipped.
-/

namespace StyleSieve.Run

open Usage (Document)

/-- A reference to a sheet, and where it is made. -/
structure Reference where
  source : String
  reference : String
  deriving DecidableEq, Repr

/-- Where the references of a document are made. -/
def sourceOf (document : Document) : String :=
  if document.location = extraLocation then "" else document.location

/-- The references to sheets that a run follows, in order. -/
def references (options : Options) (documents : List Document) : List Reference :=
  if options.sheets.isEmpty then
    documents.flatMap fun document =>
      (Usage.sheetReferences document.html).map fun reference =>
        ⟨sourceOf document, reference⟩
  else
    (documents.take 1).flatMap fun document =>
      options.sheets.map fun reference => ⟨sourceOf document, reference⟩

/-- The location that a reference leads to. -/
def Reference.resolve (options : Options) (reference : Reference) :
    Except Location.UrlError String :=
  Location.resolve reference.source reference.reference options.lookup

/-- The locations of the sheets that are referred to, each of them once. -/
def referredSheets (options : Options) (documents : List Document) :
    Except Location.UrlError (List String) :=
  ((references options documents).mapM (Reference.resolve options)).map List.eraseDups

/-- Whether a location is to be skipped. -/
def isSkipped (patterns : List Pattern) (location : String) : Bool :=
  patterns.any fun pattern => pattern.foundIn location

/-- The patterns of the locations to skip. -/
def skipPatterns (options : Options) : Except Pattern.Failure (List Pattern) :=
  options.skip.mapM fun source => Pattern.read source

/-- The locations of the sheets of a run. -/
def sheetLocations (options : Options) (documents : List Document) :
    Except Failure (List String) := do
  let locations ← (referredSheets options documents).mapError .address
  let patterns ← (skipPatterns options).mapError .skip
  return locations.filter (!isSkipped patterns ·)

/-- The notes taken while the sheets of a run are found. -/
def sheetNotes (options : Options) (documents : List Document) : List Note :=
  let rootless :=
    ((references options documents).takeWhile fun reference =>
      (reference.resolve options).isOk).filterMap fun reference =>
        if Location.lacksRoot reference.source reference.reference options.lookup then
          some (.rootless (String.ofList (Location.withoutQuery reference.reference.toList))
            reference.source)
        else none
  match referredSheets options documents, skipPatterns options with
  | .ok locations, .ok patterns =>
      rootless ++ (locations.filter (isSkipped patterns)).map .skipped
  | _, _ => rootless

end StyleSieve.Run
