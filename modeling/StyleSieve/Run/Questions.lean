import StyleSieve.Run.Note
import StyleSieve.Usage.Static

/-!
# Notes about questions

The notes that are taken while documents are asked for the selectors that they
use.
-/

namespace StyleSieve.Run

open Usage (Document Pages)

/-- The notes about those of some selectors that are refused, up to the first
that cannot be handled. -/
def refusals : List String → List Note
  | [] => []
  | selector :: rest =>
      match Selector.conditionsOfText selector with
      | .ok _ => refusals rest
      | .error (.refused refusal) => .refused selector refusal :: refusals rest
      | .error (.defect _) => []

/-- The notes about asking a document for some selectors, when some pages are
known. -/
def questionNotes (selectors : List String) (document : Document) (pages : Pages) : List Note :=
  if selectors.isEmpty then []
  else
    let blank :=
      if (pages.lookup document.location).isNone && Text.allBlank document.html then
        [Note.blank document.location]
      else []
    match (document.load pages).1 with
    | .error _ => blank
    | .ok places =>
        blank ++ refusals selectors ++
          match Usage.conditionEngine.matchesAmong places selectors with
          | .ok found => [.answered document.location found.length selectors.length]
          | .error _ => []

/-- The notes about asking documents one after the other. -/
def questionsNotes (selectors : List String) : List Document → Pages → List Note
  | [], _ => []
  | document :: rest, pages =>
      let later :=
        if selectors.isEmpty then pages else (Usage.answer document selectors pages).2
      questionNotes selectors document pages ++ questionsNotes selectors rest later

/-- The notes about reducing a sheet to what documents use. -/
def usageNotes (documents : List Document) (sheet : Stylesheet) (pages : Pages) : List Note :=
  questionsNotes (Usage.question sheet) documents pages ++
    match (Usage.staticOracle.usage documents sheet pages).1 with
    | .ok used => [.collected used.length documents.length]
    | .error _ => []

end StyleSieve.Run
