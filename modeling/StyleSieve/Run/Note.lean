import StyleSieve.Run.Report
import StyleSieve.Selector.Refusal
import StyleSieve.Sheet.Reader
import StyleSieve.Text.Quoted

/-!
# Notes

While it works a run takes notes, for those who want to follow it.
-/

namespace StyleSieve.Run

/-- A note: a text is fetched, a reference starts at the root but no root
directory is known, a sheet is skipped, a declaration is dropped, a document is
blank, a selector is refused, and how many selectors were found, in one document
and in all, and what the run ended with. -/
inductive Note where
  | fetching (location : String)
  | rootless (reference source : String)
  | skipped (location : String)
  | dropped (declaration : DroppedDeclaration)
  | blank (location : String)
  | refused (selector : String) (refusal : Selector.Refusal)
  | answered (location : String) (found asked : Nat)
  | collected (selectors documents : Nat)
  | finished (report : Report)

namespace Note

/-- Whether a note is about a result rather than about details. -/
def isResult : Note → Bool
  | .skipped _ | .collected .. | .finished _ => true
  | _ => false

/-- The wording of a note. -/
def message : Note → String
  | .fetching location => "Fetching " ++ location
  | .rootless reference source =>
      "Absolute reference " ++ Text.quoted reference ++ " in " ++ source ++
        " with no htmlroot; joining onto document directory"
  | .skipped location => "Skipping ignored stylesheet " ++ location
  | .dropped declaration =>
      "Dropping invalid declaration at " ++ toString declaration.position.line ++ ":" ++
        toString declaration.position.column ++ " (" ++ declaration.cause.message ++ ")"
  | .blank location => location ++ " is empty; no selectors can match"
  | .refused selector refusal =>
      "Unsupported selector " ++ Text.quoted selector ++ " treated as unused: " ++
        refusal.message
  | .answered location found asked =>
      location ++ ": " ++ toString found ++ " of " ++ toString asked ++ " selectors matched"
  | .collected selectors documents =>
      "Collected " ++ toString selectors ++ " used selectors from " ++ toString documents ++
        " document(s)"
  | .finished report => report.summary

/-- The line for a note in a log. -/
def line (note : Note) : String :=
  (if note.isResult then "INFO" else "DEBUG") ++ " csstrim: " ++ note.message

end Note

end StyleSieve.Run
