import StyleSieve.Usage.Reduce
import StyleSieve.Usage.Static

/-!
# Sessions

In a session one sheet is filtered, pruned, reduced and asked about in any order, with one
oracle of fixed markup.  Every step works in the workspace that the steps before it left,
and some of them may have failed.
-/

namespace StyleSieve.Usage

/-- What a session works with: its sheet, and what its oracle remembers. -/
abbrev Session := Workspace Pages

/-- What is done in a session. -/
inductive SessionStep where
  | filter (keep : List Selector.KeepValue) (used : List String)
  | prune
  | reduce (documents : List Document) (keep : List Selector.KeepValue)
  | collect (document : Document)
  | ask (document : Document) (selectors : List String)
  | flatten

namespace SessionStep

/-- What a step does in the workspace.  A step that edits the sheet tells nothing. -/
def work : SessionStep → Work Pages StaticFailure (List String)
  | .filter keep used => do
      let entries ← Work.entries keep
      Work.filter entries used
      return []
  | .prune => do
      Work.change Stylesheet.prune
      return []
  | .reduce documents keep => do
      Work.reduce staticOracle documents keep
      return []
  | .collect document =>
      Work.told fun session =>
        let told := staticOracle.collect document session.sheet session.memory
        (told.1, { session with memory := told.2 })
  | .ask document selectors =>
      Work.told fun session =>
        let told := answer document selectors session.memory
        (told.1, { session with memory := told.2 })
  | .flatten => return (← get).sheet.selectors

end SessionStep

/-- What a step tells, or why it fails, and the session after it. -/
def Session.perform (session : Session) (step : SessionStep) :
    Except (ReduceError StaticFailure) (List String) × Session :=
  step.work.on session

end StyleSieve.Usage
