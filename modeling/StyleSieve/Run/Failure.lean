import StyleSieve.Fetch.Failure
import StyleSieve.Location.Url
import StyleSieve.Sheet.Reader
import StyleSieve.Usage.Reduce
import StyleSieve.Usage.Static

/-!
# Failures of runs

A run fails if one of its stages fails.  Most failures are reported; a few come
from inputs that a stage cannot handle, and have no report.
-/

namespace StyleSieve.Run

/-- Why a run fails. -/
inductive Failure where
  | noDocuments
  | noSheets
  | skip (failure : Pattern.Failure)
  | address (error : Location.UrlError)
  | fetch (failure : Fetch.Failure)
  | unfinished (error : UnfinishedRule)
  | reduce (error : Usage.ReduceError Usage.StaticFailure)

/-- The report of a failure, if it has one. -/
def Failure.report? : Failure → Option String
  | .noDocuments => some "No documents to process"
  | .noSheets => some "No stylesheets found"
  | .skip (.malformed error) => some ("Invalid ignore-sheets pattern: " ++ error.message)
  | .skip _ => none
  | .address _ => none
  | .fetch (.unavailable text) => some text.message
  | .fetch (.defect _) => none
  | .unfinished error => some error.message
  | .reduce (.keep (.pattern source (.malformed error))) =>
      some (Selector.KeepError.message (.pattern source (.malformed error)))
  | .reduce (.keep _) => none
  | .reduce (.usage (.noElement location)) =>
      some (Usage.StaticFailure.message (.noElement location))
  | .reduce (.usage (.defect _)) => none

end StyleSieve.Run
