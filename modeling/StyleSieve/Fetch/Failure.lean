import StyleSieve.Fetch.Entry
import StyleSieve.Fetch.Message
import StyleSieve.Fetch.Target
import StyleSieve.Text.Quoted

/-!
# Failures of fetching

A text that cannot be had is reported with its location.  Some locations and
responses end in a defect instead, about which nothing is reported.
-/

namespace StyleSieve.Fetch

/-- Why the text at a location cannot be had: there is no file, or it may not be
read, or its bytes are not UTF-8, a response has an error status, or there was
trouble on the way. -/
inductive Problem where
  | unopened (path : String)
  | closed (path : String)
  | undecodable (error : Text.Utf8Error)
  | status (code : Nat)
  | trouble (kind : Trouble) (wording : String)
  deriving DecidableEq, Repr

/-- A text that cannot be had: its location, and why. -/
structure Unavailable where
  location : String
  problem : Problem
  deriving DecidableEq, Repr

/-- The report about a text that cannot be had. -/
def Unavailable.message (text : Unavailable) : String :=
  match text.problem with
  | .unopened path => "Could not open " ++ path
  | .closed path =>
      "Could not read " ++ text.location ++ ": [Errno 13] Permission denied: " ++ Text.quoted path
  | .undecodable error => "Could not read " ++ text.location ++ ": " ++ error.message
  | .status code => "Could not fetch " ++ text.location ++ ": HTTP " ++ toString code
  | .trouble kind wording =>
      if kind.isTimeout then "Timed out fetching " ++ text.location
      else "Could not fetch " ++ text.location ++ ": " ++ wording

/-- What fetching cannot handle: an address that is none, an address that does
not say where it goes, header fields that cannot be sent, a character set whose
codec ends in an error of some kind, and a path that nothing can be told about,
since a directory may not be searched or a name is too long. -/
inductive Defect where
  | invalidAddress
  | undirected (address : String)
  | unsendableHeader
  | unspellable (kind : String)
  | closedParent
  | nameTooLong
  deriving DecidableEq, Repr

/-- Why a text is not fetched. -/
inductive Failure where
  | unavailable (text : Unavailable)
  | defect (defect : Defect)
  deriving DecidableEq, Repr

end StyleSieve.Fetch
