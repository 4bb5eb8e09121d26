import StyleSieve.Pattern.Matching
import StyleSieve.Text.Datum
import StyleSieve.Text.Quoted

/-!
# Selectors to keep

Some selectors must stay in a sheet although no document uses them.  They are
listed as normalized selectors, or as patterns that are sought in them.
-/

namespace StyleSieve.Selector

open StyleSieve (Pattern)

/-- An entry of the list of selectors to keep. -/
inductive KeepEntry where
  | exact (text : String)
  | pattern (pattern : Pattern)
  deriving Repr

namespace KeepEntry

/-- The text that an entry is given by. -/
def text : KeepEntry → String
  | .exact text => text
  | .pattern sought => sought.source

/-- Whether an entry covers a normalized selector. -/
def covers (entry : KeepEntry) (selector : String) : Bool :=
  match entry with
  | .exact text => text == selector
  | .pattern sought => sought.foundIn selector

end KeepEntry

/-- What a caller may put on the list: a text, an entry, or other data, which
cannot be used. -/
inductive KeepValue where
  | text (text : String)
  | entry (entry : KeepEntry)
  | other (value : Text.Datum)
  deriving Repr

/-- Why a value cannot be put on the list. -/
inductive KeepError where
  | pattern (source : String) (failure : Pattern.Failure)
  | unusable (value : Text.Datum)
  deriving Repr

/-- The wording of the error. -/
def KeepError.message : KeepError → String
  | .pattern source failure =>
      "Invalid ignore pattern " ++ Text.quoted source ++ ": " ++ failure.message
  | .unusable value => "Unsupported ignore entry: " ++ value.write

/-- The pattern between two slashes, where a text has that form. -/
def betweenSlashes? (text : String) : Option String :=
  match text.toList with
  | '/' :: rest =>
      match rest.reverse with
      | '/' :: inner => if inner.isEmpty then none else some (String.ofList inner.reverse)
      | _ => none
  | _ => none

/-- The entry that a value stands for. -/
def KeepValue.toEntry : KeepValue → Except KeepError KeepEntry
  | .entry given => .ok given
  | .other value => .error (.unusable value)
  | .text spelling =>
      match betweenSlashes? spelling with
      | none => .ok (.exact spelling)
      | some source =>
          match Pattern.read source with
          | .ok pattern => .ok (.pattern pattern)
          | .error failure => .error (.pattern source failure)

/-- The entries that values stand for; the error is that of the first value that
cannot be used. -/
def keepEntries (values : List KeepValue) : Except KeepError (List KeepEntry) :=
  values.mapM KeepValue.toEntry

/-- Whether a normalized selector is covered by one of some entries. -/
def isKept (entries : List KeepEntry) (normalized : String) : Bool :=
  entries.any (·.covers normalized)

end StyleSieve.Selector
