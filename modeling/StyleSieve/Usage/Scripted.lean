import StyleSieve.Usage.Oracle

/-!
# Oracles that follow a script

The script says for every document how long the oracle thinks and what it
answers.  The oracle remembers the questions.
-/

namespace StyleSieve.Usage

/-- What the oracle answers. -/
inductive Script where
  | fails (message : String)
  | returns (selectors : List String)
  | matching (selectors : List String)
  deriving Repr

/-- A document with its script. -/
structure ScriptedDocument where
  location : String
  ticks : Nat := 0
  script : Script
  deriving Repr

/-- The failure that a script asks for. -/
structure ScriptedFailure where
  document : String
  message : String
  deriving DecidableEq, Repr

/-- A question that was asked about a document. -/
structure Question where
  document : String
  selectors : List String
  deriving DecidableEq, Repr

namespace Script

/-- What the oracle answers about a document. -/
def answer (script : Script) (document : String) (selectors : List String) :
    Except ScriptedFailure (List String) :=
  match script with
  | .fails message => .error ⟨document, message⟩
  | .returns fixed => .ok fixed
  | .matching among => .ok (selectors.filter among.contains)

end Script

/-- The oracle that follows the scripts of the documents it is asked about. -/
def scriptedOracle : Oracle ScriptedDocument (List Question) ScriptedFailure where
  ask document selectors asked :=
    (⟨document.ticks, document.script.answer document.location selectors⟩,
      asked ++ [⟨document.location, selectors⟩])

end StyleSieve.Usage
