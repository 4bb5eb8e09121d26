import StyleSieve.Markup.Charset
import StyleSieve.Markup.Tree
import StyleSieve.Selector.Matching
import StyleSieve.Usage.Oracle

/-!
# Documents of fixed markup

A document refers to its style sheets by link elements.  Selectors are matched
against the elements that the markup of a document holds.  The elements of a
document are kept under its location, and a later document from the same location
is answered from them.
-/

namespace StyleSieve.Usage

open Markup (Place)

/-- A document: where it comes from, and its markup. -/
structure Document where
  location : String
  html : String
  deriving DecidableEq, Repr

/-! ## Links -/

/-- The reference of a link element to a style sheet, without blanks at its
ends. -/
def sheetReference? (element : Markup.Node) : Option String :=
  let kinds := Text.words (Css.lowerAscii ((element.attribute? "rel").getD "").toList)
  let reference := Text.trimmed ((element.attribute? "href").getD "")
  if element.tag == "link" && kinds.contains "stylesheet".toList && reference != "" then
    some reference
  else none

/-- The references of a document to style sheets, in document order.  Blank
markup has none, nor has markup without elements. -/
def sheetReferences (html : String) : List String :=
  if Text.allBlank html then []
  else
    match Markup.parse (Markup.readGuessing html) with
    | none => []
    | some root => root.elements.filterMap sheetReference?

/-! ## Matches -/

/-- Why the oracle cannot answer. -/
inductive StaticFailure where
  | noElement (location : String)
  | defect (defect : Selector.Defect)
  deriving DecidableEq, Repr

/-- The wording of a failure; a defect has none. -/
def StaticFailure.message : StaticFailure → String
  | .noElement location => "Could not parse " ++ location ++ ": Document is empty"
  | .defect _ => ""

/-- The elements of the documents seen so far, by location. -/
abbrev Pages := List (String × List Place)

namespace Document

/-- The places in a document, unless its markup holds no element.  Blank markup
is a document without elements. -/
def places? (document : Document) : Option (List Place) :=
  if Text.allBlank document.html then some []
  else (Markup.parse document.html).map (·.places)

/-- The places of a document, looked up or found in its markup, and the pages
with them. -/
def load (document : Document) (pages : Pages) : Except StaticFailure (List Place) × Pages :=
  match pages.lookup document.location with
  | some places => (.ok places, pages)
  | none =>
      match document.places? with
      | some places => (.ok places, pages ++ [(document.location, places)])
      | none => (.error (.noElement document.location), pages)

end Document

/-- What handles selectors: it tells whether a selector matches one of some
places, unless the selector is refused or cannot be handled. -/
abbrev Engine := List Place → String → Except Selector.Failure Bool

namespace Engine

variable (engine : Engine)

/-- Whether a selector matches one of some places.  A selector that is refused
matches nowhere. -/
def matchesIn (places : List Place) (selector : String) : Except StaticFailure Bool :=
  match engine places selector with
  | .ok found => .ok found
  | .error (.refused _) => .ok false
  | .error (.defect defect) => .error (.defect defect)

/-- Those of some selectors that match one of some places. -/
def matchesAmong (places : List Place) : List String → Except StaticFailure (List String)
  | [] => .ok []
  | selector :: rest => do
      let found ← matchesIn engine places selector
      let more ← matchesAmong places rest
      return if found then selector :: more else more

/-- What the oracle with an engine answers about a document. -/
def answer (document : Document) (selectors : List String) (pages : Pages) :
    Except StaticFailure (List String) × Pages :=
  let loaded := document.load pages
  (loaded.1.bind fun places => engine.matchesAmong places selectors, loaded.2)

/-- The oracle of fixed markup with an engine.  It never waits. -/
def oracle : Oracle Document Pages StaticFailure where
  ask document selectors pages :=
    let answered := engine.answer document selectors pages
    (⟨0, answered.1⟩, answered.2)

end Engine

/-- The engine that reads a selector as conditions on places. -/
def conditionEngine : Engine := fun places selector =>
  (Selector.conditionsOfText selector).map (Selector.matchesSome · places)

/-- Whether a selector matches one of some places by its conditions. -/
def matchesIn (places : List Place) (selector : String) : Except StaticFailure Bool :=
  conditionEngine.matchesIn places selector

/-- What the oracle of fixed markup answers about a document. -/
def answer (document : Document) (selectors : List String) (pages : Pages) :
    Except StaticFailure (List String) × Pages :=
  conditionEngine.answer document selectors pages

/-- The oracle of fixed markup. -/
def staticOracle : Oracle Document Pages StaticFailure :=
  conditionEngine.oracle

end StyleSieve.Usage
