import StyleSieve.Location.Url
import StyleSieve.Markup.Place
import StyleSieve.Selector.Parser
import StyleSieve.Selector.Position
import StyleSieve.Text.Blank
import StyleSieve.Text.LetterCase

/-!
# Matching selectors

A selector becomes a condition on places.  Conditions that cannot hold, or hold
everywhere, are recognized and make it unnecessary to look at other parts, so a
part that cannot be handled may go unnoticed.
-/

namespace StyleSieve.Selector

open Css (Component)
open Markup (Node Place)

/-- A condition on places: a choice between several.  A choice between nothing
cannot stand on its own, and a search for it is broken. -/
inductive Condition where
  | never
  | always
  | nothing
  | broken
  | choice (first : Place → Bool) (more : List (Place → Bool))

namespace Condition

/-- A condition with a single way to hold. -/
def single (holds : Place → Bool) : Condition := .choice holds []

/-- Whether a condition holds at a place. -/
def holds : Condition → Place → Bool
  | .always, _ => true
  | .choice first more, place => first place || more.any (· place)
  | _, _ => false

/-- Whether a condition is broken. -/
def isBroken : Condition → Bool
  | .broken => true
  | _ => false

/-- Whether a condition never holds for a reason that can be recognized. -/
def isNever : Condition → Bool
  | .never => true
  | _ => false

/-- Whether a condition always holds for a reason that can be recognized. -/
def isAlways : Condition → Bool
  | .always => true
  | _ => false

/-- All of some conditions. -/
def all (conditions : List Condition) : Condition :=
  match conditions.filter (!·.isAlways) with
  | [] => .always
  | [condition] => condition
  | several =>
      if several.any isNever then .never
      else if several.any isBroken then .broken
      else single fun place => several.all (·.holds place)

/-- Any of some conditions. -/
def any (conditions : List Condition) : Condition :=
  match conditions.filter (!·.isNever) with
  | [] => .never
  | first :: more =>
      if (first :: more).any isBroken then .broken
      else .choice first.holds (more.map (·.holds))

/-- None of some conditions, of which those that always hold are left out. -/
def none (conditions : List Condition) : Condition :=
  match conditions.filter (!·.isAlways) with
  | [] => .never
  | several =>
      if several.any isBroken then .broken
      else single fun place => !several.any (·.holds place)

/-- The ways in which a condition can hold, to be joined with those of others. -/
def ways? : Condition → Option (List (Place → Bool))
  | .never => some [fun _ => false]
  | .always => some [fun _ => true]
  | .choice first more => some (first :: more)
  | .nothing | .broken => Option.none

/-- One list of ways followed by another, where the last way of the first and
the first way of the second have to hold together. -/
def joinWays (first second : List (Place → Bool)) : List (Place → Bool) :=
  match first.reverse, second with
  | last :: before, next :: more =>
      before.reverse ++ (fun place => last place && next place) :: more
  | _, _ => first ++ second

/-- Several conditions in a row: a way of the last one and a way of the next one
bind more strongly than the choice between ways. -/
def inRow : List Condition → Condition
  | [] => .always
  | [.nothing] => .nothing
  | conditions =>
      match conditions.mapM ways? with
      | Option.none | some [] => .broken
      | some (first :: more) =>
          match more.foldl joinWays first with
          | [] => .never
          | way :: ways => .choice way ways

end Condition

/-- The words of a text in markup. -/
def markupWords (text : String) : List (List Char) :=
  Text.runs (fun c => c == ' ' || c == '\t' || c == '\r' || c == '\n' || c == '\x0c') text.toList

/-- Whether a text starts with another one. -/
def hasStart (start text : List Char) : Bool := start.isPrefixOf text

/-- Whether a text ends with another one. -/
def hasEnd (ending text : List Char) : Bool := ending.isSuffixOf text

/-- Whether a text holds another one. -/
def hasPart (part : List Char) : List Char → Bool
  | [] => part.isEmpty
  | c :: rest => part.isPrefixOf (c :: rest) || hasPart part rest

/-- A name as a string. -/
def nameText (name : List Char) : String := String.ofList name

/-- The condition on an attribute. -/
def AttributeTest.condition (test : AttributeTest) : Except Failure Condition :=
  if test.anyNamespace then .error (.defect .anyNamespace)
  else
    let name := nameText (Css.lowerAscii test.name)
    let fold := fun (text : List Char) => if test.ignoreCase then Text.lowercase text else text
    let present := fun (place : Place) => (place.self.attribute? name).isSome
    let value := fun (place : Place) =>
      fold ((place.self.attribute? name).getD "").toList
    .ok <|
      match test.comparison with
      | none => .single present
      | some (comparison, given) =>
          let sought := fold given
          match comparison with
          | .equals => .single fun place => present place && value place == sought
          | .hasWord =>
              if Text.words sought == [sought] then
                .single fun place => (markupWords (String.ofList (value place))).contains sought
              else .never
          | .dashed =>
              .choice (fun place => present place && value place == sought)
                [fun place => hasStart (sought ++ ['-']) (value place)]
          | .starts =>
              if sought.isEmpty then .never
              else .single fun place => hasStart sought (value place)
          | .ends =>
              if sought.isEmpty then .never
              else .single fun place => hasEnd sought (value place)
          | .contains =>
              if sought.isEmpty then .never
              else .single fun place => hasPart sought (value place)

/-- Whether an element has an attribute. -/
def hasAttribute (name : String) (place : Place) : Bool :=
  (place.self.attribute? name).isSome

/-- Whether an element is one of some kinds. -/
def isOneOf (tags : List String) (place : Place) : Bool :=
  tags.contains place.self.tag

/-- Pseudo-classes that no fixed document can decide. -/
def dynamicPseudos : List String :=
  ["visited", "hover", "active", "focus", "focus-within", "focus-visible", "target",
   "target-within", "current", "past", "future", "playing", "paused", "seeking", "buffering",
   "stalled", "muted", "volume-locked", "user-valid", "user-invalid"]

/-- Whether an element with an address has one. -/
def isLink (place : Place) : Bool :=
  isOneOf ["a", "area", "link"] place && hasAttribute "href" place

/-- Whether an address is relative: it has no scheme. -/
def isLocal (address : String) : Bool :=
  (Location.takeScheme? (Location.Url.significantChars address.toList)).isNone

/-- Elements that a form may enable. -/
def controls : List String := ["button", "input", "select", "textarea", "option"]

/-- Elements that enable others. -/
def controlGroups : List String := ["optgroup", "menuitem", "fieldset"]

/-- Whether an element is a box that is ticked. -/
def isTicked (place : Place) : Bool :=
  let kind := nameText (Css.lowerAscii ((place.self.attribute? "type").getD "").toList)
  isOneOf ["input", "menuitem"] place && hasAttribute "checked" place &&
    (kind == "checkbox" || kind == "radio")

/-- Whether an element is an option that is selected. -/
def isSelected (place : Place) : Bool :=
  isOneOf ["option"] place && hasAttribute "selected" place

/-- Whether an element starts with no text and holds no element. -/
def isEmpty (place : Place) : Bool :=
  !place.self.content.any Node.isElement &&
    match place.self.content with
    | .text text :: _ => text == ""
    | _ => true

/-- Whether no element in a list is of the kind of an element. -/
def noneAlike (place : Place) (others : List Node) : Bool :=
  others.all (·.tag != place.self.tag)

/-- The condition of a pseudo-class. -/
def pseudoCondition (name : List Char) : Except Failure Condition :=
  let text := nameText name
  if dynamicPseudos.contains text then .ok .never
  else
    match text with
    | "link" | "any-link" => .ok (.single isLink)
    | "local-link" =>
        .ok (.single fun place =>
          isLink place && isLocal ((place.self.attribute? "href").getD ""))
    | "enabled" =>
        .ok (.choice (fun place => isOneOf controls place && !hasAttribute "disabled" place)
          [fun place => isOneOf controlGroups place && !hasAttribute "disabled" place, isLink])
    | "disabled" =>
        .ok (.choice (fun place => isOneOf controls place && hasAttribute "disabled" place)
          [fun place => isOneOf controlGroups place && hasAttribute "disabled" place])
    | "checked" => .ok (.choice isTicked [isSelected])
    | "root" | "scope" => .ok (.single fun place => place.parent?.isNone)
    | "first-child" => .ok (.single fun place => place.before.isEmpty)
    | "last-child" => .ok (.single fun place => place.after.isEmpty)
    | "only-child" => .ok (.single fun place => place.before.isEmpty && place.after.isEmpty)
    | "first-of-type" => .ok (.single fun place => noneAlike place place.before)
    | "last-of-type" => .ok (.single fun place => noneAlike place place.after)
    | "only-of-type" =>
        .ok (.single fun place => noneAlike place place.before && noneAlike place place.after)
    | "empty" => .ok (.single isEmpty)
    | _ => .error (.refused (.unknownPseudoClass text))

/-- The language of an element, in lower case: that of the innermost element
around it which names one. -/
def language : Place → List Char
  | .outermost self => Css.lowerAscii ((self.attribute? "lang").getD "").toList
  | .inside parent _ self _ =>
      match self.attribute? "lang" with
      | some lang => Css.lowerAscii lang.toList
      | none => language parent

/-- The languages that arguments name: words or strings, with a word or a comma
after each but the last. -/
def languagesIn : List Component → Except Failure (List (List Char))
  | [] => .ok []
  | first :: rest =>
      let bad : Except Failure (List (List Char)) := .error (.refused (.badArguments "lang"))
      let named :=
        match first with
        | .token _ (.ident name) => some (Css.lowerAscii name)
        | .token _ (.string value _) => some (Css.lowerAscii value)
        | _ => none
      match named, rest with
      | none, _ => bad
      | some name, [] => .ok [name]
      | some name, separator :: more =>
          match separator with
          | .block .. | .token _ (.unicodeRange ..) | .token _ (.fault _) =>
              .error (.defect .wordlessArgument)
          | .token _ (.ident _) => (languagesIn more).map (name :: ·)
          | .token _ (.delim [',']) | .token _ (.string [','] _) =>
              (languagesIn more).map (name :: ·)
          | _ => bad

/-- The condition of being in one of some languages. -/
def languageCondition (languages : List (List Char)) : Condition :=
  let ways := languages.flatMap fun name =>
    [fun place => language place == name, fun place => hasStart (name ++ ['-']) (language place)]
  match ways with
  | [] => .nothing
  | first :: more => .choice first more

/-- From which end elements are counted, and whether only those of one kind
count. -/
structure Counting where
  fromEnd : Bool
  sameType : Bool
  deriving DecidableEq, Repr

/-- How a function counts elements. -/
def countingOf? (name : List Char) : Option Counting :=
  match nameText name with
  | "nth-child" => some ⟨false, false⟩
  | "nth-last-child" => some ⟨true, false⟩
  | "nth-of-type" => some ⟨false, true⟩
  | "nth-last-of-type" => some ⟨true, true⟩
  | _ => none

/-- The condition on the position of an element among those that satisfy a
condition, to which it belongs. -/
def positionCondition (counting : Counting) (progression : Progression) (among : Condition) :
    Condition :=
  match among with
  | .broken => .broken
  | _ =>
      .single fun place =>
        let others := if counting.fromEnd then place.following else place.previous
        let counted := others.filter fun other =>
          among.holds other && (!counting.sameType || other.self.tag == place.self.tag)
        among.holds place && progression.contains counted.length

/-- The condition of a function, where `among` is the condition after its word
`of`. -/
def functionCondition (name : List Char) (arguments : List Component) (hasOf : Bool)
    (among : Except Failure (Option Condition)) : Except Failure Condition := do
  if nameText name == "lang" then
    return languageCondition
      (← languagesIn (arguments.filter (!·.isGap)))
  else
    let text := nameText name
    let condition ← among
    match countingOf? name with
    | none => .error (.refused (.unknownPseudoClass text))
    | some counting =>
        if hasOf && condition.isNone then .error (.refused (.badArguments text))
        else
          match Progression.read (splitAtOf id arguments).1 with
          | .error defect => .error (.defect defect)
          | .ok none => .error (.refused (.badArguments text))
          | .ok (some progression) =>
              return positionCondition counting progression (condition.getD .always)

/-- The condition of standing in a relation to an element that satisfies a
condition. -/
def combinedCondition (combinator : Combinator) (left : Condition) : Condition :=
  match left with
  | .broken => .broken
  | _ =>
      match combinator with
      | .descendant => .single fun place => place.ancestors.any left.holds
      | .child => .single fun place => place.parent?.any left.holds
      | .next => .single fun place => place.previous.head?.any left.holds
      | .following => .single fun place => place.previous.any left.holds

/-- Both of two conditions, the first of which is not never. -/
def bothConditions (left right : Condition) : Condition :=
  match right with
  | .never => .never
  | .always => left
  | _ =>
      if left.isBroken || right.isBroken then .broken
      else .single fun place => right.holds place && left.holds place

/-- The places at which a relative selector looks from a place. -/
def relatedPlaces (combinator : Combinator) (place : Place) : List Place :=
  match combinator with
  | .descendant => place.descendants
  | .child => place.children
  | .next => place.following.take 1
  | .following => place.following

/-- The condition of having a related element that satisfies a condition. -/
def relatedCondition (combinator : Combinator) (condition : Condition) : Condition :=
  match condition with
  | .nothing | .broken => .broken
  | _ => .single fun place => (relatedPlaces combinator place).any condition.holds

/-- Any of some conditions, none of which has to be there. -/
def anyRelated (conditions : List Condition) : Condition :=
  match conditions with
  | [] => .nothing
  | first :: more =>
      if (first :: more).any (·.isBroken) then .broken
      else .choice first.holds (more.map (·.holds))

mutual

/-- The condition of a simple selector. -/
def Simple.condition : Simple → Except Failure Condition
  | .type name => .ok (.single fun place => place.self.tag == nameText (Css.lowerAscii name))
  | .noNamespace => .ok (.single fun _ => true)
  | .id name => .ok (.single fun place => place.self.attribute? "id" == some (nameText name))
  | .className name =>
      .ok (.single fun place =>
        (markupWords ((place.self.attribute? "class").getD "")).contains name)
  | .attribute test => test.condition
  | .pseudoClass name => pseudoCondition name
  | .function name arguments hasOf among failure =>
      functionCondition name arguments hasOf <|
        match conditionsOf among, failure with
        | .error error, _ => .error error
        | .ok _, some error => .error error
        | .ok [], none => .ok none
        | .ok conditions, none => .ok (some (.inRow conditions))
  | .not selectors => (conditionsOf selectors).map .none
  | .anyOf selectors => (conditionsOf selectors).map .any
  | .has selectors => (relativesOf selectors).map anyRelated

/-- The conditions of simple selectors. -/
def simplesOf : List Simple → Except Failure (List Condition)
  | [] => .ok []
  | simple :: rest => do
      let first ← simple.condition
      return first :: (← simplesOf rest)

/-- The condition of a complex selector.  What stands to the right of a
condition that never holds is not looked at. -/
def Complex.condition : Complex → Except Failure Condition
  | .compound simples => (simplesOf simples).map .all
  | .combined left combinator right => do
      let outer ← left.condition
      if outer.isNever then return .never
      else return bothConditions (combinedCondition combinator outer) (.all (← simplesOf right))

/-- The conditions of complex selectors. -/
def conditionsOf : List Complex → Except Failure (List Condition)
  | [] => .ok []
  | selector :: rest => do
      let first ← selector.condition
      return first :: (← conditionsOf rest)

/-- The conditions of relative selectors, without those that never hold. -/
def relativesOf : List Relative → Except Failure (List Condition)
  | [] => .ok []
  | .mk combinator selector :: rest => do
      let inner ← selector.condition
      let more ← relativesOf rest
      return if inner.isNever then more else relatedCondition combinator inner :: more

end

/-- The condition of a selector that stands on its own. -/
def Complex.wholeCondition (selector : Complex) : Except Failure Condition := do
  match ← selector.condition with
  | .nothing | .broken => .error (.defect .emptyChoice)
  | condition => return condition

/-- The conditions of a list of selectors. -/
def SelectorList.conditions (list : SelectorList) : Except Failure (List Condition) := do
  let conditions ← list.selectors.mapM Complex.wholeCondition
  match list.failure with
  | some failure => .error failure
  | none => return conditions

/-- The conditions of the selectors that a text spells, one of which has to
hold. -/
def conditionsOfText (text : String) : Except Failure (List Condition) :=
  (SelectorList.parse text).conditions

/-- Whether a list of selectors matches one of some places. -/
def matchesSome (conditions : List Condition) (places : List Place) : Bool :=
  places.any fun place => conditions.any (·.holds place)

end StyleSieve.Selector
