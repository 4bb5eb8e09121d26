import StyleSieve.Css.Statement
import StyleSieve.Text.Quoted

/-!
# Selectors that cannot be matched

A selector may be refused, which is reported and has no other consequence.  A
few selectors are beyond what matching can handle at all.
-/

namespace StyleSieve.Selector

open Css

/-- Why a selector is refused. -/
inductive Refusal where
  | unexpected (found : Component)
  | noCompound (found : Option Component)
  | noClassName (found : Option Component)
  | noPseudoElement (found : Option Component)
  | unknownPseudoElement (found : Component) (name : String)
  | noPseudo (found : Option Component)
  | unknownPrefix (found : Component) (name : String)
  | noLocalName (found : Component)
  | noAttributeName (found : Option Component)
  | noOperator (found : Component)
  | noValue (found : Option Component)
  | noCloser (found : Component)
  | unknownPseudoClass (name : String)
  | badArguments (name : String)
  deriving DecidableEq, Repr

/-- The short form of a component in a report. -/
def shortForm : Component → String
  | .token _ token =>
      match token with
      | .whitespace _ => "<WhitespaceToken>"
      | .comment text => "<Comment " ++ String.ofList text ++ ">"
      | .ident name => "<IdentToken " ++ String.ofList name ++ ">"
      | .atKeyword name => "<AtKeywordToken @" ++ String.ofList name ++ ">"
      | .hash name _ => "<HashToken #" ++ String.ofList name ++ ">"
      | .string .. => "<StringToken " ++ String.ofList token.write ++ ">"
      | .url .. => "<URLToken " ++ String.ofList token.write ++ ">"
      | .number spelling => "<NumberToken " ++ String.ofList spelling ++ ">"
      | .percentage spelling => "<PercentageToken " ++ String.ofList spelling ++ "%>"
      | .dimension spelling unit =>
          "<DimensionToken " ++ String.ofList spelling ++ String.ofList unit ++ ">"
      | .unicodeRange first last =>
          "<UnicodeRangeToken " ++ toString first ++ " " ++ toString last ++ ">"
      | .delim text => "<LiteralToken " ++ String.ofList text ++ ">"
      | .fault cause => "<ParseError " ++ faultName cause ++ ">"
  | .block _ .round _ => "<ParenthesesBlock ( … )>"
  | .block _ .square _ => "<SquareBracketsBlock [ … ]>"
  | .block _ .curly _ => "<CurlyBracketsBlock \x7b … \x7d>"
  | .block _ (.call name) _ => "<FunctionBlock " ++ String.ofList name ++ "( … )>"
where
  /-- The name of a fault. -/
  faultName : Fault → String
    | .badString => "bad-string"
    | .badUrl => "bad-url"
    | .unclosedString => "eof-in-string"
    | .unclosedUrl => "eof-in-url"
    | .strayCloser closer => closer.toString

/-- The short form of a component that may be missing. -/
def shortForm? : Option Component → String
  | some component => shortForm component
  | none => "None"

/-- The wording of a refusal, next to the component that it is about. -/
def aboutComponent (found wording : String) : String :=
  "(" ++ found ++ ", " ++ Text.quoted wording ++ ")"

/-- The report of a refusal. -/
def Refusal.message : Refusal → String
  | .unexpected found =>
      aboutComponent (shortForm found) ("unexpected " ++ found.typeName ++ " token.")
  | .noCompound found =>
      aboutComponent (shortForm? found)
        ("expected a compound selector, got " ++ (found.map (·.typeName)).getD "EOF")
  | .noClassName found =>
      aboutComponent (shortForm? found) ("Expected a class name, got " ++ shortForm? found)
  | .noPseudoElement found =>
      aboutComponent (shortForm? found)
        ("Expected a pseudo-element name, got " ++ shortForm? found)
  | .unknownPseudoElement found name =>
      aboutComponent (shortForm found)
        ("Expected a supported pseudo-element, got " ++ name)
  | .noPseudo found =>
      aboutComponent (shortForm? found) ("unexpected " ++ shortForm? found ++ " token.")
  | .unknownPrefix found name =>
      aboutComponent (shortForm found) ("undefined namespace prefix: " ++ name)
  | .noLocalName found =>
      aboutComponent (shortForm found) ("expected local name, got " ++ found.typeName)
  | .noAttributeName found =>
      aboutComponent (shortForm? found) ("expected attribute name, got " ++ shortForm? found)
  | .noOperator found =>
      aboutComponent (shortForm found)
        ("expected attribute selector operator, got " ++ shortForm found)
  | .noValue found =>
      aboutComponent (shortForm? found)
        ("expected attribute value, got " ++ (found.map (·.typeName)).getD "None")
  | .noCloser found =>
      aboutComponent (shortForm found) ("expected ], got " ++ found.typeName)
  | .unknownPseudoClass name =>
      "('Unknown pseudo-class', " ++ Text.quoted name ++ ")"
  | .badArguments name => "Invalid arguments for :" ++ name ++ "()"

/-- What matching cannot handle: a name that ends after its bar, an attribute in
any namespace, a choice between nothing, a step that a number should follow, a
plus sign that stands alone, and arguments that are no words. -/
inductive Defect where
  | nameEnds
  | anyNamespace
  | emptyChoice
  | stepEnds
  | loneSign
  | wordlessArgument
  deriving DecidableEq, Repr

/-- Why a selector has no meaning. -/
inductive Failure where
  | refused (refusal : Refusal)
  | defect (defect : Defect)
  deriving DecidableEq, Repr

end StyleSieve.Selector
