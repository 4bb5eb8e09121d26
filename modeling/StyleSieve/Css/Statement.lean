import StyleSieve.Css.Writer

/-!
# Statements

The components of a block or of a whole sheet fall into statements.  A
statement that starts with an at-keyword ends at a semicolon or with a block in
curly brackets; in a declaration list any other statement ends at a semicolon.
-/

namespace StyleSieve.Css

/-- A statement that starts with an at-keyword. -/
structure AtRule where
  name : List Char
  prelude : List Component
  body : Option (List Component)

/-- The text of an at-rule: a semicolon stands for a body that is missing. -/
def AtRule.write (rule : AtRule) : List Char :=
  '@' :: (writeIdent rule.name ++ Css.write rule.prelude ++
    match rule.body with
    | none => [';']
    | some content => '\x7b' :: (Css.write content ++ ['\x7d']))

/-- Whether the components read so far start with an at-keyword. -/
def startsAtRule : List Component → Bool
  | first :: _ => first.atKeyword?.isSome
  | [] => false

/-- The at-rule with the components read before its end. -/
def AtRule.ofComponents? (read : List Component) (body : Option (List Component)) :
    Option AtRule :=
  match read with
  | first :: prelude => first.atKeyword?.map (⟨·, prelude, body⟩)
  | [] => none

/-- Whether white space or a comment, which separates and means nothing. -/
def Component.isGap (component : Component) : Bool :=
  component.isWhitespace || component.isComment

/-- The name of a component's type in a diagnosis. -/
def Component.typeName : Component → String
  | .token _ (.whitespace _) => "whitespace"
  | .token _ (.comment _) => "comment"
  | .token _ (.ident _) => "ident"
  | .token _ (.atKeyword _) => "at-keyword"
  | .token _ (.hash ..) => "hash"
  | .token _ (.string ..) => "string"
  | .token _ (.url ..) => "url"
  | .token _ (.number _) => "number"
  | .token _ (.percentage _) => "percentage"
  | .token _ (.dimension ..) => "dimension"
  | .token _ (.unicodeRange ..) => "unicode-range"
  | .token _ (.delim _) => "literal"
  | .token _ (.fault _) => "error"
  | .block _ (.call _) _ => "function"
  | .block _ .round _ => "() block"
  | .block _ .square _ => "[] block"
  | .block _ .curly _ => "\x7b\x7d block"

/-- Why a statement of a declaration list is no declaration. -/
inductive Invalid where
  | name (found : String)
  | noColon (found : Option String)
  | block
  deriving DecidableEq, Repr

/-- The wording of a diagnosis. -/
def Invalid.message : Invalid → String
  | .name found => "Expected <ident> for declaration name, got " ++ found ++ "."
  | .noColon none => "Expected ':' after declaration name, got EOF"
  | .noColon (some found) => "Expected ':' after declaration name, got " ++ found ++ "."
  | .block => "Declaration contains \x7b\x7d block"

/-- A statement of a declaration list. -/
inductive Entry where
  | declaration (name : List Char) (value : List Component) (important : Bool)
  | atRule (rule : AtRule)
  | invalid (offset : Nat) (cause : Invalid)

/-- How far the words `!important` have been read at the end of a value. -/
inductive Marking where
  | plain
  | bang
  | important
  deriving DecidableEq, Repr

/-- A value read so far: its components, those before its last exclamation
mark, whether it holds anything solid, and whether a block in curly brackets
follows something solid. -/
structure ValueReading where
  marking : Marking := .plain
  read : List Component := []
  beforeBang : List Component := []
  solid : Bool := false
  mixed : Bool := false

namespace ValueReading

/-- A value read one component further.  An exclamation mark counts only after
a plain component, so the second of two does not. -/
def step (value : ValueReading) (next : Component) : ValueReading :=
  let read := value.read ++ [next]
  if value.marking = .plain && next.isDelim "!" then
    { value with marking := .bang, beforeBang := value.read, read }
  else if value.marking = .bang && isImportant next then
    { value with marking := .important, read }
  else if next.isGap then { value with read }
  else
    { value with
      marking := .plain
      read
      solid := true
      mixed := value.mixed || (value.solid && next.curlyContent?.isSome) }
where
  /-- Whether a component is the word `important` in any case. -/
  isImportant : Component → Bool
    | .token _ (.ident word) => lowerAscii word == "important".toList
    | _ => false

/-- The reading of a whole value. -/
def ofComponents (value : List Component) : ValueReading :=
  value.foldl step {}

end ValueReading

/-- The declaration, or the diagnosis, of a statement with the given name
component and the components after it. -/
def Entry.ofDeclaration (name : Component) (rest : List Component) : Entry :=
  match name.token? with
  | some (.ident text) =>
      match rest.dropWhile Component.isGap with
      | [] => .invalid name.offset (.noColon none)
      | colon :: value =>
          if !colon.isDelim ":" then
            .invalid colon.offset (.noColon (some colon.typeName))
          else
            let reading := ValueReading.ofComponents value
            if reading.mixed then .invalid colon.offset .block
            else if reading.marking = .important then
              .declaration text reading.beforeBang true
            else .declaration text value false
  | _ => .invalid name.offset (.name name.typeName)

/-- The entries of a declaration list, where `read` holds the components read
since the last entry ended. -/
def entriesFrom (read : List Component) : List Component → List Entry
  | [] => finish read none
  | next :: rest =>
      if startsAtRule read then
        if next.isDelim ";" then finish read none ++ entriesFrom [] rest
        else
          match next.curlyContent? with
          | some content => finish read (some content) ++ entriesFrom [] rest
          | none => entriesFrom (read ++ [next]) rest
      else if next.isDelim ";" then finish read none ++ entriesFrom [] rest
      else if read.isEmpty && next.isGap then entriesFrom [] rest
      else entriesFrom (read ++ [next]) rest
where
  /-- The entry that the components read so far make up, if there are any. -/
  finish (read : List Component) (body : Option (List Component)) : List Entry :=
    match AtRule.ofComponents? read body with
    | some rule => [.atRule rule]
    | none =>
        match read with
        | first :: more => [Entry.ofDeclaration first more]
        | [] => []

/-- The entries of a declaration list. -/
def entries (content : List Component) : List Entry :=
  entriesFrom [] content

end StyleSieve.Css
