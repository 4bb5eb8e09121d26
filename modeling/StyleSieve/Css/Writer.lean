import StyleSieve.Css.Component
import StyleSieve.Css.Name

/-!
# Writing components

Components are written so that scanning the text gives them back: characters
that would end a name, a string or an address are escaped, and an empty comment
keeps two tokens apart that would otherwise be read as one.
-/

namespace StyleSieve.Css

/-- The upper-case hexadecimal digits of a number. -/
def hexDigits (value : Nat) : List Char :=
  (Nat.toDigits 16 value).map Char.toUpper

/-- A line break as an escape. -/
def escapedBreak? (c : Char) : Option (List Char) :=
  if c == '\n' then some "\\A ".toList
  else if c == '\r' then some "\\D ".toList
  else if c == '\x0c' then some "\\C ".toList
  else none

/-- A character of a name after the first ones. -/
def writeNameChar (c : Char) : List Char :=
  if isNameChar c then [c] else (escapedBreak? c).getD ['\\', c]

/-- A name with no condition on its first character. -/
def writeName (name : List Char) : List Char :=
  name.flatMap writeNameChar

/-- The first character of an identifier. -/
def writeIdentStart (c : Char) : List Char :=
  if isNameStart c then [c]
  else if c.isDigit then '\\' :: (hexDigits c.toNat ++ [' '])
  else (escapedBreak? c).getD ['\\', c]

/-- An identifier. -/
def writeIdent : List Char → List Char
  | [] => []
  | ['-'] => ['\\', '-']
  | '-' :: '-' :: rest => '-' :: '-' :: writeName rest
  | '-' :: c :: rest => '-' :: (writeIdentStart c ++ writeName rest)
  | c :: rest => writeIdentStart c ++ writeName rest

/-- A character between the quotes of a string. -/
def writeStringChar (c : Char) : List Char :=
  if c == '"' || c == '\\' then ['\\', c] else (escapedBreak? c).getD [c]

/-- A character of an address. -/
def writeUrlChar (c : Char) : List Char :=
  if c == '\'' || c == '"' || c == '\\' || c == ' ' || c == '(' || c == ')' then ['\\', c]
  else if c == '\t' then "\\9 ".toList
  else (escapedBreak? c).getD [c]

/-- A unit after its number; a unit that starts like an exponent is escaped. -/
def writeUnit (unit : List Char) : List Char :=
  match unit with
  | [c] => if c == 'e' || c == 'E' then "\\65 ".toList else writeIdent unit
  | c :: '-' :: rest =>
      if c == 'e' || c == 'E' then "\\65 ".toList ++ writeName ('-' :: rest)
      else writeIdent unit
  | _ => writeIdent unit

/-- The text of a fault. -/
def Fault.write : Fault → List Char
  | .badString => "\"[bad string]\n".toList
  | .badUrl => "url([bad url])".toList
  | .unclosedString | .unclosedUrl => []
  | .strayCloser closer => [closer]

/-- The text of a token. -/
def Token.write : Token → List Char
  | .whitespace text => text
  | .comment text => "/*".toList ++ text ++ "*/".toList
  | .ident name => writeIdent name
  | .atKeyword name => '@' :: writeIdent name
  | .hash name true => '#' :: writeIdent name
  | .hash name false => '#' :: writeName name
  | .string value closed =>
      '"' :: (value.flatMap writeStringChar ++ if closed then ['"'] else [])
  | .url value closed =>
      "url(".toList ++ (value.flatMap writeUrlChar ++ if closed then [')'] else [])
  | .number spelling => spelling
  | .percentage spelling => spelling ++ ['%']
  | .dimension spelling unit => spelling ++ writeUnit unit
  | .unicodeRange first last =>
      "U+".toList ++ hexDigits first ++
        if first = last then [] else '-' :: hexDigits last
  | .delim text => text
  | .fault cause => cause.write

/-- The kinds of component that matter where two of them touch. -/
inductive Kind where
  | whitespace
  | ident
  | atKeyword
  | hash
  | url
  | number
  | percentage
  | dimension
  | unicodeRange
  | call
  | round
  | delim (text : String)
  | other
  deriving DecidableEq, Repr

/-- The kind of a component. -/
def Component.kind : Component → Kind
  | .token _ (.whitespace _) => .whitespace
  | .token _ (.ident _) => .ident
  | .token _ (.atKeyword _) => .atKeyword
  | .token _ (.hash ..) => .hash
  | .token _ (.url ..) => .url
  | .token _ (.number _) => .number
  | .token _ (.percentage _) => .percentage
  | .token _ (.dimension ..) => .dimension
  | .token _ (.unicodeRange ..) => .unicodeRange
  | .token _ (.delim text) => .delim (String.ofList text)
  | .token .. => .other
  | .block _ (.call _) _ => .call
  | .block _ .round _ => .round
  | .block .. => .other

/-- Whether two kinds of component would run together when one is written
directly after the other. -/
def Kind.runsInto (before after : Kind) : Bool :=
  match before with
  | .ident =>
      after ∈ [.ident, .call, .url, .number, .percentage, .dimension, .unicodeRange,
        .delim "-", .delim "-->", .round]
  | .atKeyword | .hash | .dimension =>
      after ∈ [.ident, .call, .url, .number, .percentage, .dimension, .unicodeRange,
        .delim "-", .delim "-->"]
  | .number | .delim "#" | .delim "-" =>
      after ∈ [.ident, .call, .url, .number, .percentage, .dimension, .unicodeRange]
  | .delim "@" => after ∈ [.ident, .call, .url, .unicodeRange, .delim "-"]
  | .unicodeRange =>
      after ∈ [.number, .percentage, .dimension, .ident, .call, .delim "?"]
  | .delim "." | .delim "+" => after ∈ [.number, .percentage, .dimension]
  | .delim "$" | .delim "*" | .delim "^" | .delim "~" => after == .delim "="
  | .delim "|" => after ∈ [.delim "=", .delim "|"]
  | .delim "/" => after == .delim "*"
  | _ => false

/-- Whether a component is white space that starts with a newline. -/
def Component.startsWithNewline : Component → Bool
  | .token _ (.whitespace ('\n' :: _)) => true
  | _ => false

/-- What is written between a component of kind `before` and the next one.  A
lone backslash stays one only before a newline. -/
def separator (before : Kind) (next : Component) : List Char :=
  if before.runsInto next.kind then "/**/".toList
  else if before == .delim "\\" && !next.startsWithNewline then ['\n']
  else []

/-- Whether a call leaves its closer out: a string without an end stands last
in it, or in the last one of the calls nested in its last argument. -/
def Component.endsInString : Component → Bool
  | .token _ (.fault .unclosedString) => true
  | .block _ (.call _) content => lastEndsInString content
  | _ => false
where
  /-- The same for the last of some components. -/
  lastEndsInString : List Component → Bool
    | [] => false
    | [last] => last.endsInString
    | _ :: rest => lastEndsInString rest

mutual

/-- The text of a component. -/
def Component.write : Component → List Char
  | .token _ token => token.write
  | .block _ .round content => '(' :: (writeFrom .other content ++ [')'])
  | .block _ .square content => '[' :: (writeFrom .other content ++ [']'])
  | .block _ .curly content => '\x7b' :: (writeFrom .other content ++ ['\x7d'])
  | .block offset (.call name) content =>
      writeIdent name ++ '(' :: (writeFrom .other content ++
        if Component.endsInString (.block offset (.call name) content) then [] else [')'])

/-- The text of components after one of kind `before`. -/
def writeFrom (before : Kind) : List Component → List Char
  | [] => []
  | next :: rest => separator before next ++ next.write ++ writeFrom next.kind rest

end

/-- The text of a list of components. -/
def write (components : List Component) : List Char :=
  writeFrom .other components

end StyleSieve.Css
