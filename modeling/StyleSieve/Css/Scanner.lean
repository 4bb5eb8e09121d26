import StyleSieve.Css.Component
import StyleSieve.Css.Name

/-!
# Scanning

The scanner cuts a text into lexemes: tokens, openings and closers.  Each step
reads the longest lexeme that the text starts with and leaves a shorter text,
so scanning ends.  Newlines are normalized before.
-/

namespace StyleSieve.Css

/-- What the scanner cuts a text into. -/
inductive Lexeme where
  | token (token : Token)
  | opening (opening : Opening)
  | closer (closer : Char)
  deriving DecidableEq, Repr

/-- The lexemes that one step reads, and the text after them.  An unclosed
string or address gives its token and then its fault. -/
abbrev Step := List Lexeme × List Char

/-- A text in which every line ends with a newline character and no character
is NUL. -/
def normalizeNewlines : List Char → List Char
  | [] => []
  | '\r' :: '\n' :: rest => '\n' :: normalizeNewlines rest
  | c :: rest =>
      (if c == '\r' || c == '\x0c' then '\n'
        else if c == '\x00' then replacement else c) :: normalizeNewlines rest

/-- The sign that a text starts with, if it does, and the text after it. -/
def takeSign : List Char → List Char × List Char
  | '+' :: rest => (['+'], rest)
  | '-' :: rest => (['-'], rest)
  | text => ([], text)

/-- The digits that a text starts with, and the text after them. -/
def takeDigits (text : List Char) : List Char × List Char :=
  (text.takeWhile Char.isDigit, text.dropWhile Char.isDigit)

/-- The unsigned number without exponent that a text starts with, if it starts
with one.  A point belongs to the number only when a digit follows it. -/
def takeMantissa? (text : List Char) : Option (List Char × List Char) :=
  let (whole, after) := takeDigits text
  match after with
  | '.' :: d :: rest =>
      if d.isDigit then
        let (fraction, later) := takeDigits (d :: rest)
        some (whole ++ '.' :: fraction, later)
      else if whole.isEmpty then none
      else some (whole, after)
  | _ => if whole.isEmpty then none else some (whole, after)

/-- The exponent that a text starts with, empty if it starts with none. -/
def takeExponent (text : List Char) : List Char × List Char :=
  match text with
  | e :: rest =>
      if e == 'e' || e == 'E' then
        let (sign, unsigned) := takeSign rest
        let (digits, after) := takeDigits unsigned
        if digits.isEmpty then ([], text) else (e :: (sign ++ digits), after)
      else ([], text)
  | [] => ([], [])

/-- The spelling of the number that a text starts with, if it starts with one,
and the text after it. -/
def takeNumber? (text : List Char) : Option (List Char × List Char) :=
  let (sign, unsigned) := takeSign text
  (takeMantissa? unsigned).map fun (mantissa, afterMantissa) =>
    let (exponent, after) := takeExponent afterMantissa
    (sign ++ mantissa ++ exponent, after)

/-- How the reading of a string ends. -/
inductive StringEnd where
  | closed
  | brokenLine
  | endOfText
  deriving DecidableEq, Repr

/-- The value of a string up to `quote`, how it ends, and the text after it. -/
def takeString (quote : Char) (text : List Char) :
    List Char × StringEnd × List Char :=
  match text with
  | [] => ([], .endOfText, [])
  | c :: rest =>
      if c == quote then ([], .closed, rest)
      else if c == '\\' then
        if rest.isEmpty then ([], .endOfText, [])
        else if escapes rest then
          let (value, ending, after) := takeString quote (escaped rest).2
          ((escaped rest).1 :: value, ending, after)
        else takeString quote (rest.drop 1)
      else if c == '\n' then ([], .brokenLine, text)
      else
        let (value, ending, after) := takeString quote rest
        (c :: value, ending, after)
termination_by text.length
decreasing_by
  · simpa using Nat.lt_succ_of_le (length_escaped_le rest)
  · simp only [List.length_drop, List.length_cons]
    omega
  · simp

/-- Characters that no address may hold outside an escape. -/
def breaksUrl (c : Char) : Bool :=
  c == '"' || c == '\'' || c == '(' || c.toNat ≤ 8 || c == '\x0b' ||
    (0x0E ≤ c.toNat && c.toNat ≤ 0x1F) || c == '\x7f'

/-- How the reading of an address ends. -/
inductive UrlEnd where
  | closed
  | broken
  | endOfText
  deriving DecidableEq, Repr

/-- The value of an address up to its closer, how it ends, and the text after
it. -/
def takeUrl (text : List Char) : List Char × UrlEnd × List Char :=
  match text with
  | [] => ([], .endOfText, [])
  | c :: rest =>
      if c == ')' then ([], .closed, rest)
      else if isSpace c then
        match rest.dropWhile isSpace with
        | [] => ([], .endOfText, [])
        | d :: later => if d == ')' then ([], .closed, later) else ([], .broken, d :: later)
      else if c == '\\' && escapes rest then
        let (value, ending, after) := takeUrl (escaped rest).2
        ((escaped rest).1 :: value, ending, after)
      else if breaksUrl c then ([], .broken, rest)
      else
        let (value, ending, after) := takeUrl rest
        (c :: value, ending, after)
termination_by text.length
decreasing_by
  · simpa using Nat.lt_succ_of_le (length_escaped_le rest)
  · simp

/-- The text after a broken address: what follows its first closer that no
backslash stands before. -/
def skipBrokenUrl : List Char → List Char
  | [] => []
  | '\\' :: ')' :: rest => skipBrokenUrl rest
  | ')' :: rest => rest
  | _ :: rest => skipBrokenUrl rest

/-- The code points of the range after `U+`, and the text after the range. -/
def takeUnicodeRange (text : List Char) : Nat × Nat × List Char :=
  let digits := (text.take 6).takeWhile isHexDigit
  let afterDigits := text.drop digits.length
  let marks := (afterDigits.take (6 - digits.length)).takeWhile (· == '?')
  let afterMarks := afterDigits.drop marks.length
  if marks ≠ [] then
    (hexValue (digits ++ marks.map fun _ => '0'),
      hexValue (digits ++ marks.map fun _ => 'F'), afterMarks)
  else
    match afterMarks with
    | '-' :: rest =>
        let last := (rest.take 6).takeWhile isHexDigit
        if last ≠ [] then (hexValue digits, hexValue last, rest.drop last.length)
        else (hexValue digits, hexValue digits, afterMarks)
    | _ => (hexValue digits, hexValue digits, afterMarks)

/-- The step for a text that starts with an identifier: a name, the opening of
a call, or an address. -/
def scanIdent (text : List Char) : Step :=
  match takeName text with
  | (name, '(' :: rest) =>
      let inner := rest.dropWhile isSpace
      let quoted := inner.head? == some '"' || inner.head? == some '\''
      if lowerAscii name == "url".toList && !quoted then
        match takeUrl inner with
        | (value, .closed, after) => ([.token (.url value true)], after)
        | (value, .endOfText, after) =>
            ([.token (.url value false), .token (.fault .unclosedUrl)], after)
        | (_, .broken, after) => ([.token (.fault .badUrl)], skipBrokenUrl after)
      else ([.opening (.call name)], rest)
  | (name, rest) => ([.token (.ident name)], rest)

/-- The step for a number with `spelling`, before `rest`. -/
def scanNumeric (spelling rest : List Char) : Step :=
  if startsIdent rest then
    let (unit, after) := takeName rest
    ([.token (.dimension spelling unit)], after)
  else
    match rest with
    | '%' :: after => ([.token (.percentage spelling)], after)
    | _ => ([.token (.number spelling)], rest)

/-- The step for a string opened by `quote`, before `rest`. -/
def scanString (quote : Char) (rest : List Char) : Step :=
  match takeString quote rest with
  | (value, .closed, after) => ([.token (.string value true)], after)
  | (value, .endOfText, after) =>
      ([.token (.string value false), .token (.fault .unclosedString)], after)
  | (_, .brokenLine, after) => ([.token (.fault .badString)], after)

/-- The text of a comment and the text after it; an unclosed comment holds all
that is left. -/
def takeComment : List Char → List Char × List Char
  | [] => ([], [])
  | '*' :: '/' :: rest => ([], rest)
  | c :: rest =>
      let (text, after) := takeComment rest
      (c :: text, after)

/-- A delimiter token. -/
def delim (text : String) : Lexeme := .token (.delim text.toList)

/-- The step for a text that starts with neither white space, a name nor a
number. -/
def scanSymbol (c : Char) (rest : List Char) : Step :=
  match c, rest with
  | '@', _ =>
      if startsIdent rest then
        let (name, after) := takeName rest
        ([.token (.atKeyword name)], after)
      else ([delim "@"], rest)
  | '#', d :: _ =>
      if isNameChar d || startsIdent rest then
        let (name, after) := takeName rest
        ([.token (.hash name (startsIdent rest))], after)
      else ([delim "#"], rest)
  | '\x7b', _ => ([.opening .curly], rest)
  | '[', _ => ([.opening .square], rest)
  | '(', _ => ([.opening .round], rest)
  | '\x7d', _ => ([.closer '\x7d'], rest)
  | ']', _ => ([.closer ']'], rest)
  | ')', _ => ([.closer ')'], rest)
  | '"', _ => scanString '"' rest
  | '\'', _ => scanString '\'' rest
  | '/', '*' :: later =>
      let (text, after) := takeComment later
      ([.token (.comment text)], after)
  | '<', '!' :: '-' :: '-' :: later => ([delim "<!--"], later)
  | '|', '|' :: later => ([delim "||"], later)
  | '~', '=' :: later => ([delim "~="], later)
  | '|', '=' :: later => ([delim "|="], later)
  | '^', '=' :: later => ([delim "^="], later)
  | '$', '=' :: later => ([delim "$="], later)
  | '*', '=' :: later => ([delim "*="], later)
  | _, _ => ([.token (.delim [c])], rest)

/-- Whether a text after its first character `u` goes on as a range of code
points. -/
def startsUnicodeRange : List Char → Bool
  | '+' :: c :: _ => isHexDigit c || c == '?'
  | _ => false

/-- One step of the scanner on a text with first character `c`. -/
def scan (c : Char) (rest : List Char) : Step :=
  if isSpace c then
    ([.token (.whitespace (c :: rest.takeWhile isSpace))], rest.dropWhile isSpace)
  else if (c == 'U' || c == 'u') && startsUnicodeRange rest then
    let (first, last, after) := takeUnicodeRange (rest.drop 1)
    ([.token (.unicodeRange first last)], after)
  else if c == '-' && rest.take 2 == "->".toList then ([delim "-->"], rest.drop 2)
  else if startsIdent (c :: rest) then scanIdent (c :: rest)
  else
    match takeNumber? (c :: rest) with
    | some (spelling, after) => scanNumeric spelling after
    | none => scanSymbol c rest

end StyleSieve.Css
