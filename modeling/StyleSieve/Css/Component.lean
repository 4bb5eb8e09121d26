/-!
# Component values

A style sheet is read as a tree of component values: tokens, and blocks that
enclose component values between an opening and its closer.  Each component
remembers the number of characters before it, so that a diagnosis can name its
line and column.
-/

namespace StyleSieve.Css

/-- Scanning faults that stay in the tree as tokens of their own. -/
inductive Fault where
  | badString
  | badUrl
  | unclosedString
  | unclosedUrl
  | strayCloser (closer : Char)
  deriving DecidableEq, Repr

/-- Tokens that enclose nothing.  Numbers keep their spelling; names, strings
and addresses hold their text with escapes resolved. -/
inductive Token where
  | whitespace (text : List Char)
  | comment (text : List Char)
  | ident (name : List Char)
  | atKeyword (name : List Char)
  | hash (name : List Char) (isIdentifier : Bool)
  | string (value : List Char) (closed : Bool)
  | url (value : List Char) (closed : Bool)
  | number (spelling : List Char)
  | percentage (spelling : List Char)
  | dimension (spelling : List Char) (unit : List Char)
  | unicodeRange (first last : Nat)
  | delim (text : List Char)
  | fault (fault : Fault)
  deriving DecidableEq, Repr

/-- What opens a block. -/
inductive Opening where
  | round
  | square
  | curly
  | call (name : List Char)
  deriving DecidableEq, Repr

/-- The character that closes a block. -/
def Opening.closer : Opening → Char
  | .round | .call _ => ')'
  | .square => ']'
  | .curly => '}'

/-- A token or a block, with the number of characters before it. -/
inductive Component where
  | token (offset : Nat) (token : Token)
  | block (offset : Nat) (opening : Opening) (content : List Component)
  deriving Repr

namespace Component

mutual

/-- Decides whether two components are the same. -/
def decEq : (first second : Component) → Decidable (first = second)
  | .token offset value, .token offset' value' =>
      decidable_of_iff (offset = offset' ∧ value = value') (by simp)
  | .block offset opening content, .block offset' opening' content' =>
      have := decEqAll content content'
      decidable_of_iff (offset = offset' ∧ opening = opening' ∧ content = content') (by simp)
  | .token .., .block .. => isFalse nofun
  | .block .., .token .. => isFalse nofun

/-- Decides whether two lists of components are the same. -/
def decEqAll : (first second : List Component) → Decidable (first = second)
  | [], [] => isTrue rfl
  | component :: rest, component' :: rest' =>
      have := decEq component component'
      have := decEqAll rest rest'
      decidable_of_iff (component = component' ∧ rest = rest') (by simp)
  | [], _ :: _ => isFalse nofun
  | _ :: _, [] => isFalse nofun

end

instance : DecidableEq Component := decEq

/-- The number of characters before a component. -/
def offset : Component → Nat
  | .token offset _ => offset
  | .block offset _ _ => offset

/-- The token of a component that is not a block. -/
def token? : Component → Option Token
  | .token _ value => some value
  | .block .. => none

/-- Whether a component is the delimiter written `text`. -/
def isDelim (text : String) (component : Component) : Bool :=
  component.token? == some (.delim text.toList)

/-- Whether a component is white space. -/
def isWhitespace : Component → Bool
  | .token _ (.whitespace _) => true
  | _ => false

/-- Whether a component is a comment. -/
def isComment : Component → Bool
  | .token _ (.comment _) => true
  | _ => false

/-- The content of a block in curly brackets. -/
def curlyContent? : Component → Option (List Component)
  | .block _ .curly content => some content
  | _ => none

/-- The name of an at-keyword. -/
def atKeyword? : Component → Option (List Char)
  | .token _ (.atKeyword name) => some name
  | _ => none

mutual

/-- A component wherever it stands: without the numbers of characters before it
and before what it encloses. -/
def bare : Component → Component
  | .token _ value => .token 0 value
  | .block _ opening content => .block 0 opening (bareAll content)

/-- Some components wherever they stand. -/
def bareAll : List Component → List Component
  | [] => []
  | component :: rest => component.bare :: bareAll rest

end

end Component

/-- The line and column of a character, both counted from one. -/
structure Position where
  line : Nat
  column : Nat
  deriving DecidableEq, Repr

/-- The position that follows `before` in a text: a newline ends a line. -/
def Position.after (before : List Char) : Position :=
  ⟨before.count '\n' + 1, (before.reverse.takeWhile (· ≠ '\n')).length + 1⟩

end StyleSieve.Css
