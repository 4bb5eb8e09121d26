/-!
# Blank characters and line ends

Texts are trimmed and split at blank characters: the characters that Unicode
counts as white space for line layout, together with the four ASCII information
separators.  Trimming removes blanks at both ends and nothing else.
Texts from outside come with several line ends, of which one is used inside.
-/

namespace StyleSieve.Text

/-- Whether a character counts as blank. -/
def isBlank (c : Char) : Bool :=
  let code := c.toNat
  (9 ≤ code && code ≤ 13) || (0x1C ≤ code && code ≤ 0x20) || code == 0x85 ||
    code == 0xA0 || code == 0x1680 || (0x2000 ≤ code && code ≤ 0x200A) ||
    code == 0x2028 || code == 0x2029 || code == 0x202F || code == 0x205F ||
    code == 0x3000

/-- A text without the blanks at its end. -/
def trimEnd (text : List Char) : List Char :=
  (text.reverse.dropWhile isBlank).reverse

/-- A text without the blanks at its two ends. -/
def trim (text : List Char) : List Char :=
  trimEnd (text.dropWhile isBlank)

/-- A string without the blanks at its two ends. -/
def trimmed (text : String) : String :=
  String.ofList (trim text.toList)

/-- Whether a string holds blanks only. -/
def allBlank (text : String) : Bool :=
  text.toList.all isBlank

/-- The maximal runs of characters outside `separates`, in order. -/
def runs (separates : Char → Bool) : List Char → List (List Char)
  | [] => []
  | c :: rest =>
      if separates c then runs separates rest
      else
        match rest, runs separates rest with
        | next :: _, word :: words =>
            if separates next then [c] :: word :: words else (c :: word) :: words
        | _, words => [c] :: words

/-- The words of a text: its maximal runs of characters that are not blank. -/
def words (text : List Char) : List (List Char) :=
  runs isBlank text

/-- A text with a line feed for every line end: a carriage return ends a line
too, and one before a line feed belongs to it. -/
def plainLineEnds : List Char → List Char
  | '\r' :: '\n' :: rest => '\n' :: plainLineEnds rest
  | '\r' :: rest => '\n' :: plainLineEnds rest
  | c :: rest => c :: plainLineEnds rest
  | [] => []

/-- A string with a line feed for every line end. -/
def withPlainLineEnds (text : String) : String :=
  String.ofList (plainLineEnds text.toList)

end StyleSieve.Text
