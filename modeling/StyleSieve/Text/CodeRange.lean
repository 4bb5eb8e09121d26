import StyleSieve.Text.Split

/-!
# Ranges of code points

Properties of characters outside ASCII are given by tables: lists of ranges of
code points, spelled in hexadecimal.
-/

namespace StyleSieve.Text

/-- The code points from `first` to `last`. -/
structure CodeRange where
  first : Nat
  last : Nat
  deriving DecidableEq, Repr

/-- The value of a run of upper-case hexadecimal digits. -/
def upperHexValue (digits : List Char) : Nat :=
  digits.foldl (fun value digit =>
    16 * value + if digit.isDigit then digit.toNat - 48 else digit.toNat - 55) 0

namespace CodeRange

/-- Whether a code point lies in a range. -/
def contains (range : CodeRange) (code : Nat) : Bool :=
  range.first ≤ code && code ≤ range.last

/-- The range that is spelled as its two ends, or as its only member. -/
def ofSpelling (spelling : List Char) : CodeRange :=
  match splitAtChar '-' spelling with
  | [first, last] => ⟨upperHexValue first, upperHexValue last⟩
  | _ => ⟨upperHexValue spelling, upperHexValue spelling⟩

/-- The ranges of a table, given line by line. -/
def table (lines : List String) : List CodeRange :=
  lines.flatMap fun line => (splitAtChar ' ' line.toList).map ofSpelling

end CodeRange

/-- Whether a code point lies in one of the ranges of a table. -/
def inTable (table : List CodeRange) (code : Nat) : Bool :=
  table.any (·.contains code)

end StyleSieve.Text
