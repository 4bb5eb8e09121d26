import StyleSieve.Text.Surrogate

/-!
# Names and escapes

Names are runs of name characters and escapes.  A backslash starts an escape
unless a newline follows it; an escape is either up to six hexadecimal digits
with one optional blank after them, or the character itself.
-/

namespace StyleSieve.Css

/-- The character that stands for what cannot be represented. -/
def replacement : Char := '\uFFFD'

/-- Blanks of style sheets, after newlines have been normalized. -/
def isSpace (c : Char) : Bool := c == ' ' || c == '\n' || c == '\t'

/-- Whether a character is a hexadecimal digit. -/
def isHexDigit (c : Char) : Bool :=
  c.isDigit || ('a' ≤ c && c ≤ 'f') || ('A' ≤ c && c ≤ 'F')

/-- The value of a hexadecimal digit. -/
def hexDigitValue (c : Char) : Nat :=
  if c.isDigit then c.toNat - '0'.toNat
  else if 'a' ≤ c then c.toNat - 'a'.toNat + 10
  else c.toNat - 'A'.toNat + 10

/-- The value of a run of hexadecimal digits. -/
def hexValue (digits : List Char) : Nat :=
  digits.foldl (fun value digit => 16 * value + hexDigitValue digit) 0

/-- The character at a code point, where there is one that is not zero. -/
def charOfCode (code : Nat) : Char :=
  if code ≠ 0 ∧ code ≤ 0x10FFFF then Text.charAt code else replacement

/-- Whether a character may start a name. -/
def isNameStart (c : Char) : Bool :=
  c.isAlpha || c == '_' || c.toNat > 0x7F

/-- Whether a character may stand in a name. -/
def isNameChar (c : Char) : Bool :=
  isNameStart c || c.isDigit || c == '-'

/-- Whether a backslash with `rest` after it starts an escape. -/
def escapes (rest : List Char) : Bool :=
  rest.head? != some '\n'

/-- Whether a text starts with an identifier. -/
def startsIdent : List Char → Bool
  | '-' :: '\\' :: rest => escapes rest
  | '-' :: c :: _ => isNameStart c || c == '-'
  | '\\' :: rest => escapes rest
  | c :: _ => isNameStart c
  | [] => false

/-- The character that the escape after a backslash stands for, and the text
after the escape. -/
def escaped (text : List Char) : Char × List Char :=
  match text with
  | [] => (replacement, [])
  | c :: rest =>
      if isHexDigit c then
        let digits := (text.take 6).takeWhile isHexDigit
        let after := text.drop digits.length
        (charOfCode (hexValue digits),
          match after with
          | d :: later => if isSpace d then later else after
          | [] => [])
      else (c, rest)

theorem escaped_suffix (text : List Char) : (escaped text).2 <:+ text := by
  unfold escaped
  split
  · exact List.suffix_rfl
  · rename_i c rest
    split
    · dsimp only
      split
      · rename_i d later shape
        have whole : d :: later <:+ c :: rest := shape ▸ List.drop_suffix _ _
        split
        · exact (List.suffix_cons d later).trans whole
        · exact List.drop_suffix _ _
      · exact List.nil_suffix
    · exact List.suffix_cons c rest

theorem length_escaped_le (text : List Char) :
    (escaped text).2.length ≤ text.length :=
  (escaped_suffix text).length_le

/-- The name that a text starts with, escapes resolved, and the text after it. -/
def takeName (text : List Char) : List Char × List Char :=
  match text with
  | [] => ([], [])
  | c :: rest =>
      if isNameChar c then
        let (name, after) := takeName rest
        (c :: name, after)
      else if c == '\\' && escapes rest then
        let (name, after) := takeName (escaped rest).2
        ((escaped rest).1 :: name, after)
      else ([], text)
termination_by text.length
decreasing_by
  · simp
  · simpa using Nat.lt_succ_of_le (length_escaped_le rest)

theorem takeName_suffix (text : List Char) : (takeName text).2 <:+ text := by
  fun_induction takeName text with
  | case1 => exact List.suffix_rfl
  | case2 c rest _ name after shape ih =>
      rw [shape] at ih
      exact ih.trans (List.suffix_cons c rest)
  | case3 c rest _ _ name after shape ih =>
      rw [shape] at ih
      exact (ih.trans (escaped_suffix rest)).trans (List.suffix_cons c rest)
  | case4 => exact List.suffix_rfl

/-- A text with the lower-case forms of its ASCII letters. -/
def lowerAscii (text : List Char) : List Char :=
  text.map Char.toLower

end StyleSieve.Css
