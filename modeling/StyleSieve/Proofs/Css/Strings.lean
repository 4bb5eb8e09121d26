import StyleSieve.Css.Scanner
import StyleSieve.Proofs.Css.Names

/-!
# Reading written strings and addresses

The text of a string is written between double quotes, and an address between
`url(` and its closer.  Both are read back as a whole, whatever follows; an address
may hold no control characters, which the writer leaves as they are.
-/

namespace StyleSieve.Css

/-! ## Strings -/

theorem takeString_cons {c : Char} (notQuote : c ≠ '"') (notBackslash : c ≠ '\\')
    (notBreak : c ≠ '\n') (rest : List Char) :
    takeString '"' (c :: rest) =
      (c :: (takeString '"' rest).1, (takeString '"' rest).2.1, (takeString '"' rest).2.2) := by
  rw [takeString]
  simp [notQuote, notBackslash, notBreak]

theorem takeString_escape {rest : List Char} (some : rest ≠ []) (isEscape : escapes rest = true) :
    takeString '"' ('\\' :: rest) =
      ((escaped rest).1 :: (takeString '"' (escaped rest).2).1,
        (takeString '"' (escaped rest).2).2.1, (takeString '"' (escaped rest).2).2.2) := by
  rw [takeString]
  simp [some, isEscape]

/-- A line break in a string is read back from its code. -/
theorem takeString_break {c : Char} {text : List Char} (isBreak : escapedBreak? c = some text)
    (rest : List Char) :
    takeString '"' (text ++ rest) =
      (c :: (takeString '"' rest).1, (takeString '"' rest).2.1, (takeString '"' rest).2.2) := by
  obtain ⟨digit, rfl, isHex, rfl⟩ := escapedBreak?_eq_some isBreak
  rw [List.cons_append, List.cons_append, takeString_escape (List.cons_ne_nil _ _)
    (escapes_of_isHexDigit isHex _)]
  simp only [List.cons_append, List.nil_append, escaped_hexDigit isHex]

theorem takeString_writeStringChar (c : Char) (rest : List Char) :
    takeString '"' (writeStringChar c ++ rest) =
      (c :: (takeString '"' rest).1, (takeString '"' rest).2.1, (takeString '"' rest).2.2) := by
  unfold writeStringChar
  cases special : c == '"' || c == '\\' with
  | true =>
      have notHex : isHexDigit c = false ∧ c ≠ '\n' := by
        rcases Bool.or_eq_true _ _ ▸ special with same | same <;>
          rw [beq_iff_eq.1 same] <;> decide
      rw [if_pos rfl, List.cons_append, List.cons_append,
        takeString_escape (List.cons_ne_nil _ _) (escapes_cons notHex.2 _),
        escaped_of_not_hex notHex.1]
      rfl
  | false =>
      rw [Bool.or_eq_false_iff, beq_eq_false_iff_ne, beq_eq_false_iff_ne] at special
      rw [if_neg Bool.false_ne_true]
      cases isBreak : escapedBreak? c with
      | some text => exact takeString_break isBreak rest
      | none =>
          exact takeString_cons special.1 special.2 (not_break_of_escapedBreak? isBreak) rest

/-- A string is read back from its text. -/
theorem takeString_write (value rest : List Char) :
    takeString '"' (value.flatMap writeStringChar ++ '"' :: rest) = (value, .closed, rest) := by
  induction value with
  | nil => rw [List.flatMap_nil, List.nil_append, takeString]; rfl
  | cons c more ih =>
      rw [List.flatMap_cons, List.append_assoc, takeString_writeStringChar, ih]

/-! ## Addresses -/

theorem takeUrl_cons {c : Char} (notCloser : c ≠ ')') (notSpace : isSpace c = false)
    (notBackslash : c ≠ '\\') (whole : breaksUrl c = false) (rest : List Char) :
    takeUrl (c :: rest) =
      (c :: (takeUrl rest).1, (takeUrl rest).2.1, (takeUrl rest).2.2) := by
  rw [takeUrl]
  simp [notCloser, notSpace, notBackslash, whole]

theorem takeUrl_escape {rest : List Char} (isEscape : escapes rest = true) :
    takeUrl ('\\' :: rest) =
      ((escaped rest).1 :: (takeUrl (escaped rest).2).1,
        (takeUrl (escaped rest).2).2.1, (takeUrl (escaped rest).2).2.2) := by
  rw [takeUrl]
  simp [isSpace, isEscape]

/-- An escape by one hexadecimal digit is read as its character. -/
theorem takeUrl_hexEscape {digit : Char} (isHex : isHexDigit digit = true) (rest : List Char) :
    takeUrl (['\\', digit, ' '] ++ rest) =
      (charOfCode (hexValue [digit]) :: (takeUrl rest).1, (takeUrl rest).2.1,
        (takeUrl rest).2.2) := by
  rw [List.cons_append, List.cons_append, takeUrl_escape (escapes_of_isHexDigit isHex _)]
  simp only [List.cons_append, List.nil_append, escaped_hexDigit isHex]

/-- Whether a character is a control character, which is written in an address as it
is although no address may hold it. -/
def isControl (c : Char) : Bool :=
  breaksUrl c && c != '"' && c != '\'' && c != '('

theorem takeUrl_writeUrlChar {c : Char} (noControl : isControl c = false) (rest : List Char) :
    takeUrl (writeUrlChar c ++ rest) =
      (c :: (takeUrl rest).1, (takeUrl rest).2.1, (takeUrl rest).2.2) := by
  unfold writeUrlChar
  split
  · rename_i special
    have notHex : isHexDigit c = false ∧ c ≠ '\n' := by
      simp only [Bool.or_eq_true, beq_iff_eq] at special
      rcases special with ((((rfl | rfl) | rfl) | rfl) | rfl) | rfl <;> decide
    rw [List.cons_append, List.cons_append, takeUrl_escape (escapes_cons notHex.2 _),
      escaped_of_not_hex notHex.1]
    rfl
  · rename_i plain
    simp only [Bool.or_eq_true, beq_iff_eq, not_or] at plain
    split
    · rename_i isTab
      rw [beq_iff_eq.1 isTab]
      exact takeUrl_hexEscape (by decide) rest
    · rename_i notTab
      cases isBreak : escapedBreak? c with
      | some text =>
          obtain ⟨digit, rfl, isHex, rfl⟩ := escapedBreak?_eq_some isBreak
          exact takeUrl_hexEscape isHex rest
      | none =>
          have notSpace : isSpace c = false := by
            simp_all [isSpace, not_break_of_escapedBreak? isBreak]
          have whole : breaksUrl c = false := by
            simp_all [isControl]
          exact takeUrl_cons plain.2 notSpace plain.1.1.1.2 whole rest

/-- An address is read back from its text. -/
theorem takeUrl_write {value : List Char} (noControl : ∀ c ∈ value, isControl c = false)
    (rest : List Char) :
    takeUrl (value.flatMap writeUrlChar ++ ')' :: rest) = (value, .closed, rest) := by
  induction value with
  | nil => rw [List.flatMap_nil, List.nil_append, takeUrl]; rfl
  | cons c more ih =>
      rw [List.flatMap_cons, List.append_assoc,
        takeUrl_writeUrlChar (noControl c List.mem_cons_self),
        ih fun other member => noControl other (List.mem_cons_of_mem c member)]

end StyleSieve.Css
