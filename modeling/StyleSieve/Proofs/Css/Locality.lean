import Mathlib.Data.Bool.AllAny
import StyleSieve.Proofs.Css.SettledText

/-!
# Locality of reading

A text is glued to another one at a comma, a semicolon, a colon, a blank or a curly bracket.
No reader of the scanner looks past such an edge, so the text before it is read as it is
read alone, unless its end is left open: in a comment, a string or an address, or in an
escape, which takes the first character after it.  This module shows it of each reader.
-/

namespace StyleSieve.Css

/-- The characters at which other text begins. -/
def edges : List Char :=
  [',', ';', ' ', '\n', '\x7b', '\x7d', ':']

theorem edge_spec {edge : Char} (isEdge : edge ∈ edges) :
    isNameChar edge = false ∧ isNameStart edge = false ∧ edge.isDigit = false ∧
      isHexDigit edge = false ∧ isExponentMark edge = false ∧
        edge ∉ ['\\', '-', '+', '.', '?', '>', '!', '*', '=', '|', '(', ')', '"', '\'', '%', '/'] := by
  have all : ∀ edge ∈ edges, isNameChar edge = false ∧ isNameStart edge = false ∧
      edge.isDigit = false ∧ isHexDigit edge = false ∧ isExponentMark edge = false ∧
        edge ∉ ['\\', '-', '+', '.', '?', '>', '!', '*', '=', '|', '(', ')', '"', '\'', '%', '/'] :=
    List.all_iff_forall_prop.1 (by decide)
  exact all edge isEdge

theorem takeWhile_append_stop {p : Char → Bool} {edge : Char} (stops : p edge = false)
    (text rest : List Char) :
    (text ++ edge :: rest).takeWhile p = text.takeWhile p ∧
      (text ++ edge :: rest).dropWhile p = text.dropWhile p ++ edge :: rest := by
  induction text with
  | nil => simp [stops]
  | cons c more ih =>
      cases holds : p c with
      | false => simp [holds]
      | true => simp [holds, ih]

section

variable {edge : Char} (isEdge : edge ∈ edges) (text rest : List Char)

include isEdge

/-! ## Numbers and ranges -/

theorem takeDigits_edge :
    takeDigits (text ++ edge :: rest) =
      ((takeDigits text).1, (takeDigits text).2 ++ edge :: rest) := by
  obtain ⟨taken, dropped⟩ := takeWhile_append_stop (edge_spec isEdge).2.2.1 text rest
  rw [takeDigits, takeDigits, taken, dropped]

theorem takeSign_edge :
    takeSign (text ++ edge :: rest) = ((takeSign text).1, (takeSign text).2 ++ edge :: rest) := by
  have notSpecial := (edge_spec isEdge).2.2.2.2.2
  cases text with
  | nil => simp_all [takeSign]
  | cons c more =>
      by_cases isPlus : c = '+'
      · subst isPlus
        rfl
      · by_cases isMinus : c = '-'
        · subst isMinus
          rfl
        · simp [takeSign, isPlus, isMinus]

theorem takeMantissa?_edge :
    takeMantissa? (text ++ edge :: rest) =
      (takeMantissa? text).map fun read => (read.1, read.2 ++ edge :: rest) := by
  obtain ⟨_, _, notDigit, _, _, notSpecial⟩ := edge_spec isEdge
  have notPoint : edge ≠ '.' := by simp_all
  rw [takeMantissa?, takeMantissa?, takeDigits_edge isEdge]
  generalize takeDigits text = digits
  obtain ⟨whole, after⟩ := digits
  cases after with
  | nil => cases whole <;> simp [notPoint]
  | cons c more =>
      by_cases isPoint : c = '.'
      · subst isPoint
        cases more with
        | nil => cases whole <;> simp [notDigit]
        | cons d later =>
            cases isDigit : d.isDigit with
            | false => cases whole <;> simp [isDigit]
            | true =>
                have digits := takeDigits_edge isEdge (d :: later) rest
                rw [List.cons_append] at digits
                simp [isDigit, digits]
      · cases whole <;> simp [isPoint]

theorem takeExponent_edge :
    takeExponent (text ++ edge :: rest) =
      ((takeExponent text).1, (takeExponent text).2 ++ edge :: rest) := by
  have notMark := (edge_spec isEdge).2.2.2.2.1
  rw [isExponentMark] at notMark
  cases text with
  | nil => simp [takeExponent, notMark]
  | cons c more =>
      rw [List.cons_append, takeExponent, takeExponent, takeSign_edge isEdge]
      dsimp only
      rw [takeDigits_edge isEdge]
      dsimp only
      split
      · split <;> simp
      · simp

theorem takeNumber?_edge :
    takeNumber? (text ++ edge :: rest) =
      (takeNumber? text).map fun read => (read.1, read.2 ++ edge :: rest) := by
  rw [takeNumber?_eq, takeNumber?_eq, takeSign_edge isEdge]
  dsimp only
  rw [takeMantissa?_edge isEdge]
  cases takeMantissa? (takeSign text).2 with
  | none => rfl
  | some read => simp only [Option.map_some, takeExponent_edge isEdge]

omit isEdge in
theorem take_takeWhile_append_stop {p : Char → Bool} (stops : p edge = false) (count : Nat) :
    ((text ++ edge :: rest).take count).takeWhile p = (text.take count).takeWhile p := by
  induction text generalizing count with
  | nil =>
      cases count with
      | zero => rfl
      | succ count => simp [stops]
  | cons c more ih =>
      cases count with
      | zero => rfl
      | succ count =>
          rw [List.cons_append, List.take_succ_cons, List.take_succ_cons, List.takeWhile_cons,
            List.takeWhile_cons, ih]

omit isEdge in
theorem length_take_takeWhile_le (p : Char → Bool) (count : Nat) :
    ((text.take count).takeWhile p).length ≤ text.length :=
  Nat.le_trans (List.takeWhile_prefix p).length_le (List.length_take_le' count text)

theorem takeUnicodeRange_edge :
    takeUnicodeRange (text ++ edge :: rest) =
      ((takeUnicodeRange text).1, (takeUnicodeRange text).2.1,
        (takeUnicodeRange text).2.2 ++ edge :: rest) := by
  obtain ⟨_, _, _, notHex, _, notSpecial⟩ := edge_spec isEdge
  have notMark : (edge == '?') = false := by simp_all
  have notDash : edge ≠ '-' := by simp_all
  rw [takeUnicodeRange, takeUnicodeRange]
  dsimp only
  rw [take_takeWhile_append_stop text rest notHex]
  have short := length_take_takeWhile_le text isHexDigit 6
  generalize (text.take 6).takeWhile isHexDigit = digits at short ⊢
  rw [List.drop_append_of_le_length short,
    take_takeWhile_append_stop (p := (· == '?')) _ rest notMark]
  have few := length_take_takeWhile_le (text.drop digits.length) (· == '?') (6 - digits.length)
  generalize ((text.drop digits.length).take (6 - digits.length)).takeWhile (· == '?') = marks at few ⊢
  rw [List.drop_append_of_le_length few]
  generalize (text.drop digits.length).drop marks.length = after
  split
  · rfl
  · cases after with
    | nil => simp [notDash]
    | cons c more =>
        by_cases isDash : c = '-'
        · subst isDash
          rw [List.cons_append]
          have shortLast := length_take_takeWhile_le more isHexDigit 6
          simp only [take_takeWhile_append_stop more rest notHex,
            List.drop_append_of_le_length shortLast]
          split <;> rfl
        · simp [isDash]

/-! ## Identifiers -/

theorem startsIdent_dash_edge (whole : text ≠ ['\\']) :
    startsIdent ('-' :: (text ++ edge :: rest)) = startsIdent ('-' :: text) := by
  obtain ⟨_, notStart, _, _, _, notSpecial⟩ := edge_spec isEdge
  have notDash : edge ≠ '-' := by simp_all
  have notBackslash : edge ≠ '\\' := by simp_all
  cases text with
  | nil =>
      rw [List.nil_append, startsIdent, notStart, beq_eq_false_iff_ne.2 notDash]
      · rfl
      · exact notBackslash
  | cons c more =>
      by_cases isBackslash : c = '\\'
      · subst isBackslash
        cases more with
        | nil => exact absurd rfl whole
        | cons d later => rfl
      · rw [List.cons_append, startsIdent, startsIdent]
        · exact isBackslash
        · exact isBackslash

/-- Whether a text starts with an identifier is seen before an edge, unless the text ends
with the backslash of an escape. -/
theorem startsIdent_edge (whole : text ≠ ['\\']) (wholeDash : text ≠ ['-', '\\']) :
    startsIdent (text ++ edge :: rest) = startsIdent text := by
  obtain ⟨_, notStart, _, _, _, notSpecial⟩ := edge_spec isEdge
  have notDash : edge ≠ '-' := by simp_all
  have notBackslash : edge ≠ '\\' := by simp_all
  cases text with
  | nil => rw [List.nil_append, startsIdent_cons notDash notBackslash, notStart, startsIdent]
  | cons c more =>
      by_cases isDash : c = '-'
      · subst isDash
        refine startsIdent_dash_edge isEdge more rest ?_
        rintro rfl
        exact wholeDash rfl
      · by_cases isBackslash : c = '\\'
        · subst isBackslash
          cases more with
          | nil => exact absurd rfl whole
          | cons d later => rfl
        · rw [List.cons_append, startsIdent_cons isDash isBackslash,
            startsIdent_cons isDash isBackslash]

/-! ## Escapes and names -/

omit isEdge in
/-- Whether a text ends with a hexadecimal digit, which may be the last one of an escape. -/
def EndsInHex (text : List Char) : Prop :=
  ∃ digit ∈ text.getLast?, isHexDigit digit = true

omit isEdge in
theorem EndsInHex.cons {text : List Char} (ends : EndsInHex text) (c : Char) :
    EndsInHex (c :: text) := by
  obtain ⟨digit, isLast, isHex⟩ := ends
  refine ⟨digit, ?_, isHex⟩
  rw [Option.mem_def] at isLast ⊢
  rw [List.getLast?_cons, isLast]
  rfl

omit isEdge in
theorem EndsInHex.of_suffix {text after : List Char} (ends : EndsInHex after)
    (suffix : after <:+ text) : EndsInHex text := by
  obtain ⟨before, rfl⟩ := suffix
  induction before with
  | nil => exact ends
  | cons c more ih => exact ih.cons c

/-- An escape ends before an edge, or takes it if it is a blank. -/
theorem escaped_edge (filled : text ≠ []) :
    escaped (text ++ edge :: rest) = ((escaped text).1, (escaped text).2 ++ edge :: rest) ∨
      (isSpace edge = true ∧ (escaped text).2 = [] ∧ EndsInHex text ∧
        escaped (text ++ edge :: rest) = ((escaped text).1, rest)) := by
  obtain ⟨_, _, _, notHex, _, _⟩ := edge_spec isEdge
  cases text with
  | nil => exact absurd rfl filled
  | cons c more =>
      cases isHex : isHexDigit c with
      | false =>
          rw [List.cons_append, escaped_of_not_hex isHex, escaped_of_not_hex isHex]
          exact .inl rfl
      | true =>
          rw [List.cons_append, escaped, escaped, if_pos isHex, if_pos isHex, ← List.cons_append]
          dsimp only
          rw [take_takeWhile_append_stop (c :: more) rest notHex]
          have short := length_take_takeWhile_le (c :: more) isHexDigit 6
          have isTaken := List.takeWhile_prefix isHexDigit (l := (c :: more).take 6)
          have areHex : ∀ d ∈ ((c :: more).take 6).takeWhile isHexDigit, isHexDigit d = true :=
            fun d member => List.all_eq_true.1 List.all_takeWhile d member
          generalize ((c :: more).take 6).takeWhile isHexDigit = digits at short isTaken areHex ⊢
          rw [List.drop_append_of_le_length short]
          -- only digits at the end of the text take the edge, as the one blank that ends an escape
          cases after : (c :: more).drop digits.length with
          | cons d later =>
              left
              rw [List.cons_append]
              dsimp only
              split <;> rfl
          | nil =>
              have whole : digits = c :: more := by
                have long := List.drop_eq_nil_iff.1 after
                exact (isTaken.trans (List.take_prefix 6 _)).eq_of_length
                  (Nat.le_antisymm short long)
              rw [List.nil_append]
              dsimp only
              cases isBlank : isSpace edge with
              | false => exact .inl rfl
              | true =>
                  right
                  refine ⟨rfl, rfl, ?_, rfl⟩
                  obtain ⟨last, isLast⟩ : ∃ last, (c :: more).getLast? = some last := by
                    rw [List.getLast?_cons]
                    exact ⟨_, rfl⟩
                  refine ⟨last, isLast, areHex last ?_⟩
                  rw [whole]
                  exact List.mem_of_getLast? isLast

omit isEdge in
/-- How a name goes on where an edge follows the text. -/
inductive NameEdge (edge : Char) (text rest : List Char) : Prop where
  /-- The name ends before the edge. -/
  | ends : takeName (text ++ edge :: rest) =
      ((takeName text).1, (takeName text).2 ++ edge :: rest) → NameEdge edge text rest
  /-- The text breaks off after the backslash of an escape. -/
  | cut : (takeName text).2 = [] → text.getLast? = some '\\' →
      (takeName text).1.getLast? = some replacement → NameEdge edge text rest
  /-- The last escape takes the edge. -/
  | joined : isSpace edge = true → (takeName text).2 = [] → EndsInHex text →
      takeName (text ++ edge :: rest) = ((takeName text).1 ++ (takeName rest).1, (takeName rest).2) →
        NameEdge edge text rest

omit isEdge in
/-- One more character of a name before the text that is left. -/
theorem NameEdge.step {edge c : Char} {text after rest : List Char}
    (read : takeName text = (c :: (takeName after).1, (takeName after).2))
    (readEdge : takeName (text ++ edge :: rest) =
      (c :: (takeName (after ++ edge :: rest)).1, (takeName (after ++ edge :: rest)).2))
    (suffix : after <:+ text) (meets : NameEdge edge after rest) : NameEdge edge text rest := by
  cases meets with
  | ends same => exact .ends (by rw [readEdge, same, read])
  | cut all isLast isReplaced =>
      refine .cut (by rw [read]; exact all) ?_ ?_
      · obtain ⟨before, rfl⟩ := suffix
        rw [List.getLast?_append, isLast]
        rfl
      · rw [read, List.getLast?_cons, isReplaced]
        rfl
  | joined isBlank all endsInHex same =>
      refine .joined isBlank (by rw [read]; exact all) (endsInHex.of_suffix suffix) ?_
      rw [readEdge, same, read]
      rfl

theorem takeName_edge : NameEdge edge text rest := by
  obtain ⟨notName, _, _, _, _, notSpecial⟩ := edge_spec isEdge
  have notBackslash : edge ≠ '\\' := by simp_all
  fun_induction takeName text with
  | case1 =>
      have ends : endsName (edge :: rest) = true := by simp [endsName, notName, notBackslash]
      refine .ends ?_
      rw [List.nil_append, takeName_of_endsName ends, takeName]
      rfl
  | case2 c more isName name after shape ih =>
      exact .step (takeName_cons isName more) (takeName_cons isName _) (List.suffix_cons c more) ih
  | case3 c more notName isEscape name after shape ih =>
      rw [Bool.and_eq_true, beq_iff_eq] at isEscape
      obtain ⟨rfl, isEscape⟩ := isEscape
      -- with nothing after it, an escape takes the edge for its character
      cases filled : more with
      | nil =>
          refine .cut ?_ rfl ?_
          · rw [takeName_escape (by rfl)]
            simp [escaped, takeName]
          · rw [takeName_escape (by rfl)]
            simp [escaped, takeName]
      | cons d later =>
          rw [← filled]
          have notEmpty : more ≠ [] := by simp [filled]
          have isEscapeEdge : escapes (more ++ edge :: rest) = true := by
            rw [filled] at isEscape ⊢
            exact isEscape
          have suffix : (escaped more).2 <:+ '\\' :: more :=
            (escaped_suffix more).trans (List.suffix_cons _ _)
          rcases escaped_edge isEdge more rest notEmpty with same | ⟨isBlank, all, endsInHex, same⟩
          · refine .step (takeName_escape isEscape) ?_ suffix ih
            rw [List.cons_append, takeName_escape isEscapeEdge, same]
          · refine .joined isBlank ?_ (endsInHex.cons _) ?_
            · rw [takeName_escape isEscape, all, takeName]
            · rw [List.cons_append, takeName_escape isEscapeEdge, takeName_escape isEscape, same,
                all]
              simp [takeName]
  | case4 c more notName noEscape =>
      refine .ends ?_
      have ends : endsName (c :: more) = true := by
        rw [endsName, Bool.and_eq_true, Bool.not_eq_true', Bool.not_eq_true']
        exact ⟨Bool.not_eq_true _ ▸ notName, Bool.not_eq_true _ ▸ noEscape⟩
      have endsEdge : endsName (c :: (more ++ edge :: rest)) = true := by
        rw [endsName, Bool.and_eq_true, Bool.not_eq_true', Bool.not_eq_true'] at ends ⊢
        refine ⟨ends.1, ?_⟩
        cases more with
        | nil =>
            by_cases isBackslash : c = '\\'
            · subst isBackslash
              cases ends.2
            · simp [isBackslash]
        | cons d later => exact ends.2
      rw [takeName_of_endsName ends, List.cons_append, takeName_of_endsName endsEdge]

/-! ## Strings, addresses and comments -/

/-- A string that is closed ends before an edge. -/
theorem takeString_edge (quote : Char) (closed : (takeString quote text).2.1 = .closed) :
    takeString quote (text ++ edge :: rest) =
      ((takeString quote text).1, .closed, (takeString quote text).2.2 ++ edge :: rest) := by
  fun_induction takeString quote text with
  | case1 => cases closed
  | case2 c more isQuote =>
      rw [List.cons_append, takeString, if_pos isQuote]
  | case3 => cases closed
  | case4 c more notQuote isBackslash filled isEscape value ending after shape ih =>
      rw [shape] at ih
      have notEmpty : more ≠ [] := by simpa using filled
      have filledEdge : (more ++ edge :: rest).isEmpty = false := by simp
      have isEscapeEdge : escapes (more ++ edge :: rest) = true := by
        cases more with
        | nil => exact absurd rfl notEmpty
        | cons d later => exact isEscape
      rw [List.cons_append, takeString, if_neg notQuote, if_pos isBackslash, filledEdge,
        isEscapeEdge]
      rcases escaped_edge isEdge more rest notEmpty with same | ⟨_, all, _, _⟩
      · rw [same]
        simp only [ih closed, Bool.false_eq_true, if_false, if_true]
      · -- nothing is left, so that the string is not closed
        rw [all, takeString] at shape
        cases shape
        cases closed
  | case5 c more notQuote isBackslash filled noEscape ih =>
      have filledEdge : (more ++ edge :: rest).isEmpty = false := by simp
      cases more with
      | nil => exact absurd rfl filled
      | cons d later =>
          have noEscapeEdge : ¬escapes (d :: later ++ edge :: rest) = true := noEscape
          rw [List.cons_append, takeString, if_neg notQuote, if_pos isBackslash, filledEdge,
            if_neg Bool.false_ne_true, if_neg noEscapeEdge]
          exact ih closed
  | case6 => cases closed
  | case7 c more notQuote notBackslash notBreak value ending after shape ih =>
      rw [shape] at ih
      rw [List.cons_append, takeString, if_neg notQuote, if_neg notBackslash, if_neg notBreak,
        ih closed]

/-- An address that is closed ends before an edge. -/
theorem takeUrl_edge (closed : (takeUrl text).2.1 = .closed) :
    takeUrl (text ++ edge :: rest) =
      ((takeUrl text).1, .closed, (takeUrl text).2.2 ++ edge :: rest) := by
  fun_induction takeUrl text with
  | case1 => cases closed
  | case2 c more isCloser =>
      rw [List.cons_append, takeUrl, if_pos isCloser]
  | case3 => cases closed
  | case4 c more notCloser isBlank d later shape isCloser =>
      have dropped : (more ++ edge :: rest).dropWhile isSpace = d :: (later ++ edge :: rest) := by
        rw [List.dropWhile_append, shape]
        rfl
      rw [List.cons_append, takeUrl, if_neg notCloser, if_pos isBlank, dropped]
      dsimp only
      rw [if_pos isCloser]
  | case5 => cases closed
  | case6 c more notCloser notBlank isEscape value ending after shape ih =>
      rw [shape] at ih
      rw [Bool.and_eq_true] at isEscape
      -- an address that ends in an escape would be left unclosed
      have notEmpty : more ≠ [] := by
        rintro rfl
        rw [escaped, takeUrl] at shape
        cases shape
        cases closed
      have isEscapeEdge : (c == '\\' && escapes (more ++ edge :: rest)) = true := by
        rw [isEscape.1, Bool.true_and]
        cases more with
        | nil => exact absurd rfl notEmpty
        | cons d later => exact isEscape.2
      rw [List.cons_append, takeUrl, if_neg notCloser, if_neg notBlank, if_pos isEscapeEdge]
      rcases escaped_edge isEdge more rest notEmpty with same | ⟨_, all, _, _⟩
      · rw [same]
        simp only [ih closed]
      · rw [all, takeUrl] at shape
        cases shape
        cases closed
  | case7 => cases closed
  | case8 c more notCloser notBlank noEscape notBreak value ending after shape ih =>
      rw [shape] at ih
      have noEscapeEdge : ¬(c == '\\' && escapes (more ++ edge :: rest)) = true := by
        rw [Bool.and_eq_true, beq_iff_eq]
        rintro ⟨rfl, isEscape⟩
        cases more with
        | nil => exact noEscape rfl
        | cons d later => exact noEscape (by rw [Bool.and_eq_true]; exact ⟨rfl, isEscape⟩)
      rw [List.cons_append, takeUrl, if_neg notCloser, if_neg notBlank, if_neg noEscapeEdge,
        if_neg notBreak, ih closed]

/-- A comment ends before an edge unless it holds all that is left. -/
theorem takeComment_edge :
    takeComment (text ++ edge :: rest) =
        ((takeComment text).1, (takeComment text).2 ++ edge :: rest) ∨
      takeComment text = (text, []) := by
  have notSlash : edge ≠ '/' := by
    have notSpecial := (edge_spec isEdge).2.2.2.2.2
    simp_all
  fun_induction takeComment text with
  | case1 => exact .inr rfl
  | case2 more => exact .inl rfl
  | case3 c more notEnd inner after shape ih =>
      rw [shape] at ih
      rcases ih with same | opened
      · left
        rw [List.cons_append, takeComment, same]
        rintro later rfl isEnd
        cases more with
        | nil => exact notSlash (List.cons.inj isEnd).1
        | cons d others =>
            obtain ⟨rfl, _⟩ := List.cons.inj isEnd
            exact notEnd others rfl rfl
      · right
        rw [Prod.mk.injEq] at opened
        rw [opened.1, opened.2]

end

end StyleSieve.Css
