import StyleSieve.Css.Writer

/-!
# Reading written names

A name is written with the characters that would end it escaped.  This module
shows that it is read back from its text before any text that does not go on with
the name, and that an identifier starts like one.
-/

namespace StyleSieve.Css

/-- Whether a text cannot continue a name. -/
def endsName : List Char → Bool
  | [] => true
  | c :: rest => !isNameChar c && !(c == '\\' && escapes rest)

/-! ## Steps of reading -/

theorem takeName_of_endsName {text : List Char} (ends : endsName text = true) :
    takeName text = ([], text) := by
  cases text with
  | nil => rw [takeName]
  | cons c rest =>
      rw [endsName, Bool.and_eq_true, Bool.not_eq_true', Bool.not_eq_true'] at ends
      rw [takeName, ends.1, ends.2]
      rfl

theorem takeName_cons {c : Char} (isName : isNameChar c = true) (rest : List Char) :
    takeName (c :: rest) = (c :: (takeName rest).1, (takeName rest).2) := by
  rw [takeName, if_pos isName]

theorem takeName_escape {rest : List Char} (isEscape : escapes rest = true) :
    takeName ('\\' :: rest) =
      ((escaped rest).1 :: (takeName (escaped rest).2).1, (takeName (escaped rest).2).2) := by
  rw [takeName, isEscape]
  rfl

theorem escapes_cons {c : Char} (notBreak : c ≠ '\n') (rest : List Char) :
    escapes (c :: rest) = true := by
  simp [escapes, notBreak]

theorem isNameChar_of_isHexDigit {c : Char} (isHex : isHexDigit c = true) :
    isNameChar c = true := by
  have isAlpha : c.isDigit = false → c.isAlpha = true := by
    intro notDigit
    simp only [isHexDigit, notDigit, Bool.false_or, Bool.or_eq_true, Bool.and_eq_true,
      decide_eq_true_eq] at isHex
    change (c.isUpper || c.isLower) = true
    rw [Bool.or_eq_true]
    rcases isHex with ⟨low, high⟩ | ⟨low, high⟩
    · have below := Nat.le_trans (show c.val.toNat ≤ 102 from high) (by decide : 102 ≤ 122)
      exact .inr (Bool.and_eq_true_iff.2 ⟨decide_eq_true low, decide_eq_true below⟩)
    · have below := Nat.le_trans (show c.val.toNat ≤ 70 from high) (by decide : 70 ≤ 90)
      exact .inl (decide_eq_true ⟨low, below⟩)
  cases digit : c.isDigit with
  | true => simp [isNameChar, digit]
  | false => simp [isNameChar, isNameStart, isAlpha digit]

theorem escaped_of_not_hex {c : Char} (notHex : isHexDigit c = false) (rest : List Char) :
    escaped (c :: rest) = (c, rest) := by
  rw [escaped, notHex]
  rfl

/-- At most six hexadecimal digits are read as a whole. -/
theorem takeWhile_hex {digits after : List Char}
    (areHex : ∀ digit ∈ digits, isHexDigit digit = true) (short : digits.length ≤ 6)
    (ends : ∀ next ∈ after.head?, isHexDigit next = false) :
    ((digits ++ after).take 6).takeWhile isHexDigit = digits := by
  rw [List.take_append, List.take_of_length_le short, List.takeWhile_append_of_pos areHex]
  cases after with
  | nil => simp
  | cons next later =>
      have stops := ends next rfl
      cases 6 - digits.length with
      | zero => simp
      | succ more => simp [stops]

theorem not_hex_blank (rest : List Char) :
    ∀ next ∈ (' ' :: rest).head?, isHexDigit next = false := by
  rintro next ⟨⟩
  decide

/-- An escape by hexadecimal digits ends with a blank, which it takes along. -/
theorem escaped_hex {digits : List Char} (some : digits ≠ [])
    (areHex : ∀ digit ∈ digits, isHexDigit digit = true) (short : digits.length ≤ 6)
    (rest : List Char) :
    escaped (digits ++ ' ' :: rest) = (charOfCode (hexValue digits), rest) := by
  have taken := takeWhile_hex areHex short (not_hex_blank rest)
  cases digits with
  | nil => exact absurd rfl some
  | cons first more =>
      rw [List.cons_append] at taken
      rw [List.cons_append, escaped, if_pos (areHex first List.mem_cons_self)]
      simp only [taken]
      rw [← List.cons_append, List.drop_left]
      rfl

theorem escapes_of_isHexDigit {digit : Char} (isHex : isHexDigit digit = true)
    (rest : List Char) : escapes (digit :: rest) = true := by
  refine escapes_cons ?_ rest
  rintro rfl
  cases isHex

theorem escaped_hexDigit {digit : Char} (isHex : isHexDigit digit = true) (rest : List Char) :
    escaped (digit :: ' ' :: rest) = (charOfCode (hexValue [digit]), rest) := by
  have areHex : ∀ other ∈ [digit], isHexDigit other = true := by simpa using isHex
  exact escaped_hex (List.cons_ne_nil digit []) areHex (by simp) rest

/-! ## Characters of names -/

/-- An escape by hexadecimal digits is read as its character. -/
theorem takeName_hexEscape {digits : List Char} (some : digits ≠ [])
    (areHex : ∀ digit ∈ digits, isHexDigit digit = true) (short : digits.length ≤ 6)
    (rest : List Char) :
    takeName ('\\' :: (digits ++ ' ' :: rest)) =
      (charOfCode (hexValue digits) :: (takeName rest).1, (takeName rest).2) := by
  have isEscape : escapes (digits ++ ' ' :: rest) = true := by
    cases digits with
    | nil => exact absurd rfl some
    | cons first more =>
        refine escapes_cons ?_ _
        rintro rfl
        exact absurd (areHex '\n' List.mem_cons_self) (by decide)
  rw [takeName_escape isEscape, escaped_hex some areHex short]

/-- The other escapes are read as the character that is escaped. -/
theorem takeName_charEscape {c : Char} (notHex : isHexDigit c = false) (notBreak : c ≠ '\n')
    (rest : List Char) :
    takeName ('\\' :: c :: rest) = (c :: (takeName rest).1, (takeName rest).2) := by
  rw [takeName_escape (escapes_cons notBreak rest), escaped_of_not_hex notHex]

/-- The line breaks are those characters that are escaped by their codes. -/
theorem escapedBreak?_eq_some {c : Char} {text : List Char}
    (isBreak : escapedBreak? c = some text) :
    ∃ digit, text = ['\\', digit, ' '] ∧ isHexDigit digit = true ∧
      charOfCode (hexValue [digit]) = c := by
  unfold escapedBreak? at isBreak
  split at isBreak
  · cases isBreak
    exact ⟨'A', rfl, by decide, by simp_all; decide⟩
  · split at isBreak
    · cases isBreak
      exact ⟨'D', rfl, by decide, by simp_all; decide⟩
    · split at isBreak
      · cases isBreak
        exact ⟨'C', rfl, by decide, by simp_all; decide⟩
      · cases isBreak

theorem not_break_of_escapedBreak? {c : Char} (noBreak : escapedBreak? c = none) :
    c ≠ '\n' := by
  rintro rfl
  cases noBreak

theorem takeName_break {c : Char} {text : List Char} (isBreak : escapedBreak? c = some text)
    (rest : List Char) :
    takeName (text ++ rest) = (c :: (takeName rest).1, (takeName rest).2) := by
  obtain ⟨digit, rfl, isHex, rfl⟩ := escapedBreak?_eq_some isBreak
  have areHex : ∀ other ∈ [digit], isHexDigit other = true := by simpa using isHex
  exact takeName_hexEscape (List.cons_ne_nil digit []) areHex (by simp) rest

theorem takeName_writeNameChar (c : Char) (rest : List Char) :
    takeName (writeNameChar c ++ rest) = (c :: (takeName rest).1, (takeName rest).2) := by
  unfold writeNameChar
  cases isName : isNameChar c with
  | true => exact takeName_cons isName rest
  | false =>
      have notHex : isHexDigit c = false := by
        cases isHex : isHexDigit c with
        | false => rfl
        | true => exact absurd (isNameChar_of_isHexDigit isHex) (by simp [isName])
      cases isBreak : escapedBreak? c with
      | some text => exact takeName_break isBreak rest
      | none => exact takeName_charEscape notHex (not_break_of_escapedBreak? isBreak) rest

/-- A name is read back from its text. -/
theorem takeName_writeName {rest : List Char} (name : List Char)
    (ends : endsName rest = true) : takeName (writeName name ++ rest) = (name, rest) := by
  induction name with
  | nil => exact takeName_of_endsName ends
  | cons c more ih =>
      rw [writeName, List.flatMap_cons, List.append_assoc, takeName_writeNameChar,
        ← writeName, ih]

/-! ## Identifiers -/

/-- The code of a digit has two hexadecimal digits. -/
theorem hexDigits_digit {c : Char} (isDigit : c.isDigit = true) :
    ∃ digit, hexDigits c.toNat = ['3', digit] ∧ isHexDigit digit = true ∧
      charOfCode (hexValue ['3', digit]) = c := by
  have codes : ∀ code < 58, 48 ≤ code → hexDigits code = ['3', Char.ofNat code] ∧
      isHexDigit (Char.ofNat code) = true ∧
        charOfCode (hexValue ['3', Char.ofNat code]) = Char.ofNat code := by
    decide
  rw [Char.isDigit, Bool.and_eq_true, decide_eq_true_eq, decide_eq_true_eq] at isDigit
  have spec := codes c.toNat (Nat.lt_succ_of_le isDigit.2) isDigit.1
  rw [Char.ofNat_toNat] at spec
  exact ⟨c, spec⟩

theorem not_hex_of_not_start {c : Char} (notStart : isNameStart c = false)
    (notDigit : c.isDigit = false) : isHexDigit c = false := by
  cases isHex : isHexDigit c with
  | false => rfl
  | true =>
      have isName := isNameChar_of_isHexDigit isHex
      simp only [isNameChar, notStart, notDigit, Bool.false_or, beq_iff_eq] at isName
      subst isName
      cases isHex

theorem takeName_writeIdentStart (c : Char) (rest : List Char) :
    takeName (writeIdentStart c ++ rest) = (c :: (takeName rest).1, (takeName rest).2) := by
  unfold writeIdentStart
  cases isStart : isNameStart c with
  | true => exact takeName_cons (by simp [isNameChar, isStart]) rest
  | false =>
      cases isDigit : c.isDigit with
      | true =>
          obtain ⟨digit, spelled, isHex, value⟩ := hexDigits_digit isDigit
          have areHex : ∀ other ∈ ['3', digit], isHexDigit other = true := by
            simpa using ⟨by decide, isHex⟩
          have read := takeName_hexEscape (List.cons_ne_nil '3' [digit]) areHex (by simp) rest
          rw [value] at read
          rw [spelled]
          exact read
      | false =>
          have notHex := not_hex_of_not_start isStart isDigit
          cases isBreak : escapedBreak? c with
          | some text => exact takeName_break isBreak rest
          | none => exact takeName_charEscape notHex (not_break_of_escapedBreak? isBreak) rest

/-- An identifier is read back from its text. -/
theorem takeName_writeIdent {rest : List Char} (name : List Char)
    (ends : endsName rest = true) : takeName (writeIdent name ++ rest) = (name, rest) := by
  have dash : isNameChar '-' = true := by decide
  unfold writeIdent
  split
  · exact takeName_of_endsName ends
  · rw [List.cons_append, List.singleton_append,
      takeName_charEscape (by decide) (by decide), takeName_of_endsName ends]
  · rename_i more
    rw [List.cons_append, List.cons_append, takeName_cons dash, takeName_cons dash,
      takeName_writeName more ends]
  · rename_i c more _
    rw [List.cons_append, List.append_assoc, takeName_cons dash, takeName_writeIdentStart,
      takeName_writeName more ends]
  · rename_i c more _ _ _
    rw [List.append_assoc, takeName_writeIdentStart, takeName_writeName more ends]

theorem startsIdent_of_isNameStart {c : Char} (isStart : isNameStart c = true)
    (rest : List Char) :
    startsIdent (c :: rest) = true ∧ startsIdent ('-' :: c :: rest) = true := by
  have notDash : c ≠ '-' := by
    rintro rfl
    cases isStart
  have notBackslash : c ≠ '\\' := by
    rintro rfl
    cases isStart
  constructor
  · rw [startsIdent, isStart]
    · exact fun _ isDash _ => notDash isDash
    · exact fun _ _ isDash _ => notDash isDash
    · exact notBackslash
  · rw [startsIdent, isStart]
    · rfl
    · exact notBackslash

theorem startsIdent_of_escape {rest : List Char} (isEscape : escapes rest = true) :
    startsIdent ('\\' :: rest) = true ∧ startsIdent ('-' :: '\\' :: rest) = true :=
  ⟨isEscape, isEscape⟩

theorem startsIdent_writeIdentStart (c : Char) (rest : List Char) :
    startsIdent (writeIdentStart c ++ rest) = true ∧
      startsIdent ('-' :: (writeIdentStart c ++ rest)) = true := by
  unfold writeIdentStart
  cases isStart : isNameStart c with
  | true => exact startsIdent_of_isNameStart isStart rest
  | false =>
      cases isDigit : c.isDigit with
      | true =>
          obtain ⟨digit, spelled, _, _⟩ := hexDigits_digit isDigit
          rw [spelled]
          exact startsIdent_of_escape (escapes_cons (by decide) _)
      | false =>
          cases isBreak : escapedBreak? c with
          | some text =>
              obtain ⟨digit, rfl, isHex, _⟩ := escapedBreak?_eq_some isBreak
              refine startsIdent_of_escape (escapes_cons ?_ _)
              rintro rfl
              cases isHex
          | none =>
              exact startsIdent_of_escape
                (escapes_cons (not_break_of_escapedBreak? isBreak) _)

/-- An identifier that is not empty starts like one. -/
theorem startsIdent_writeIdent {name : List Char} (some : name ≠ []) (rest : List Char) :
    startsIdent (writeIdent name ++ rest) = true := by
  unfold writeIdent
  split
  · exact absurd rfl some
  · exact escapes_cons (by decide) rest
  · rfl
  · rename_i c more _
    rw [List.cons_append, List.append_assoc]
    exact (startsIdent_writeIdentStart c _).2
  · rename_i c more _ _ _
    rw [List.append_assoc]
    exact (startsIdent_writeIdentStart c _).1

end StyleSieve.Css
