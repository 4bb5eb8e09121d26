import StyleSieve.Css.Nesting
import StyleSieve.Proofs.Css.ReadBack

/-!
# Tokens of the scanner

In a text whose newlines are normalized, every lexeme of the scanner is sound: names
are not empty, numbers are spelled as numbers, delimiters are delimiters, and nothing
holds a null character.
-/

namespace StyleSieve.Css

/-! ## Clean texts -/

/-- Whether a character stays as it is when newlines are normalized. -/
def isClean (c : Char) : Bool :=
  c != '\x00' && c != '\r' && c != '\x0c'

/-- A text in which newlines are normalized. -/
def Clean (text : List Char) : Prop :=
  ∀ c ∈ text, isClean c = true

theorem Clean.suffix {text rest : List Char} (clean : Clean text) (suffix : rest <:+ text) :
    Clean rest :=
  fun c member => clean c (suffix.subset member)

theorem Clean.tail {c : Char} {rest : List Char} (clean : Clean (c :: rest)) : Clean rest :=
  clean.suffix (List.suffix_cons c rest)

theorem Clean.append {first second : List Char} (cleanFirst : Clean first)
    (cleanSecond : Clean second) : Clean (first ++ second) :=
  List.forall_mem_append.2 ⟨cleanFirst, cleanSecond⟩

theorem Clean.head_ne_null {c : Char} {rest : List Char} (clean : Clean (c :: rest)) :
    c ≠ '\x00' := by
  intro same
  have isClean := clean c List.mem_cons_self
  rw [same] at isClean
  cases isClean

/-- A normalized text is clean. -/
theorem clean_normalizeNewlines (text : List Char) : Clean (normalizeNewlines text) := by
  fun_induction normalizeNewlines text with
  | case1 =>
      intro c member
      cases member
  | case2 rest ih =>
      intro c member
      cases member with
      | head => decide
      | tail _ inRest => exact ih c inRest
  | case3 c rest _ ih =>
      intro d member
      cases member with
      | head =>
          split
          · decide
          · split
            · decide
            · rename_i notBreak notNull
              simp_all [isClean]
      | tail _ inRest => exact ih d inRest

/-- A clean text is normalized. -/
theorem Clean.normalize {text : List Char} (clean : Clean text) :
    normalizeNewlines text = text := by
  fun_induction normalizeNewlines text with
  | case1 => rfl
  | case2 rest ih =>
      have isClean := clean '\r' List.mem_cons_self
      cases isClean
  | case3 c rest _ ih =>
      have isClean := clean c List.mem_cons_self
      simp only [Css.isClean, Bool.and_eq_true, bne_iff_ne] at isClean
      rw [ih clean.tail]
      simp [isClean]

/-! ## Names, strings and addresses -/

theorem hasNoNull_cons {c : Char} {text : List Char} (notNull : c ≠ '\x00')
    (rest : hasNoNull text = true) : hasNoNull (c :: text) = true := by
  rw [hasNoNull, Bool.not_eq_true', List.contains_eq_mem, decide_eq_false_iff_not] at rest ⊢
  rw [List.mem_cons, not_or]
  exact ⟨notNull.symm, rest⟩

theorem charOfCode_ne_null (code : Nat) : charOfCode code ≠ '\x00' := by
  unfold charOfCode
  split
  · rename_i valid
    intro same
    have codes := congrArg Char.toNat same
    rw [Text.toNat_charAt valid.2] at codes
    change _ = 0 at codes
    split at codes
    · omega
    · exact valid.1 codes
  · decide

theorem escaped_ne_null {text : List Char} (clean : Clean text) : (escaped text).1 ≠ '\x00' := by
  unfold escaped
  split
  · decide
  · split
    · exact charOfCode_ne_null _
    · exact clean.head_ne_null

theorem hasNoNull_escaped {c : Char} {rest value : List Char} (clean : Clean (c :: rest))
    (later : Clean (escaped rest).2 → hasNoNull value = true) :
    hasNoNull ((escaped rest).1 :: value) = true :=
  hasNoNull_cons (escaped_ne_null clean.tail) (later (clean.tail.suffix (escaped_suffix rest)))

theorem hasNoNull_takeName {text : List Char} (clean : Clean text) :
    hasNoNull (takeName text).1 = true := by
  fun_induction takeName text with
  | case1 => rfl
  | case2 c rest _ name after shape ih =>
      rw [shape] at ih
      exact hasNoNull_cons clean.head_ne_null (ih clean.tail)
  | case3 c rest _ _ name after shape ih =>
      rw [shape] at ih
      exact hasNoNull_escaped clean ih
  | case4 => rfl

theorem hasNoNull_takeString {quote : Char} {text : List Char} (clean : Clean text) :
    hasNoNull (takeString quote text).1 = true := by
  fun_induction takeString quote text with
  | case1 => rfl
  | case2 => rfl
  | case3 => rfl
  | case4 c rest _ _ _ _ value ending after shape ih =>
      rw [shape] at ih
      exact hasNoNull_escaped clean ih
  | case5 c rest _ _ _ _ ih => exact ih (clean.tail.suffix (List.drop_suffix 1 rest))
  | case6 => rfl
  | case7 c rest _ _ _ value ending after shape ih =>
      rw [shape] at ih
      exact hasNoNull_cons clean.head_ne_null (ih clean.tail)

theorem hasNoNull_takeUrl {text : List Char} (clean : Clean text) :
    hasNoNull (takeUrl text).1 = true := by
  fun_induction takeUrl text with
  | case1 => rfl
  | case2 => rfl
  | case3 => rfl
  | case4 => rfl
  | case5 => rfl
  | case6 c rest _ _ _ value ending after shape ih =>
      rw [shape] at ih
      exact hasNoNull_escaped clean ih
  | case7 => rfl
  | case8 c rest _ _ _ _ value ending after shape ih =>
      rw [shape] at ih
      exact hasNoNull_cons clean.head_ne_null (ih clean.tail)

theorem takeName_ne_nil {text : List Char} (starts : startsIdent text = true) :
    (takeName text).1 ≠ [] := by
  cases text with
  | nil => cases starts
  | cons c rest =>
      rcases startsIdent_head starts with isName | ⟨rfl, isEscape⟩
      · rw [takeName_cons isName]
        exact List.cons_ne_nil _ _
      · rw [takeName_escape isEscape]
        exact List.cons_ne_nil _ _

/-- A character of names that starts no identifier is a digit or a dash. -/
theorem digit_or_dash {d : Char} {rest : List Char} (isName : isNameChar d = true)
    (noIdent : startsIdent (d :: rest) = false) : d.isDigit = true ∨ d = '-' := by
  rw [isNameChar, Bool.or_eq_true, Bool.or_eq_true, beq_iff_eq] at isName
  rcases isName with (isStart | isDigit) | isDash
  · rw [(startsIdent_of_isNameStart isStart rest).1] at noIdent
    cases noIdent
  · exact .inl isDigit
  · exact .inr isDash

theorem startsNoIdent_digit {c : Char} (isDigit : c.isDigit = true) (name : List Char) :
    startsNoIdent (c :: name) = true ∧ startsNoIdent ('-' :: c :: name) = true := by
  have notDash := (digit_ne_sign isDigit).2
  constructor
  · rw [startsNoIdent, isDigit]
    · exact fun isDash _ => notDash isDash
    · exact fun _ _ isDash _ => notDash isDash
  · rw [startsNoIdent, isDigit]

/-- What is read after a number sign, where it starts no identifier. -/
theorem startsNoIdent_takeName {d : Char} {rest : List Char} (isName : isNameChar d = true)
    (noIdent : startsIdent (d :: rest) = false) :
    startsNoIdent (takeName (d :: rest)).1 = true := by
  rw [takeName_cons isName]
  rcases digit_or_dash isName noIdent with isDigit | rfl
  · exact (startsNoIdent_digit isDigit _).1
  · cases rest with
    | nil => rw [takeName]; rfl
    | cons c more =>
        cases follows : isNameChar c with
        | true =>
            rw [takeName_cons follows]
            rw [isNameChar, Bool.or_eq_true, Bool.or_eq_true, beq_iff_eq] at follows
            rcases follows with (isStart | isDigit) | rfl
            · rw [(startsIdent_of_isNameStart isStart more).2] at noIdent
              cases noIdent
            · exact (startsNoIdent_digit isDigit _).2
            · cases noIdent
        | false =>
            have ends : endsName (c :: more) = true := by
              rw [endsName, follows, Bool.not_false, Bool.true_and, Bool.not_eq_true',
                Bool.and_eq_false_imp, beq_iff_eq]
              intro isBackslash
              rw [isBackslash] at noIdent
              exact noIdent
            rw [takeName_of_endsName ends]
            rfl

/-! ## Lexemes -/

/-- The lexemes that the scanner gives. -/
def Lexeme.Sound : Lexeme → Prop
  | .token value => value.Sound
  | .opening opener => opener.Sound
  | .closer c => c ∈ ['\x7d', ']', ')']

theorem hexValue_lt_of_length {digits : List Char} (areHex : ∀ c ∈ digits, isHexDigit c = true)
    (short : digits.length ≤ 6) : hexValue digits < hexBound 6 :=
  Nat.lt_of_lt_of_le (hexValue_lt areHex) (Nat.pow_le_pow_right (show 0 < 16 by decide) short)

/-- The bounds of a range of code points have six hexadecimal digits at most. -/
theorem takeUnicodeRange_lt (text : List Char) :
    (takeUnicodeRange text).1 < hexBound 6 ∧ (takeUnicodeRange text).2.1 < hexBound 6 := by
  have hexDigits : ∀ rest : List Char,
      (∀ c ∈ (rest.take 6).takeWhile isHexDigit, isHexDigit c = true) ∧
        ((rest.take 6).takeWhile isHexDigit).length ≤ 6 := by
    intro rest
    refine ⟨fun c member => List.all_eq_true.1 List.all_takeWhile c member, ?_⟩
    exact Nat.le_trans (List.takeWhile_prefix isHexDigit).length_le (List.length_take_le 6 rest)
  obtain ⟨areHex, short⟩ := hexDigits text
  unfold takeUnicodeRange
  dsimp only
  generalize (text.take 6).takeWhile isHexDigit = digits at areHex short ⊢
  have first := hexValue_lt_of_length areHex short
  split
  · -- marks stand for digits, and there are no more of them than digits are missing
    have marks : ∀ (mark : Char) (marks : List Char), isHexDigit mark = true →
        marks.length ≤ 6 - digits.length → hexValue (digits ++ marks.map fun _ => mark) < hexBound 6 := by
      intro mark marks isHex few
      refine hexValue_lt_of_length ?_ ?_
      · intro c member
        rcases List.mem_append.1 member with inDigits | inMarks
        · exact areHex c inDigits
        · obtain ⟨_, _, rfl⟩ := List.mem_map.1 inMarks
          exact isHex
      · rw [List.length_append, List.length_map]
        omega
    have few : (((text.drop digits.length).take (6 - digits.length)).takeWhile (· == '?')).length ≤
        6 - digits.length :=
      Nat.le_trans (List.takeWhile_prefix _).length_le (List.length_take_le _ _)
    exact ⟨marks '0' _ rfl few, marks 'F' _ rfl few⟩
  · split
    · rename_i rest _
      obtain ⟨areHexLast, shortLast⟩ := hexDigits rest
      split
      · exact ⟨first, hexValue_lt_of_length areHexLast shortLast⟩
      · exact ⟨first, first⟩
    · exact ⟨first, first⟩

theorem scanIdent_sound {text : List Char} (clean : Clean text)
    (starts : startsIdent text = true) : ∀ lexeme ∈ (scanIdent text).1, lexeme.Sound := by
  have filled := takeName_ne_nil starts
  have noNull := hasNoNull_takeName clean
  have suffix := takeName_suffix text
  unfold scanIdent
  split
  · rename_i name later shape
    rw [shape] at filled noNull suffix
    have inner := (clean.suffix suffix).tail.suffix (List.dropWhile_suffix isSpace)
    have noNullUrl := hasNoNull_takeUrl inner
    dsimp only
    split
    · split <;> (rename_i read; rw [read] at noNullUrl)
      · exact List.forall_mem_singleton.2 noNullUrl
      · exact List.forall_mem_cons.2 ⟨noNullUrl, List.forall_mem_singleton.2 trivial⟩
      · exact List.forall_mem_singleton.2 trivial
    · exact List.forall_mem_singleton.2 ⟨filled, noNull⟩
  · rename_i name rest shape
    rw [shape] at filled noNull
    exact List.forall_mem_singleton.2 ⟨filled, noNull⟩

theorem scanNumeric_sound {spelling rest : List Char} (isNumber : IsNumber spelling)
    (clean : Clean rest) : ∀ lexeme ∈ (scanNumeric spelling rest).1, lexeme.Sound := by
  unfold scanNumeric
  intro lexeme member
  split at member
  · rename_i starts
    rw [List.mem_singleton.1 member]
    exact ⟨isNumber, takeName_ne_nil starts, hasNoNull_takeName clean⟩
  · split at member
    · rw [List.mem_singleton.1 member]
      exact isNumber
    · rw [List.mem_singleton.1 member]
      exact isNumber

theorem scanString_sound {quote : Char} {rest : List Char} (clean : Clean rest) :
    ∀ lexeme ∈ (scanString quote rest).1, lexeme.Sound := by
  have noNull : hasNoNull (takeString quote rest).1 = true := hasNoNull_takeString clean
  unfold scanString
  split <;> (rename_i read; rw [read] at noNull)
  · exact List.forall_mem_singleton.2 noNull
  · exact List.forall_mem_cons.2 ⟨noNull, List.forall_mem_singleton.2 trivial⟩
  · exact List.forall_mem_singleton.2 trivial

/-- A character that is neither a bracket nor a quote stands alone. -/
theorem isSolitary_of_clean {c : Char} {rest : List Char} (clean : Clean (c :: rest))
    (notSpace : isSpace c = false) (notStart : isNameStart c = false)
    (notDigit : c.isDigit = false)
    (notSymbol : c ∉ ['\x7b', '\x7d', '[', ']', '(', ')', '"', '\'']) :
    isSolitary c = true := by
  have isClean := clean c List.mem_cons_self
  rw [Css.isClean, Bool.and_eq_true, Bool.and_eq_true, bne_iff_ne, bne_iff_ne,
    bne_iff_ne] at isClean
  simp_all [isSolitary]

theorem sound_delim {text : String} (isDelim : isDelimText text.toList = true) :
    (delim text).Sound :=
  isDelim

theorem scanSymbol_sound {c : Char} {rest : List Char} (clean : Clean (c :: rest))
    (notSpace : isSpace c = false) (notStart : isNameStart c = false)
    (notDigit : c.isDigit = false) :
    ∀ lexeme ∈ (scanSymbol c rest).1, lexeme.Sound := by
  intro lexeme member
  unfold scanSymbol at member
  split at member
  · split at member
    · rename_i starts
      rw [List.mem_singleton.1 member]
      exact ⟨takeName_ne_nil starts, hasNoNull_takeName clean.tail⟩
    · rw [List.mem_singleton.1 member]
      rfl
  · rename_i d more
    split at member
    · rename_i follows
      rw [List.mem_singleton.1 member]
      cases starts : startsIdent (d :: more) with
      | true => exact ⟨takeName_ne_nil starts, hasNoNull_takeName clean.tail⟩
      | false =>
          rw [starts, Bool.or_false] at follows
          exact ⟨startsNoIdent_takeName follows starts, hasNoNull_takeName clean.tail⟩
    · rw [List.mem_singleton.1 member]
      rfl
  case h_9 => exact scanString_sound clean.tail lexeme member
  case h_10 => exact scanString_sound clean.tail lexeme member
  case h_19 =>
    rw [List.mem_singleton.1 member]
    exact isSolitary_of_clean clean notSpace notStart notDigit (by simp_all)
  all_goals
    rw [List.mem_singleton.1 member]
    first
    | exact trivial
    | exact sound_delim rfl
    | simp [Lexeme.Sound]

theorem isNameStart_of_startsIdent {c : Char} {rest : List Char}
    (noIdent : startsIdent (c :: rest) = false) : isNameStart c = false := by
  cases isStart : isNameStart c with
  | false => rfl
  | true =>
      rw [(startsIdent_of_isNameStart isStart rest).1] at noIdent
      cases noIdent

theorem isDigit_of_takeNumber? {c : Char} {rest : List Char}
    (noNumber : takeNumber? (c :: rest) = none) : c.isDigit = false := by
  cases isDigit : c.isDigit with
  | false => rfl
  | true =>
      have sign : takeSign (c :: rest) = ([], c :: rest) := by
        simp [takeSign, digit_ne_sign isDigit]
      rw [takeNumber?_eq, sign, Option.map_eq_none_iff] at noNumber
      unfold takeMantissa? at noNumber
      have filled : (takeDigits (c :: rest)).1.isEmpty = false := by simp [takeDigits, isDigit]
      dsimp only at noNumber
      split at noNumber
      · split at noNumber
        · cases noNumber
        · rw [filled] at noNumber
          cases noNumber
      · rw [filled] at noNumber
        cases noNumber

/-- The scanner gives sound lexemes. -/
theorem scan_sound {c : Char} {rest : List Char} (clean : Clean (c :: rest)) :
    ∀ lexeme ∈ (scan c rest).1, lexeme.Sound := by
  unfold scan
  split
  · rename_i isBlank
    have areSpaces : ∀ d ∈ c :: rest.takeWhile isSpace, isSpace d = true := by
      intro d member
      cases member with
      | head => exact isBlank
      | tail _ inRest => exact List.all_eq_true.1 List.all_takeWhile d inRest
    intro lexeme member
    rw [List.mem_singleton.1 member]
    exact ⟨List.cons_ne_nil _ _, areSpaces⟩
  · rename_i notSpace
    split
    · intro lexeme member
      rw [List.mem_singleton.1 member]
      exact takeUnicodeRange_lt (rest.drop 1)
    · split
      · intro lexeme member
        rw [List.mem_singleton.1 member]
        rfl
      · split
        · rename_i starts
          exact scanIdent_sound clean starts
        · rename_i noIdent
          rw [Bool.not_eq_true] at notSpace noIdent
          split
          · rename_i spelling after found
            exact scanNumeric_sound (takeNumber?_spec found).1
              (clean.tail.suffix (takeNumber?_suffix found))
          · rename_i noNumber
            exact scanSymbol_sound clean notSpace (isNameStart_of_startsIdent noIdent)
              (isDigit_of_takeNumber? noNumber)

end StyleSieve.Css
