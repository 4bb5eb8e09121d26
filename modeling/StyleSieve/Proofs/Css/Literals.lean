import Mathlib.Data.Bool.AllAny
import StyleSieve.Proofs.Css.Spans

/-!
# The spans of strings, addresses and ranges

What is written for a string lags behind its span although its quotes may be escaped, since
an escaped quote ends where the raw one does.  The marks of a range of code points are never
written.
-/

namespace StyleSieve.Css

/-! ## Strings and addresses -/

/-- Where a raw character is escaped, its escape ends with it or does not hold it. -/
theorem WritesChar.lags_raw {c : Char} {written : List Char} (writes : WritesChar c written)
    (notBackslash : c ≠ '\\') (solid : c ≠ ' ') (other : isCloser c = false) :
    Lags written [c] := by
  have last : unspaced [c] = [c] := by rw [unspaced_cons solid, unspaced_nil]
  have closes : ∀ text, ClosesLike text (unspaced [c]) := by
    intro text
    rw [last]
    refine .more ?_ (all_eq_false_of_mem List.mem_cons_self other)
    rw [closingRun_eq_zero (by simpa using other)]
    exact Nat.zero_le _
  refine ⟨?_, closes _⟩
  rw [last]
  cases writes with
  | bare => exact .of_length_le (Nat.le_of_eq (congrArg List.length last))
  | escape _ =>
      intro before after whole
      rw [unspaced_cons (by decide), last] at whole
      cases before with
      | nil => exact absurd (List.cons.inj whole).1.symm notBackslash
      | cons d more =>
          have length := congrArg List.length whole
          simp only [List.length_cons, List.length_append, List.length_nil] at length
          exact List.eq_nil_of_length_eq_zero (by omega)
  | code isHex isBreak =>
      refine .of_not_mem List.mem_cons_self ?_
      have notHex : isHexDigit c = false := by
        have all : ∀ c ∈ ['\n', '\r', '\x0c', '\t'], isHexDigit c = false :=
          List.all_iff_forall_prop.1 (by decide)
        exact all c isBreak
      intro member
      simp only [mem_unspaced, List.mem_cons, List.not_mem_nil, or_false] at member
      rcases member.1 with same | same | same
      · exact notBackslash same
      · rw [same, isHex] at notHex
        cases notHex
      · exact solid same

theorem writeStringChar_lags {c : Char} (notBackslash : c ≠ '\\') :
    Lags (writeStringChar c) [c] := by
  by_cases isBare : c ∈ [' ', ')', ']', '\x7d', ';']
  · have all : ∀ c ∈ [' ', ')', ']', '\x7d', ';'], writeStringChar c = [c] :=
      List.all_iff_forall_prop.1 (by decide)
    rw [all c isBare]
    exact .refl [c]
  · simp only [List.mem_cons, List.not_mem_nil, or_false, not_or] at isBare
    exact (writesStringChar c).lags_raw notBackslash isBare.1 (by simp [isCloser, isBare])

theorem writeUrlChar_lags {c : Char} (notBackslash : c ≠ '\\') (solid : c ≠ ' ') (notCloser : c ≠ ')') :
    Lags (writeUrlChar c) [c] := by
  by_cases isBare : c ∈ [']', '\x7d', ';']
  · have all : ∀ c ∈ [']', '\x7d', ';'], writeUrlChar c = [c] :=
      List.all_iff_forall_prop.1 (by decide)
    rw [all c isBare]
    exact .refl [c]
  · simp only [List.mem_cons, List.not_mem_nil, or_false, not_or] at isBare
    exact (writesUrlChar c).lags_raw notBackslash solid (by simp [isCloser, notCloser, isBare])

/-- A closing quote is written as a double one. -/
theorem lags_quote {quote : Char} (isQuote : quote ∈ ['"', '\'']) : Lags ['"'] [quote] := by
  have spec : ∀ quote ∈ ['"', '\''], size ['"'] ≤ size [quote] ∧
      closingRun (unspaced [quote]) ≤ closingRun (unspaced ['"']) ∧
        (unspaced [quote]).all isCloser = false :=
    List.all_iff_forall_prop.1 (by decide)
  obtain ⟨short, run, other⟩ := spec quote isQuote
  exact .of_size short run other

/-- A closed string is written no longer than it is spelled, but for escaped quotes. -/
theorem takeString_span {quote : Char} (isQuote : quote ∈ ['"', '\'']) {text value after : List Char}
    (read : takeString quote text = (value, .closed, after)) :
    Span (value.flatMap writeStringChar ++ ['"']) text after := by
  fun_induction takeString quote text generalizing value with
  | case1 => cases read
  | case2 c rest closes =>
      cases read
      rw [beq_iff_eq.1 closes]
      exact ⟨[quote], rfl, lags_quote isQuote⟩
  | case3 => cases read
  | case4 c rest notQuote isBackslash filled isEscape value ending after shape ih =>
      cases read
      obtain ⟨spelling, whole, spells⟩ := escaped_spells rest
      have span := (ih shape).prepend (spells.lags (writesStringChar _))
      rw [List.cons_append, ← whole] at span
      rw [beq_iff_eq.1 isBackslash, List.flatMap_cons, List.append_assoc]
      exact span
  | case5 c rest notQuote isBackslash filled noEscape ih =>
      obtain ⟨span, whole, lags⟩ := ih read
      cases rest with
      | nil => exact absurd rfl filled
      | cons d more =>
          refine ⟨[c, d] ++ span, ?_, lags.skip ?_⟩
          · rw [List.drop_one, List.tail_cons] at whole
            rw [whole]
            rfl
          · simp only [escapes, List.head?_cons, bne_iff_ne, ne_eq, not_not,
              Option.some.injEq] at noEscape
            rw [noEscape, beq_iff_eq.1 isBackslash]
            exact Nat.le_zero.1 (by decide)
  | case6 => cases read
  | case7 c rest notQuote notBackslash notBreak value ending after shape ih =>
      cases read
      have raw := writeStringChar_lags (c := c) (by simpa using notBackslash)
      have span := (ih shape).prepend raw
      rw [List.flatMap_cons, List.append_assoc]
      exact span

/-- Only blanks stand between a blank in a closed address and its closer. -/
theorem takeUrl_blank {c : Char} (isBlank : isSpace c = true) {rest value after : List Char}
    (read : takeUrl (c :: rest) = (value, .closed, after)) :
    value = [] ∧ ∃ blanks, rest = blanks ++ ')' :: after ∧ ∀ d ∈ blanks, isSpace d = true := by
  have notCloser : ¬(c == ')') = true := by
    intro same
    rw [beq_iff_eq.1 same] at isBlank
    cases isBlank
  rw [takeUrl, if_neg notCloser, if_pos isBlank] at read
  cases dropped : rest.dropWhile isSpace with
  | nil =>
      rw [dropped] at read
      cases read
  | cons d later =>
      rw [dropped] at read
      dsimp only at read
      split at read
      · rename_i closes
        cases read
        refine ⟨rfl, rest.takeWhile isSpace, ?_, ?_⟩
        · rw [← beq_iff_eq.1 closes, ← dropped, List.takeWhile_append_dropWhile]
        · exact fun e member => List.all_eq_true.1 List.all_takeWhile e member
      · cases read

theorem lags_blanks {blanks : List Char} (areBlank : ∀ c ∈ blanks, isSpace c = true)
    {written read : List Char} (lags : Lags written read) : Lags written (blanks ++ read) := by
  refine lags.skip (closingRun_eq_zero ?_)
  intro c member
  exact isCloser_of_isSpace (areBlank c (mem_unspaced.1 member).1)

theorem span_blanks {blanks : List Char} (areBlank : ∀ c ∈ blanks, isSpace c = true)
    (after : List Char) : Span [')'] (blanks ++ ')' :: after) after :=
  ⟨blanks ++ [')'], by simp, lags_blanks areBlank (.refl [')'])⟩

/-- A closed address is written no longer than it is spelled. -/
theorem takeUrl_span {text value after : List Char}
    (read : takeUrl text = (value, .closed, after)) :
    Span (value.flatMap writeUrlChar ++ [')']) text after := by
  fun_induction takeUrl text generalizing value with
  | case1 => cases read
  | case2 c rest closes =>
      cases read
      rw [beq_iff_eq.1 closes]
      exact ⟨[')'], rfl, .refl [')']⟩
  | case3 => cases read
  | case4 c rest notCloser isBlank d later dropped closes =>
      have whole : takeUrl (c :: rest) = (value, .closed, after) := by
        rw [takeUrl, if_neg notCloser, if_pos isBlank, dropped]
        dsimp only
        rw [if_pos closes]
        exact read
      obtain ⟨rfl, blanks, rfl, areBlank⟩ := takeUrl_blank isBlank whole
      exact span_blanks (List.forall_mem_cons.2 ⟨isBlank, areBlank⟩) after
  | case5 => cases read
  | case6 c rest notCloser notBlank isEscape value ending later shape ih =>
      cases read
      rw [Bool.and_eq_true, beq_iff_eq] at isEscape
      obtain ⟨spelling, whole, spells⟩ := escaped_spells rest
      have span := (ih shape).prepend (spells.lags (writesUrlChar _))
      rw [List.cons_append, ← whole] at span
      rw [isEscape.1, List.flatMap_cons, List.append_assoc]
      exact span
  | case7 => cases read
  | case8 c rest notCloser notBlank noEscape notBreak value ending later shape ih =>
      cases read
      rw [List.flatMap_cons, List.append_assoc]
      by_cases isBackslash : c = '\\'
      · -- a backslash before a line break stands for itself and ends the address
        subst isBackslash
        cases rest with
        | nil => exact absurd rfl noEscape
        | cons d more =>
            have isBreak : d = '\n' := by simpa [escapes] using noEscape
            subst isBreak
            obtain ⟨rfl, blanks, rfl, areBlank⟩ := takeUrl_blank (by rfl) shape
            have line : Lags (writeUrlChar '\\') ['\\', '\n'] :=
              .of_size (by decide) (by decide) (by decide)
            exact (span_blanks areBlank _).prepend line
      · have solid : c ≠ ' ' := by
          rintro rfl
          exact notBlank rfl
        exact (ih shape).prepend (writeUrlChar_lags isBackslash solid (by simpa using notCloser))

/-! ## Ranges of code points -/

/-- A text that is read from no closers ends in none. -/
theorem ClosesLike.of_others {read : List Char} (others : ∀ c ∈ read, isCloser c = false)
    (filled : 0 < size read) (written : List Char) : ClosesLike written (unspaced read) := by
  have othersLeft : ∀ c ∈ unspaced read, isCloser c = false := fun c member =>
    others c (mem_unspaced.1 member).1
  obtain ⟨c, member⟩ := List.exists_mem_of_length_pos filled
  refine .more ?_ (all_eq_false_of_mem member (othersLeft c member))
  rw [closingRun_eq_zero othersLeft]
  exact Nat.zero_le _

/-- The digits that a number is written with are no more than those it was read from. -/
theorem length_hexDigits_hexValue {digits : List Char} (filled : digits ≠ [])
    (areHex : ∀ c ∈ digits, isHexDigit c = true) :
    (hexDigits (hexValue digits)).length ≤ digits.length := by
  rw [hexDigits, List.length_map]
  exact (Nat.length_toDigits_le_iff (by decide) (List.length_pos_iff.2 filled)).2 (hexValue_lt areHex)

theorem isHexDigit_of_mem_take (text : List Char) (count : Nat) :
    ∀ c ∈ (text.take count).takeWhile isHexDigit, isHexDigit c = true :=
  fun c member => List.all_eq_true.1 List.all_takeWhile c member

theorem append_drop_take (p : Char → Bool) (text : List Char) (count : Nat) :
    (text.take count).takeWhile p ++ text.drop ((text.take count).takeWhile p).length = text := by
  have isTaken := (List.takeWhile_prefix p (l := text.take count)).trans (List.take_prefix count _)
  exact List.prefix_iff_eq_append.1 isTaken

/-- The text of a range of code points after `U+`. -/
def writeRange (first last : Nat) : List Char :=
  hexDigits first ++ if first = last then [] else '-' :: hexDigits last

theorem mem_writeRange {first last : Nat} {c : Char} (member : c ∈ writeRange first last) :
    isHexDigit c = true ∨ c = '-' := by
  rcases List.mem_append.1 member with inFirst | later
  · exact .inl ((hexDigits_spec first).1 c inFirst)
  · split at later
    · cases later
    · rcases List.mem_cons.1 later with isDash | inLast
      · exact .inr isDash
      · exact .inl ((hexDigits_spec last).1 c inLast)

/-- A range without marks is written with no more digits than it was read from. -/
theorem lags_range {digits : List Char} (filled : digits ≠ [])
    (areHex : ∀ c ∈ digits, isHexDigit c = true) {written read : List Char}
    (short : written.length ≤ size read) (others : ∀ c ∈ read, isCloser c = false)
    (starts : digits <+: read) : Lags written read := by
  have some : 0 < size read := by
    obtain ⟨more, rfl⟩ := starts
    rw [size_append, size_hexDigits areHex]
    exact Nat.add_pos_left (List.length_pos_iff.2 filled) _
  exact ⟨.of_length_le (Nat.le_trans (size_le_length written) short), .of_others others some _⟩

/-- The spellings of a range of code points after `U+`: digits with marks for the last ones,
one number, or two numbers. -/
inductive SpellsRange : List Char → Nat → Nat → Prop where
  | marked {digits marks : List Char} : (∀ c ∈ digits, isHexDigit c = true) → marks ≠ [] →
      (∀ c ∈ marks, c = '?') →
      SpellsRange (digits ++ marks) (hexValue (digits ++ marks.map fun _ => '0'))
        (hexValue (digits ++ marks.map fun _ => 'F'))
  | single {digits : List Char} : digits ≠ [] → (∀ c ∈ digits, isHexDigit c = true) →
      SpellsRange digits (hexValue digits) (hexValue digits)
  | pair {digits others : List Char} : digits ≠ [] → (∀ c ∈ digits, isHexDigit c = true) →
      others ≠ [] → (∀ c ∈ others, isHexDigit c = true) →
      SpellsRange (digits ++ '-' :: others) (hexValue digits) (hexValue others)

/-- A range of code points is written no longer than it is spelled, but for marks, which are
not written. -/
theorem SpellsRange.lags {spelling : List Char} {first last : Nat}
    (spells : SpellsRange spelling first last) : Lags (writeRange first last) spelling := by
  cases spells with
  | @marked digits marks areHex filled areMarks =>
      have isMark : '?' ∈ marks := by
        obtain ⟨mark, more, rfl⟩ := List.exists_cons_of_ne_nil filled
        rw [areMarks mark List.mem_cons_self]
        exact List.mem_cons_self
      constructor
      -- a mark is never written, since its range is spelled out with digits
      · refine .of_not_mem (mem_unspaced.2 ⟨List.mem_append_right _ isMark, by decide⟩) ?_
        intro member
        rcases mem_writeRange (mem_unspaced.1 member).1 with isHex | isDash
        · cases isHex
        · cases isDash
      · refine .of_others ?_ ?_ _
        · intro c member
          rcases List.mem_append.1 member with inDigits | inMarks
          · exact isCloser_of_isHexDigit (areHex c inDigits)
          · rw [areMarks c inMarks]
            rfl
        · rw [size_append]
          exact Nat.add_pos_right _ (List.length_pos_of_mem (mem_unspaced.2 ⟨isMark, by decide⟩))
  | single filled areHex =>
      refine lags_range filled areHex ?_ (fun c member => isCloser_of_isHexDigit (areHex c member))
        List.prefix_rfl
      rw [writeRange, if_pos rfl, List.append_nil, size_hexDigits areHex]
      exact length_hexDigits_hexValue filled areHex
  | @pair digits others filled areHex filledOthers areHexOthers =>
      have short := length_hexDigits_hexValue filled areHex
      have shortOthers := length_hexDigits_hexValue filledOthers areHexOthers
      refine lags_range filled areHex ?_ ?_ (List.prefix_append _ _)
      · rw [size_append, size_cons (by decide), size_hexDigits areHex, size_hexDigits areHexOthers,
          writeRange, List.length_append]
        split
        · exact Nat.le_trans short (Nat.le_add_right _ _)
        · exact Nat.add_le_add short (Nat.succ_le_succ shortOthers)
      · intro c member
        rcases List.mem_append.1 member with inDigits | later
        · exact isCloser_of_isHexDigit (areHex c inDigits)
        · rcases List.mem_cons.1 later with rfl | inOthers
          · rfl
          · exact isCloser_of_isHexDigit (areHexOthers c inOthers)

/-- A range of code points is read from one of its spellings. -/
theorem takeUnicodeRange_spells {c : Char} {rest : List Char}
    (starts : isHexDigit c = true ∨ c = '?') {first last : Nat} {after : List Char}
    (read : takeUnicodeRange (c :: rest) = (first, last, after)) :
    ∃ spelling, c :: rest = spelling ++ after ∧ SpellsRange spelling first last := by
  have splitDigits := append_drop_take isHexDigit (c :: rest) 6
  have areHex := isHexDigit_of_mem_take (c :: rest) 6
  have noDigit : ((c :: rest).take 6).takeWhile isHexDigit = [] → c = '?' := by
    intro none
    refine starts.resolve_left fun isHex => ?_
    simp [isHex] at none
  rw [takeUnicodeRange] at read
  dsimp only at read
  -- what is taken gets a name, so that only the facts collected about it matter
  generalize ((c :: rest).take 6).takeWhile isHexDigit = digits at splitDigits areHex noDigit read
  have splitMarks := append_drop_take (· == '?') ((c :: rest).drop digits.length) (6 - digits.length)
  have areMarks : ∀ d ∈ (((c :: rest).drop digits.length).take (6 - digits.length)).takeWhile
      (· == '?'), d = '?' := fun d member => by
    simpa using List.all_eq_true.1 List.all_takeWhile d member
  have filled : digits = [] → (((c :: rest).drop digits.length).take
      (6 - digits.length)).takeWhile (· == '?') ≠ [] := by
    intro none
    rw [none, noDigit none]
    simp
  generalize (((c :: rest).drop digits.length).take (6 - digits.length)).takeWhile
    (· == '?') = marks at splitMarks areMarks filled read
  generalize (c :: rest).drop digits.length = afterDigits at splitDigits splitMarks read
  split at read
  · rename_i marked
    cases read
    exact ⟨digits ++ marks, by rw [List.append_assoc, splitMarks, splitDigits],
      .marked areHex marked areMarks⟩
  · rename_i unmarked
    have noMarks : marks = [] := by simpa using unmarked
    subst noMarks
    have someDigits : digits ≠ [] := fun none => filled none rfl
    rw [List.length_nil, List.drop_zero] at read
    split at read
    · rename_i more
      have splitOthers := append_drop_take isHexDigit more 6
      have areHexOthers := isHexDigit_of_mem_take more 6
      generalize (more.take 6).takeWhile isHexDigit = others at splitOthers areHexOthers read
      split at read
      · rename_i someOthers
        cases read
        refine ⟨digits ++ '-' :: others, ?_, .pair someDigits areHex someOthers areHexOthers⟩
        rw [List.append_assoc, List.cons_append, splitOthers, splitDigits]
      · cases read
        exact ⟨digits, splitDigits.symm, .single someDigits areHex⟩
    · cases read
      exact ⟨digits, splitDigits.symm, .single someDigits areHex⟩

theorem takeUnicodeRange_span {c : Char} {rest : List Char}
    (starts : isHexDigit c = true ∨ c = '?') {first last : Nat} {after : List Char}
    (read : takeUnicodeRange (c :: rest) = (first, last, after)) :
    Span (writeRange first last) (c :: rest) after := by
  obtain ⟨spelling, whole, spells⟩ := takeUnicodeRange_spells starts read
  exact ⟨spelling, whole, spells.lags⟩

end StyleSieve.Css
