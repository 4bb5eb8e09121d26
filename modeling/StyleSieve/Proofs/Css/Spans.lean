import Mathlib.Data.Bool.AllAny
import StyleSieve.Proofs.Css.Joints
import StyleSieve.Proofs.Css.Lagging

/-!
# The spans of names

A reader of the scanner takes a span of its text.  What is written for a name lags behind
its span: an escape is never written longer than it was spelled, and a digit or an exponent
mark that has to be escaped is not held by the text that is written for it.
-/

namespace StyleSieve.Css

/-! ## Escapes -/

/-- The spelling of an escape with its backslash, and the character that it stands for. -/
inductive SpellsEscape : List Char → Char → Prop where
  | itself {c : Char} : isHexDigit c = false → SpellsEscape ['\\', c] c
  | code {digits blanks : List Char} : digits ≠ [] → (∀ c ∈ digits, isHexDigit c = true) →
      (∀ c ∈ blanks, isSpace c = true) →
        SpellsEscape ('\\' :: (digits ++ blanks)) (charOfCode (hexValue digits))
  | broken : SpellsEscape ['\\'] replacement

theorem escaped_spells (text : List Char) :
    ∃ spelling, text = spelling ++ (escaped text).2 ∧
      SpellsEscape ('\\' :: spelling) (escaped text).1 := by
  cases text with
  | nil => exact ⟨[], rfl, .broken⟩
  | cons c rest =>
      cases isHex : isHexDigit c with
      | false =>
          rw [escaped_of_not_hex isHex]
          exact ⟨[c], rfl, .itself isHex⟩
      | true =>
          rw [escaped, if_pos isHex]
          dsimp only
          have isTaken := (List.takeWhile_prefix isHexDigit (l := (c :: rest).take 6)).trans
            (List.take_prefix 6 _)
          have areHex : ∀ d ∈ ((c :: rest).take 6).takeWhile isHexDigit, isHexDigit d = true :=
            fun d member => List.all_eq_true.1 List.all_takeWhile d member
          have filled : ((c :: rest).take 6).takeWhile isHexDigit ≠ [] := by simp [isHex]
          generalize ((c :: rest).take 6).takeWhile isHexDigit = digits at isTaken areHex filled ⊢
          obtain ⟨after, whole⟩ := isTaken
          rw [← whole, List.drop_left]
          cases after with
          | nil => exact ⟨digits ++ [], by simp, .code filled areHex (by simp)⟩
          | cons d later =>
              cases isBlank : isSpace d with
              | false =>
                  refine ⟨digits ++ [], ?_, .code filled areHex (by simp)⟩
                  simp [isBlank]
              | true =>
                  refine ⟨digits ++ [d], ?_, .code filled areHex (by simpa using isBlank)⟩
                  simp [isBlank]

theorem isHexDigit_ne_space {c : Char} (isHex : isHexDigit c = true) : c ≠ ' ' := by
  rintro rfl
  cases isHex

theorem isCloser_of_isHexDigit {c : Char} (isHex : isHexDigit c = true) : isCloser c = false := by
  cases closes : isCloser c with
  | false => rfl
  | true =>
      simp only [isCloser, Bool.or_eq_true, beq_iff_eq] at closes
      rcases closes with ((rfl | rfl) | rfl) | rfl <;> cases isHex

theorem isCloser_of_isSpace {c : Char} (isBlank : isSpace c = true) : isCloser c = false := by
  simp only [isSpace, Bool.or_eq_true, beq_iff_eq] at isBlank
  rcases isBlank with (rfl | rfl) | rfl <;> rfl

theorem size_hexDigits {digits : List Char} (areHex : ∀ c ∈ digits, isHexDigit c = true) :
    size digits = digits.length := by
  rw [size, unspaced, List.filter_eq_self.2]
  intro c member
  simpa using isHexDigit_ne_space (areHex c member)

namespace SpellsEscape

variable {spelling : List Char} {c : Char}

theorem starts (spells : SpellsEscape spelling c) : ∃ more, spelling = '\\' :: more := by
  cases spells with
  | itself _ => exact ⟨_, rfl⟩
  | code _ _ _ => exact ⟨_, rfl⟩
  | broken => exact ⟨_, rfl⟩

theorem backslash_mem (spells : SpellsEscape spelling c) : '\\' ∈ unspaced spelling := by
  obtain ⟨more, rfl⟩ := spells.starts
  exact mem_unspaced.2 ⟨List.mem_cons_self, by decide⟩

theorem size_pos (spells : SpellsEscape spelling c) : 0 < size spelling :=
  List.length_pos_of_mem spells.backslash_mem

theorem size_code {digits : List Char} (areHex : ∀ c ∈ digits, isHexDigit c = true)
    (blanks : List Char) : digits.length + 1 ≤ size ('\\' :: (digits ++ blanks)) := by
  rw [size_cons (by decide), size_append, size_hexDigits areHex]
  omega

/-- Only an escaped closer ends in a closer. -/
theorem closingRun_le (spells : SpellsEscape spelling c) :
    closingRun (unspaced spelling) ≤ closingRun [c] := by
  cases spells with
  | itself notHex =>
      by_cases isSpaceChar : c = ' '
      · subst isSpaceChar
        exact Nat.le_refl _
      · rw [unspaced_cons (by decide), unspaced_cons isSpaceChar]
        cases closes : isCloser c with
        | true =>
            have closers : [c].all isCloser = true := by simpa using closes
            have run := closingRun_append_closers ['\\'] closers
            rw [closingRun_closers closers]
            exact Nat.le_of_eq run
        | false =>
            rw [closingRun_eq_zero]
            · exact Nat.zero_le _
            · simpa using ⟨by decide, closes⟩
  | code filled areHex areBlank =>
      rw [closingRun_eq_zero]
      · exact Nat.zero_le _
      · intro d member
        rcases List.mem_cons.1 (mem_unspaced.1 member).1 with rfl | later
        · decide
        · rcases List.mem_append.1 later with inDigits | inBlanks
          · exact isCloser_of_isHexDigit (areHex d inDigits)
          · exact isCloser_of_isSpace (areBlank d inBlanks)
  | broken => exact Nat.zero_le _

theorem lags_of_size (spells : SpellsEscape spelling c) {written : List Char}
    (short : size written ≤ size spelling)
    (run : closingRun [c] ≤ closingRun (unspaced written)) : Lags written spelling :=
  .of_size short (Nat.le_trans spells.closingRun_le run)
    (all_eq_false_of_mem spells.backslash_mem (by decide))

theorem two_le_size (spells : SpellsEscape spelling c) (notSpace : c ≠ ' ')
    (notReplacement : c ≠ replacement) : 2 ≤ size spelling := by
  cases spells with
  | itself notHex => rw [size_cons (by decide), size_cons notSpace]; exact Nat.le_refl _
  | @code digits blanks filled areHex areBlank =>
      have long := size_code areHex blanks
      have some := List.length_pos_iff.2 filled
      exact Nat.le_trans (Nat.succ_le_succ some) long
  | broken => exact absurd rfl notReplacement

/-- A character is escaped behind a backslash or by its code, which has two digits at least
unless it is small. -/
theorem itself_or_code (spells : SpellsEscape spelling c) (large : 16 ≤ c.toNat)
    (notReplacement : c ≠ replacement) :
    (isHexDigit c = false ∧ spelling = ['\\', c]) ∨ 3 ≤ size spelling := by
  cases spells with
  | itself notHex => exact .inl ⟨notHex, rfl⟩
  | @code digits blanks filled areHex areBlank =>
      have value : 16 ≤ hexValue digits := by
        unfold charOfCode at large notReplacement
        split at large
        · rename_i valid
          rw [Text.toNat_charAt valid.2] at large
          split at large <;> omega
        · rename_i invalid
          rw [if_neg invalid] at notReplacement
          exact absurd rfl notReplacement
      have long : 2 ≤ digits.length := by
        have bound := hexValue_lt areHex
        match digits with
        | [] => exact absurd rfl filled
        | [digit] => exact absurd bound (Nat.not_lt_of_le value)
        | _ :: _ :: _ => exact Nat.succ_le_succ (Nat.succ_le_succ (Nat.zero_le _))
      exact .inr (Nat.le_trans (Nat.succ_le_succ long) (size_code areHex _))
  | broken => exact absurd rfl notReplacement

theorem three_le_size (spells : SpellsEscape spelling c) (isHex : isHexDigit c = true)
    (large : 16 ≤ c.toNat) : 3 ≤ size spelling := by
  have notReplacement : c ≠ replacement := by
    rintro rfl
    cases isHex
  rcases spells.itself_or_code large notReplacement with ⟨notHex, _⟩ | long
  · rw [isHex] at notHex
    cases notHex
  · exact long

end SpellsEscape

/-! ## Characters -/

/-- The ways to write a character: as it is, behind a backslash or by its code. -/
inductive WritesChar (c : Char) : List Char → Prop where
  | bare : WritesChar c [c]
  | escape : c ≠ replacement → WritesChar c ['\\', c]
  | code {digit : Char} : isHexDigit digit = true → c ∈ ['\n', '\r', '\x0c', '\t'] →
      WritesChar c ['\\', digit, ' ']

/-- A character is never written longer than its escape. -/
theorem SpellsEscape.lags {spelling written : List Char} {c : Char}
    (spells : SpellsEscape spelling c) (writes : WritesChar c written) : Lags written spelling := by
  cases writes with
  | bare =>
      refine spells.lags_of_size (Nat.le_trans (size_le_length [c]) spells.size_pos) ?_
      by_cases isSpaceChar : c = ' '
      · subst isSpaceChar
        exact Nat.le_refl _
      · rw [unspaced_cons isSpaceChar]
        exact Nat.le_refl _
  | escape notReplacement =>
      by_cases isSpaceChar : c = ' '
      · subst isSpaceChar
        exact spells.lags_of_size spells.size_pos (Nat.le_refl _)
      · refine spells.lags_of_size ?_ ?_
        · exact Nat.le_trans (size_le_length _) (spells.two_le_size isSpaceChar notReplacement)
        · rw [unspaced_cons (by decide), unspaced_cons isSpaceChar]
          exact closingRun_le_append ['\\'] [c]
  | code isHex isBreak =>
      have spec : ∀ c ∈ ['\n', '\r', '\x0c', '\t'],
          c ≠ ' ' ∧ c ≠ replacement ∧ closingRun [c] = 0 :=
        List.all_iff_forall_prop.1 (by decide)
      obtain ⟨notSpace, notReplacement, run⟩ := spec c isBreak
      refine spells.lags_of_size ?_ (run ▸ Nat.zero_le _)
      rw [size_cons (by decide), size_cons (isHexDigit_ne_space isHex)]
      exact spells.two_le_size notSpace notReplacement

theorem WritesChar.breakOr {c : Char} {written : List Char} (writes : WritesChar c written) :
    WritesChar c ((escapedBreak? c).getD written) := by
  unfold escapedBreak?
  split
  · rename_i isBreak
    rw [beq_iff_eq.1 isBreak]
    exact .code (by decide) (by decide)
  · split
    · rename_i isBreak
      rw [beq_iff_eq.1 isBreak]
      exact .code (by decide) (by decide)
    · split
      · rename_i isBreak
        rw [beq_iff_eq.1 isBreak]
        exact .code (by decide) (by decide)
      · exact writes

theorem writesNameChar (c : Char) : WritesChar c (writeNameChar c) := by
  unfold writeNameChar
  split
  · exact .bare
  · rename_i notName
    refine (WritesChar.escape ?_).breakOr
    rintro rfl
    exact notName (by decide)

theorem writesIdentStart {c : Char} (notDigit : c.isDigit = false) :
    WritesChar c (writeIdentStart c) := by
  unfold writeIdentStart
  rw [notDigit]
  split
  · exact .bare
  · rename_i notStart
    refine (WritesChar.escape ?_).breakOr
    rintro rfl
    exact notStart (by decide)

theorem writesStringChar (c : Char) : WritesChar c (writeStringChar c) := by
  unfold writeStringChar
  split
  · rename_i special
    refine .escape ?_
    rintro rfl
    cases special
  · exact WritesChar.bare.breakOr

theorem writesUrlChar (c : Char) : WritesChar c (writeUrlChar c) := by
  unfold writeUrlChar
  split
  · rename_i special
    refine .escape ?_
    rintro rfl
    cases special
  · split
    · rename_i isTab
      rw [beq_iff_eq.1 isTab]
      exact .code (by decide) (by decide)
    · exact WritesChar.bare.breakOr

/-! ## Names -/

/-- The code of a digit is written with two digits. -/
theorem writeIdentStart_digit {c : Char} (isDigit : c.isDigit = true) :
    ∃ digit, writeIdentStart c = ['\\', '3', digit, ' '] ∧ isHexDigit digit = true := by
  obtain ⟨digit, spelled, isHex, _⟩ := hexDigits_digit isDigit
  refine ⟨digit, ?_, isHex⟩
  rw [writeIdentStart, isNameStart_digit isDigit, isDigit, spelled]
  rfl

theorem isHexDigit_of_isDigit {c : Char} (isDigit : c.isDigit = true) : isHexDigit c = true := by
  rw [isHexDigit, isDigit]
  rfl

theorem SpellsEscape.lags_identStart {spelling : List Char} {c : Char}
    (spells : SpellsEscape spelling c) : Lags (writeIdentStart c) spelling := by
  cases isDigit : c.isDigit with
  | false => exact spells.lags (writesIdentStart isDigit)
  | true =>
      have isHex := isHexDigit_of_isDigit isDigit
      have large : 16 ≤ c.toNat := by
        rw [Char.isDigit, Bool.and_eq_true, decide_eq_true_eq] at isDigit
        exact Nat.le_trans (by decide) isDigit.1
      have notClosing : closingRun [c] = 0 :=
        closingRun_eq_zero (by simpa using isCloser_of_isHexDigit isHex)
      obtain ⟨digit, written, isHexLast⟩ := writeIdentStart_digit isDigit
      refine spells.lags_of_size ?_ (notClosing ▸ Nat.zero_le _)
      rw [written, size_cons (by decide), size_cons (by decide),
        size_cons (isHexDigit_ne_space isHexLast)]
      exact spells.three_le_size isHex large

/-- The spelling of a character of a name. -/
inductive SpellsNameChar : List Char → Char → Prop where
  | raw {c : Char} : isNameChar c = true → SpellsNameChar [c] c
  | escape {spelling : List Char} {c : Char} : SpellsEscape spelling c → SpellsNameChar spelling c

theorem SpellsNameChar.lags {spelling : List Char} {c : Char}
    (spells : SpellsNameChar spelling c) : Lags (writeNameChar c) spelling := by
  cases spells with
  | raw isName =>
      rw [writeNameChar, if_pos isName]
      exact .refl [c]
  | escape spells => exact spells.lags (writesNameChar c)

theorem SpellsNameChar.size_pos {spelling : List Char} {c : Char}
    (spells : SpellsNameChar spelling c) : 0 < size spelling := by
  cases spells with
  | raw isName =>
      rw [size_cons]
      · exact Nat.succ_pos _
      · rintro rfl
        cases isName
  | escape spells => exact spells.size_pos

/-- The first character of a name that a text starts with is spelled at its start. -/
theorem takeName_first {text : List Char} {c : Char} {more after : List Char}
    (read : takeName text = (c :: more, after)) :
    ∃ spelling rest, text = spelling ++ rest ∧ SpellsNameChar spelling c ∧
      takeName rest = (more, after) := by
  cases text with
  | nil =>
      rw [takeName] at read
      cases read
  | cons d rest =>
      cases isName : isNameChar d with
      | true =>
          rw [takeName_cons isName] at read
          cases read
          exact ⟨_, rest, rfl, .raw isName, rfl⟩
      | false =>
          cases isEscape : d == '\\' && escapes rest with
          | true =>
              rw [Bool.and_eq_true, beq_iff_eq] at isEscape
              obtain ⟨rfl, isEscape⟩ := isEscape
              obtain ⟨spelling, whole, spells⟩ := escaped_spells rest
              rw [takeName_escape isEscape] at read
              cases read
              refine ⟨'\\' :: spelling, (escaped rest).2, ?_, .escape spells, rfl⟩
              rw [List.cons_append, ← whole]
          | false =>
              rw [takeName, isName, isEscape] at read
              cases read

theorem takeName_nothing {text after : List Char} (read : takeName text = ([], after)) :
    endsName text = true ∧ after = text := by
  cases text with
  | nil =>
      rw [takeName] at read
      cases read
      exact ⟨rfl, rfl⟩
  | cons c rest =>
      have ends : endsName (c :: rest) = true := by
        cases isName : isNameChar c with
        | true =>
            rw [takeName_cons isName] at read
            cases read
        | false =>
            cases isEscape : c == '\\' && escapes rest with
            | true =>
                rw [takeName, isName, isEscape] at read
                cases read
            | false =>
                rw [endsName, isName, isEscape]
                rfl
      rw [takeName_of_endsName ends] at read
      cases read
      exact ⟨ends, rfl⟩

theorem length_takeName {text name after : List Char} (read : takeName text = (name, after)) :
    name.length + size after ≤ size text := by
  induction name generalizing text with
  | nil =>
      rw [(takeName_nothing read).2]
      exact Nat.le_of_eq (Nat.zero_add _)
  | cons c more ih =>
      obtain ⟨spelling, rest, rfl, spells, readRest⟩ := takeName_first read
      have long := ih readRest
      have some := spells.size_pos
      rw [size_append, List.length_cons]
      omega

/-- A text starts with a span, up to `after`, behind which a written text lags. -/
def Span (written text after : List Char) : Prop :=
  ∃ span, text = span ++ after ∧ Lags written span

theorem Span.prepend {written text after more spelling : List Char}
    (span : Span written text after) (lags : Lags more spelling) :
    Span (more ++ written) (spelling ++ text) after := by
  obtain ⟨read, rfl, lagsRead⟩ := span
  exact ⟨spelling ++ read, (List.append_assoc ..).symm, lags.append lagsRead⟩

theorem Span.nil (text : List Char) : Span [] text text :=
  ⟨[], rfl, .refl []⟩

/-- The name that a text starts with is written no longer than it is spelled. -/
theorem takeName_span {text name after : List Char} (read : takeName text = (name, after)) :
    Span (writeName name) text after := by
  induction name generalizing text with
  | nil =>
      rw [(takeName_nothing read).2]
      exact .nil text
  | cons c more ih =>
      obtain ⟨spelling, rest, rfl, spells, readRest⟩ := takeName_first read
      exact (ih readRest).prepend spells.lags

/-! ## Identifiers -/

theorem writeIdent_cons {c : Char} (notDash : c ≠ '-') (more : List Char) :
    writeIdent (c :: more) = writeIdentStart c ++ writeName more := by
  rw [writeIdent]
  · exact fun isDash _ => notDash isDash
  · exact fun _ isDash _ => notDash isDash
  · exact fun _ _ isDash _ => notDash isDash

theorem writeIdent_dash {c : Char} (notDash : c ≠ '-') (more : List Char) :
    writeIdent ('-' :: c :: more) = ['-'] ++ (writeIdentStart c ++ writeName more) := by
  rw [writeIdent]
  · rfl
  · exact notDash

theorem SpellsNameChar.lags_identStart {spelling : List Char} {c : Char}
    (spells : SpellsNameChar spelling c)
    (starts : isNameChar c = true → spelling = [c] → isNameStart c = true) :
    Lags (writeIdentStart c) spelling := by
  cases spells with
  | raw isName =>
      rw [writeIdentStart, if_pos (starts isName rfl)]
      exact .refl [c]
  | escape spells => exact spells.lags_identStart

/-- A digit after an escaped dash is escaped where the dash is not. -/
theorem lags_dashDigit {spelling : List Char} (spells : SpellsEscape spelling '-') {c : Char}
    (isDigit : c.isDigit = true) :
    Lags (['-'] ++ writeIdentStart c) (spelling ++ [c]) := by
  have isHex := isHexDigit_of_isDigit isDigit
  obtain ⟨digit, written, isHexLast⟩ := writeIdentStart_digit isDigit
  have solid := isHexDigit_ne_space isHex
  have text : unspaced (['-'] ++ writeIdentStart c) = ['-', '\\', '3', digit] := by
    rw [written, unspaced_append, unspaced_cons (by decide), unspaced_cons (by decide),
      unspaced_cons (by decide), unspaced_cons (isHexDigit_ne_space isHexLast)]
    rfl
  have last : unspaced [c] = [c] := by rw [unspaced_cons solid, unspaced_nil]
  have other : [c].all isCloser = false :=
    all_eq_false_of_mem List.mem_cons_self (isCloser_of_isHexDigit isHex)
  constructor
  · rw [text, unspaced_append, last]
    rcases spells.itself_or_code (by decide) (by decide) with ⟨_, rfl⟩ | long
    · -- the text starts with a dash and holds one more character than the spelling
      intro before after whole
      cases before with
      | nil => cases whole
      | cons d more =>
          have length := congrArg List.length whole
          simp only [List.length_cons, List.length_append, List.length_nil] at length
          exact List.eq_nil_of_length_eq_zero (by
            have : (unspaced ['\\', '-']).length = 2 := rfl
            omega)
    · refine .of_length_le ?_
      rw [List.length_append]
      exact Nat.succ_le_succ long
  · rw [unspaced_append spelling, last]
    refine .more ?_ (all_append_of_other (.inr other))
    rw [closingRun_append_other _ other, closingRun_eq_zero (by simpa using isCloser_of_isHexDigit isHex)]
    exact Nat.zero_le _

theorem ne_backslash_of_isNameChar {c : Char} (isName : isNameChar c = true) : c ≠ '\\' := by
  rintro rfl
  cases isName

theorem isNameStart_of_isNameChar {c : Char} (isName : isNameChar c = true)
    (notDigit : c.isDigit = false) (notDash : c ≠ '-') : isNameStart c = true := by
  simpa [isNameChar, notDigit, notDash] using isName

theorem startsIdent_dash_ends {rest : List Char} (ends : endsName rest = true) :
    startsIdent ('-' :: rest) = false := by
  cases rest with
  | nil => rfl
  | cons c more =>
      rw [endsName, Bool.and_eq_true, Bool.not_eq_true', Bool.not_eq_true'] at ends
      by_cases isBackslash : c = '\\'
      · subst isBackslash
        exact ends.2
      · rw [startsIdent]
        · simp only [isNameChar, Bool.or_eq_false_iff] at ends
          rw [ends.1.1.1, ends.1.2]
          rfl
        · exact isBackslash

/-- The identifier that a text starts with is written no longer than it is spelled, but for
a digit after an escaped dash. -/
theorem writeIdent_span {text name after : List Char} (starts : startsIdent text = true)
    (read : takeName text = (name, after)) : Span (writeIdent name) text after := by
  cases name with
  | nil =>
      rw [(takeName_nothing read).2]
      exact .nil text
  | cons c more =>
      obtain ⟨spelling, rest, rfl, spells, readRest⟩ := takeName_first read
      -- how the second character is written depends on whether the first is a dash
      by_cases isDash : c = '-'
      · subst isDash
        have dash : Lags ['-'] spelling := spells.lags
        cases more with
        | nil =>
            obtain ⟨ends, rfl⟩ := takeName_nothing readRest
            cases spells with
            | raw _ =>
                rw [List.singleton_append, startsIdent_dash_ends ends] at starts
                cases starts
            | escape spells => exact ⟨spelling, rfl, spells.lags (.escape (by decide))⟩
        | cons d others =>
            by_cases isDashToo : d = '-'
            · subst isDashToo
              exact (takeName_span readRest).prepend dash
            · obtain ⟨spellingNext, restNext, rfl, spellsNext, readNext⟩ := takeName_first readRest
              have tail := takeName_span readNext
              rw [writeIdent_dash isDashToo]
              cases spells with
              | raw _ =>
                  refine (tail.prepend (spellsNext.lags_identStart ?_)).prepend dash
                  rintro isName rfl
                  rw [List.singleton_append, List.singleton_append, startsIdent,
                    beq_eq_false_iff_ne.2 isDashToo, Bool.or_false] at starts
                  · exact starts
                  · exact ne_backslash_of_isNameChar isName
              | escape spells =>
                  cases spellsNext with
                  | escape spellsNext =>
                      exact (tail.prepend spellsNext.lags_identStart).prepend dash
                  | raw isName =>
                      cases isDigit : d.isDigit with
                      | true =>
                          rw [← List.append_assoc, ← List.append_assoc]
                          exact tail.prepend (lags_dashDigit spells isDigit)
                      | false =>
                          have isStart := isNameStart_of_isNameChar isName isDigit isDashToo
                          rw [writeIdentStart, if_pos isStart]
                          exact (tail.prepend (.refl [d])).prepend dash
      · rw [writeIdent_cons isDash]
        refine (takeName_span readRest).prepend (spells.lags_identStart ?_)
        rintro isName rfl
        rw [List.singleton_append,
          startsIdent_cons isDash (ne_backslash_of_isNameChar isName)] at starts
        exact starts

/-- A unit that starts like an exponent has its mark written by its code. -/
theorem writeUnit_cases (unit : List Char) :
    writeUnit unit = writeIdent unit ∨
      ∃ mark more, (mark = 'e' ∨ mark = 'E') ∧ unit = mark :: more ∧
        writeUnit unit = "\\65 ".toList ++ writeName more := by
  unfold writeUnit
  split
  · rename_i c
    split
    · rename_i isMark
      exact .inr ⟨c, [], by simpa using isMark, rfl, rfl⟩
    · exact .inl rfl
  · rename_i c rest
    split
    · rename_i isMark
      exact .inr ⟨c, _, by simpa using isMark, rfl, rfl⟩
    · exact .inl rfl
  · exact .inl rfl

/-- The code of an exponent mark does not hold the mark. -/
theorem SpellsNameChar.lags_mark {spelling : List Char} {mark : Char}
    (spells : SpellsNameChar spelling mark) (isMark : mark = 'e' ∨ mark = 'E') :
    Lags "\\65 ".toList spelling := by
  have spec : ∀ mark ∈ ['e', 'E'], mark ∉ unspaced "\\65 ".toList ∧ isCloser mark = false ∧
      mark ≠ ' ' ∧ isHexDigit mark = true ∧ 16 ≤ mark.toNat :=
    List.all_iff_forall_prop.1 (by decide)
  obtain ⟨missing, other, solid, isHex, large⟩ := spec mark (by simpa using isMark)
  have run : closingRun [mark] = 0 := closingRun_eq_zero (by simpa using other)
  cases spells with
  | raw _ =>
      have last : unspaced [mark] = [mark] := by rw [unspaced_cons solid, unspaced_nil]
      constructor
      · rw [last]
        exact .of_not_mem List.mem_cons_self missing
      · rw [last]
        exact .more (run ▸ Nat.zero_le _) (all_eq_false_of_mem List.mem_cons_self other)
  | escape spells =>
      exact spells.lags_of_size (spells.three_le_size isHex large) (run ▸ Nat.zero_le _)

theorem writeUnit_span {text unit after : List Char} (starts : startsIdent text = true)
    (read : takeName text = (unit, after)) : Span (writeUnit unit) text after := by
  rcases writeUnit_cases unit with same | ⟨mark, more, isMark, rfl, written⟩
  · rw [same]
    exact writeIdent_span starts read
  · obtain ⟨spelling, rest, rfl, spells, readRest⟩ := takeName_first read
    rw [written]
    exact (takeName_span readRest).prepend (spells.lags_mark isMark)

end StyleSieve.Css
