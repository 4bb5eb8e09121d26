import Mathlib.Data.Bool.AllAny
import Mathlib.Data.List.TakeWhile
import StyleSieve.Proofs.Css.Faults

/-!
# Texts that leave nothing open

A text that leaves no string, address or comment open, and whose last lexeme ends a
statement, is read before other text as it is read alone.  Only the white space at its end
runs into the white space that follows.
-/

namespace StyleSieve.Css

/-- Whether a text leaves a string, an address or a comment open. -/
def endsOpen (text : List Char) : Bool :=
  match text with
  | [] => false
  | c :: rest => leavesOpen c rest || endsOpen (scan c rest).2
termination_by text.length
decreasing_by
  simpa using Nat.lt_succ_of_le (scan_suffix c rest).length_le

/-! ## White space at the seam -/

/-- Whether a lexeme is white space. -/
def Lexeme.isWhitespace : Lexeme → Bool
  | .token (.whitespace _) => true
  | _ => false

/-- Lexemes that are white space. -/
def AreBlank (lexemes : List (Nat × Lexeme)) : Prop :=
  ∀ read ∈ lexemes, read.2.isWhitespace = true

theorem AreBlank.nil : AreBlank [] := nofun

theorem AreBlank.single (offset : Nat) (text : List Char) :
    AreBlank [(offset, .token (.whitespace text))] := by
  intro read member
  rw [List.mem_singleton.1 member]
  rfl

theorem lexemesFrom_nil (offset : Nat) : lexemesFrom offset [] = [] := by
  rw [lexemesFrom]

/-- The lexemes from a character on: those of the step that it starts, and those of the text
after the step. -/
theorem lexemesFrom_cons (offset : Nat) (c : Char) (rest : List Char) :
    lexemesFrom offset (c :: rest) =
      (scan c rest).1.map (offset, ·) ++
        lexemesFrom (offset + ((c :: rest).length - (scan c rest).2.length)) (scan c rest).2 := by
  rw [lexemesFrom]

/-- The lexemes after the first step are those of the text that is left. -/
theorem lexemesFrom_step (offset : Nat) (c : Char) (rest : List Char) :
    ∃ skipped, c :: rest = skipped ++ (scan c rest).2 ∧
      (scan c rest).2.length < (c :: rest).length ∧
      lexemesFrom offset (c :: rest) =
        (scan c rest).1.map (offset, ·) ++
          lexemesFrom (offset + skipped.length) (scan c rest).2 := by
  obtain ⟨skipped, whole⟩ := scan_suffix c rest
  have text : c :: rest = c :: skipped ++ (scan c rest).2 := congrArg (c :: ·) whole.symm
  have length : (c :: rest).length = (c :: skipped).length + (scan c rest).2.length := by
    rw [← List.length_append, ← text]
  refine ⟨c :: skipped, text, ?_, ?_⟩
  · rw [length]
    exact Nat.lt_add_of_pos_left (Nat.succ_pos _)
  · rw [lexemesFrom_cons, length, Nat.add_sub_cancel]

theorem dropWhile_blank {blanks : List Char} (areBlank : ∀ c ∈ blanks, isSpace c = true)
    (text : List Char) : (blanks ++ text).dropWhile isSpace = text.dropWhile isSpace := by
  induction blanks with
  | nil => rfl
  | cons c more ih =>
      rw [List.forall_mem_cons] at areBlank
      rw [List.cons_append, List.dropWhile_cons_of_pos areBlank.1, ih areBlank.2]

/-- A text is read up to its first character that is no blank as white space. -/
theorem lexemesFrom_dropWhile (offset : Nat) (text : List Char) :
    ∃ gap, AreBlank gap ∧ lexemesFrom offset text = gap ++
      lexemesFrom (offset + (text.length - (text.dropWhile isSpace).length))
        (text.dropWhile isSpace) := by
  cases text with
  | nil => exact ⟨[], .nil, by simp⟩
  | cons c rest =>
      cases isBlank : isSpace c with
      | false => exact ⟨[], .nil, by rw [List.dropWhile_cons_of_neg (by simp [isBlank])]; simp⟩
      | true =>
          refine ⟨_, .single offset (c :: rest.takeWhile isSpace), ?_⟩
          rw [lexemesFrom_cons, scan_blank isBlank, List.dropWhile_cons_of_pos isBlank]
          rfl

/-- Blanks before a text run into the white space that it starts with. -/
theorem lexemesFrom_blanks (offset : Nat) {blanks : List Char}
    (areBlank : ∀ c ∈ blanks, isSpace c = true) (text : List Char) :
    ∃ gap gapAfter lexemes, AreBlank gap ∧ AreBlank gapAfter ∧
      lexemesFrom offset (blanks ++ text) = gap ++ lexemes ∧
      lexemesFrom (offset + blanks.length) text = gapAfter ++ lexemes := by
  obtain ⟨gap, isGap, whole⟩ := lexemesFrom_dropWhile offset (blanks ++ text)
  obtain ⟨gapAfter, isGapAfter, after⟩ := lexemesFrom_dropWhile (offset + blanks.length) text
  have short := (List.dropWhile_suffix isSpace (l := text)).length_le
  have sameOffset : offset + ((blanks ++ text).length - (text.dropWhile isSpace).length) =
      offset + blanks.length + (text.length - (text.dropWhile isSpace).length) := by
    rw [List.length_append]
    omega
  rw [dropWhile_blank areBlank, sameOffset] at whole
  exact ⟨gap, gapAfter, _, isGap, isGapAfter, whole, after⟩

/-! ## Texts that are read before other text -/

/-- Every step of the scanner on a text is the same before `more`, up to the white space at
the end of the text. -/
inductive ReadBefore (more : List Char) : List Char → Prop where
  | blanks {text : List Char} : (∀ c ∈ text, isSpace c = true) → ReadBefore more text
  | step {c : Char} {rest : List Char} :
      scan c (rest ++ more) = ((scan c rest).1, (scan c rest).2 ++ more) →
      ReadBefore more (scan c rest).2 → ReadBefore more (c :: rest)

/-- Decides whether a text is read before `more` as it is read alone. -/
def readsBefore (more text : List Char) : Bool :=
  match text with
  | [] => true
  | c :: rest =>
      (c :: rest).all isSpace ||
        (decide (scan c (rest ++ more) = ((scan c rest).1, (scan c rest).2 ++ more)) &&
          readsBefore more (scan c rest).2)
termination_by text.length
decreasing_by
  simpa using Nat.lt_succ_of_le (scan_suffix c rest).length_le

theorem readsBefore_iff {more text : List Char} :
    readsBefore more text = true ↔ ReadBefore more text := by
  fun_induction readsBefore more text with
  | case1 => exact ⟨fun _ => .blanks nofun, fun _ => rfl⟩
  | case2 c rest ih =>
      rw [Bool.or_eq_true, Bool.and_eq_true, decide_eq_true_iff, List.all_eq_true, ih]
      constructor
      · rintro (areBlank | ⟨same, reads⟩)
        · exact .blanks areBlank
        · exact .step same reads
      · rintro (areBlank | ⟨same, reads⟩)
        · exact .inl areBlank
        · exact .inr ⟨same, reads⟩

instance (more text : List Char) : Decidable (ReadBefore more text) :=
  decidable_of_iff _ readsBefore_iff

/-- A step that is the same before `more` has the same lexemes before those of the text after
it. -/
theorem lexemesFrom_same {c : Char} {rest more : List Char}
    (same : scan c (rest ++ more) = ((scan c rest).1, (scan c rest).2 ++ more)) (offset : Nat) :
    ∃ start, start + (scan c rest).2.length = offset + (c :: rest).length ∧
      lexemesFrom offset (c :: rest) =
        (scan c rest).1.map (offset, ·) ++ lexemesFrom start (scan c rest).2 ∧
      lexemesFrom offset (c :: rest ++ more) =
        (scan c rest).1.map (offset, ·) ++ lexemesFrom start ((scan c rest).2 ++ more) := by
  have short := Nat.lt_succ_of_le (scan_suffix c rest).length_le
  have sameOffset : (c :: (rest ++ more)).length - ((scan c rest).2 ++ more).length =
      (c :: rest).length - (scan c rest).2.length := by
    simp only [List.length_cons, List.length_append]
    omega
  refine ⟨offset + ((c :: rest).length - (scan c rest).2.length), ?_, lexemesFrom_cons .., ?_⟩
  · simp only [List.length_cons]
    omega
  · rw [List.cons_append, lexemesFrom_cons, same, sameOffset]

/-- The lexemes of a text stand before those of the text that follows it. -/
theorem ReadBefore.lexemesFrom_append {more text : List Char} (reads : ReadBefore more text)
    (offset : Nat) :
    ∃ front last gap gapAfter lexemes, AreBlank last ∧ AreBlank gap ∧ AreBlank gapAfter ∧
      lexemesFrom offset text = front ++ last ∧
      lexemesFrom offset (text ++ more) = front ++ gap ++ lexemes ∧
      lexemesFrom (offset + text.length) more = gapAfter ++ lexemes := by
  induction reads generalizing offset with
  | @blanks text areBlank =>
      obtain ⟨gap, gapAfter, lexemes, isGap, isGapAfter, whole, after⟩ :=
        lexemesFrom_blanks offset areBlank more
      obtain ⟨last, _, nothing, isLast, isNothing, alone, ended⟩ :=
        lexemesFrom_blanks offset areBlank []
      have none : nothing = [] := by
        rw [lexemesFrom] at ended
        exact (List.append_eq_nil_iff.1 ended.symm).2
      rw [none, List.append_nil, List.append_nil] at alone
      exact ⟨[], last, gap, gapAfter, lexemes, isLast, isGap, isGapAfter, alone, whole, after⟩
  | @step c rest same _ ih =>
      obtain ⟨start, sameEnd, alone, whole⟩ := lexemesFrom_same same offset
      obtain ⟨front, last, gap, gapAfter, lexemes, isLast, isGap, isGapAfter, later, laterWhole,
        after⟩ := ih start
      refine ⟨(scan c rest).1.map (offset, ·) ++ front, last, gap, gapAfter, lexemes, isLast, isGap,
        isGapAfter, ?_, ?_, ?_⟩
      · rw [alone, later, List.append_assoc]
      · rw [whole, laterWhole]
        simp only [List.append_assoc]
      · rw [← sameEnd, after]

/-- Before a text that starts with no blank, the lexemes of a text are exactly its own. -/
theorem ReadBefore.lexemesFrom_append_solid {first : Char} {later text : List Char}
    (reads : ReadBefore (first :: later) text) (notBlank : isSpace first = false) (offset : Nat) :
    lexemesFrom offset (text ++ first :: later) =
      lexemesFrom offset text ++ lexemesFrom (offset + text.length) (first :: later) := by
  induction reads generalizing offset with
  | @blanks text areBlank =>
      cases text with
      | nil =>
          rw [lexemesFrom_nil]
          rfl
      | cons c rest =>
          obtain ⟨isBlank, others⟩ := List.forall_mem_cons.1 areBlank
          have same : scan c (rest ++ first :: later) =
              ((scan c rest).1, (scan c rest).2 ++ first :: later) := by
            have alone := List.dropWhile_eq_nil_iff.2 others
            have whole := List.takeWhile_append_dropWhile (p := isSpace) (l := rest)
            rw [alone, List.append_nil] at whole
            rw [scan_blank isBlank, scan_blank isBlank, List.takeWhile_append_of_pos others,
              List.dropWhile_append_of_pos others, alone, whole]
            simp [notBlank]
          have nothing : (scan c rest).2 = [] := by
            rw [scan_blank isBlank]
            exact List.dropWhile_eq_nil_iff.2 others
          obtain ⟨start, sameEnd, alone, whole⟩ := lexemesFrom_same same offset
          rw [whole, alone, ← sameEnd, nothing, lexemesFrom_nil, List.append_nil]
          rfl
  | @step c rest same _ ih =>
      obtain ⟨start, sameEnd, alone, whole⟩ := lexemesFrom_same same offset
      rw [whole, ih, alone, sameEnd, List.append_assoc]

/-! ## The last lexeme -/

/-- Whether a lexeme can stand at the end of a rule list, outside blocks, where no statement
is unfinished: a gap, a delimiter of markup, or the end of a statement. -/
def Lexeme.mayEnd : Lexeme → Bool
  | .token (.whitespace _) | .token (.comment _) => true
  | .token (.delim text) => text == ";".toList || text == "<!--".toList || text == "-->".toList
  | .closer c => c == '\x7d'
  | _ => false

/-- The last of some lexemes that is not white space can stand at the end of a rule list. -/
def EndWell (lexemes : List (Nat × Lexeme)) : Prop :=
  ∀ front read gap, lexemes = front ++ read :: gap → AreBlank gap → read.2.mayEnd = true

theorem EndWell.of_append {first second : List (Nat × Lexeme)} (ends : EndWell (first ++ second)) :
    EndWell second := by
  intro front read gap split isGap
  exact ends (first ++ front) read gap (by rw [split, List.append_assoc]) isGap

/-- The last character of a text that is no blank. -/
def lastSolid? (text : List Char) : Option Char :=
  (text.reverse.dropWhile isSpace).head?

theorem lastSolid?_append (first second : List Char) :
    lastSolid? (first ++ second) = (lastSolid? second).or (lastSolid? first) := by
  rw [lastSolid?, List.reverse_append, List.dropWhile_append, lastSolid?, lastSolid?]
  cases second.reverse.dropWhile isSpace <;> rfl

theorem lastSolid?_eq_none {text : List Char} :
    lastSolid? text = none ↔ ∀ c ∈ text, isSpace c = true := by
  rw [lastSolid?, List.head?_eq_none_iff, List.dropWhile_eq_nil_iff]
  simp

theorem lastSolid?_of_suffix {text after : List Char} (suffix : after <:+ text) {c : Char}
    (isLast : lastSolid? after = some c) : lastSolid? text = some c := by
  obtain ⟨before, rfl⟩ := suffix
  rw [lastSolid?_append, isLast]
  rfl

/-- Nothing but white space is read from blanks. -/
theorem areBlank_lexemesFrom {text : List Char} (areBlank : ∀ c ∈ text, isSpace c = true)
    (offset : Nat) : AreBlank (lexemesFrom offset text) := by
  obtain ⟨gap, isGap, whole⟩ := lexemesFrom_dropWhile offset text
  rw [whole, List.dropWhile_eq_nil_iff.2 areBlank, lexemesFrom, List.append_nil]
  exact isGap

/-- The last characters of the lexemes that can stand at the end of a rule list. -/
def stops : List Char :=
  ['/', ';', '>', '-', '\x7d']

/-- Whether a lexeme is a mark: a closer or a delimiter. -/
def Lexeme.isMark : Lexeme → Bool
  | .closer _ | .token (.delim _) => true
  | _ => false

theorem not_mark_numeric (spelling rest : List Char) :
    ∀ lexeme ∈ (scanNumeric spelling rest).1, lexeme.isMark = false := by
  unfold scanNumeric
  split
  · simp [Lexeme.isMark]
  · split <;> simp [Lexeme.isMark]

theorem not_mark_string (quote : Char) (rest : List Char) :
    ∀ lexeme ∈ (scanString quote rest).1, lexeme.isMark = false := by
  unfold scanString
  split <;> simp [Lexeme.isMark]

theorem not_mark_ident (text : List Char) :
    ∀ lexeme ∈ (scanIdent text).1, lexeme.isMark = false := by
  unfold scanIdent
  split
  · dsimp only
    split
    · split <;> simp [Lexeme.isMark]
    · simp [Lexeme.isMark]
  · simp [Lexeme.isMark]

/-- A mark other than `-->` is read as a symbol. -/
theorem scan_of_mark {c : Char} {rest : List Char} {lexeme : Lexeme}
    (member : lexeme ∈ (scan c rest).1) (isMark : lexeme.isMark = true)
    (noArrow : lexeme ≠ delim "-->") : scan c rest = scanSymbol c rest := by
  have absurd_of {lexemes : List Lexeme} (none : ∀ other ∈ lexemes, other.isMark = false)
      (isRead : lexeme ∈ lexemes) : False := by
    rw [none lexeme isRead] at isMark
    cases isMark
  unfold scan at member ⊢
  split at member
  · exact (absurd_of (by simp [Lexeme.isMark]) member).elim
  · split at member
    · exact (absurd_of (by simp [Lexeme.isMark]) member).elim
    · split at member
      · exact (noArrow (List.mem_singleton.1 member)).elim
      · split at member
        · exact (absurd_of (not_mark_ident _) member).elim
        · split at member
          · exact (absurd_of (not_mark_numeric _ _) member).elim
          · rename_i notSpace notRange notArrow noIdent _ _
            rw [if_neg notSpace, if_neg notRange, if_neg notArrow, if_neg noIdent]

/-- A closer is read from itself. -/
theorem scan_of_closer {c closer : Char} {rest : List Char}
    (member : .closer closer ∈ (scan c rest).1) : c = closer ∧ (scan c rest).2 = rest := by
  by_cases isCloser : c ∈ ['\x7d', ']', ')']
  · rw [scan_closer isCloser] at member ⊢
    simp only [List.mem_singleton, Lexeme.closer.injEq] at member
    exact ⟨member.symm, rfl⟩
  · exfalso
    rw [scan_of_mark member rfl nofun] at member
    unfold scanSymbol at member
    split at member
    case h_6 | h_7 | h_8 => exact isCloser (by decide)
    case h_9 | h_10 => cases not_mark_string _ _ _ member
    case h_1 | h_2 => split at member <;> simp [delim] at member
    all_goals simp [delim] at member

/-- A colon is read from itself. -/
theorem scan_of_colon {c : Char} {rest : List Char} (member : delim ":" ∈ (scan c rest).1) :
    c = ':' := by
  rw [scan_of_mark member rfl (by decide)] at member
  unfold scanSymbol at member
  split at member
  case h_9 | h_10 => cases not_mark_string _ _ _ member
  case h_1 | h_2 => split at member <;> simp [delim] at member
  case h_19 =>
    simp only [delim, List.mem_singleton, Lexeme.token.injEq, Token.delim.injEq] at member
    exact (List.cons.inj member).1.symm
  all_goals simp [delim] at member

/-- A step that reads something broken ends in a fault. -/
theorem last_of_faulty {c : Char} {rest : List Char} {cause : Fault}
    (faulty : .token (.fault cause) ∈ (scan c rest).1) :
    ∃ front other, (scan c rest).1 = front ++ [.token (.fault other)] := by
  rcases quote_or_address faulty with isQuote | address
  · rw [scan_quote isQuote, scanString] at faulty ⊢
    split at faulty
    · simp at faulty
    · exact ⟨[_], _, rfl⟩
    · exact ⟨[], _, rfl⟩
  · rw [address.scan_eq] at faulty ⊢
    split at faulty
    · simp at faulty
    · exact ⟨[_], _, rfl⟩
    · exact ⟨[], _, rfl⟩

/-- A step whose last lexeme can stand at the end of a rule list ends in a stop. -/
theorem scan_stop {c : Char} {rest : List Char} (notSpace : isSpace c = false)
    (closed : leavesOpen c rest = false)
    (mayEnd : ∀ front last, (scan c rest).1 = front ++ [last] → last.mayEnd = true) :
    ∃ read, ∃ stop ∈ stops, c :: rest = read ++ stop :: (scan c rest).2 := by
  -- a comment ends with a slash unless it is left open
  by_cases isComment : c = '/' ∧ rest.head? = some '*'
  · obtain ⟨rfl, isStar⟩ := isComment
    obtain ⟨inner, rfl⟩ := List.head?_eq_some_iff.1 isStar
    rw [scan_comment]
    rcases takeComment_cases inner with whole | opened
    · refine ⟨'/' :: '*' :: ((takeComment inner).1 ++ ['*']), '/', by decide, ?_⟩
      have same : '/' :: '*' :: inner =
          '/' :: '*' :: ((takeComment inner).1 ++ ("*/".toList ++ (takeComment inner).2)) :=
        congrArg (['/', '*'] ++ ·) whole
      rw [same]
      simp
    · rw [leavesOpen_of_comment inner opened] at closed
      cases closed
  · have noComment : c = '/' → rest.head? ≠ some '*' := fun isSlash isStar =>
      isComment ⟨isSlash, isStar⟩
    have spells := scan_spells notSpace noComment
    generalize step : scan c rest = scanned at spells mayEnd ⊢
    cases spells with
    | faulty member =>
        rw [← step] at member mayEnd
        obtain ⟨front, cause, shape⟩ := last_of_faulty member
        cases mayEnd front _ shape
    | @read lexeme after solid _ _ spelled =>
        have ends := mayEnd [] lexeme rfl
        cases lexeme with
        | opening opener => cases ends
        | closer closer =>
            have isCloser : closer = '\x7d' := by simpa [Lexeme.mayEnd] using ends
            obtain ⟨rfl, same⟩ := scan_of_closer (by rw [step]; exact List.mem_singleton_self _)
            rw [step] at same
            rw [isCloser, ← same]
            exact ⟨[], _, by decide, rfl⟩
        | token value =>
            cases value with
            | delim text =>
                have whole := spelled text rfl
                simp only [Lexeme.mayEnd, Bool.or_eq_true, beq_iff_eq] at ends
                rcases ends with (rfl | rfl) | rfl
                · exact ⟨[], ';', by decide, whole⟩
                · exact ⟨"<!-".toList, '-', by decide, whole⟩
                · exact ⟨"--".toList, '>', by decide, whole⟩
            | whitespace text => cases solid
            | comment text => cases solid
            | _ => cases ends

/-- A text is blank if its first step reads blanks and leaves blanks. -/
theorem blank_of_scan {c : Char} {rest : List Char} (isBlank : isSpace c = true)
    (areBlank : ∀ d ∈ (scan c rest).2, isSpace d = true) : ∀ d ∈ c :: rest, isSpace d = true := by
  rw [scan_blank isBlank] at areBlank
  rw [List.forall_mem_cons]
  refine ⟨isBlank, fun d member => ?_⟩
  rw [← List.takeWhile_append_dropWhile (p := isSpace) (l := rest), List.mem_append] at member
  rcases member with before | after
  · exact List.mem_takeWhile_imp before
  · exact areBlank d after

/-- A text that leaves nothing open and ends well has a stop as its last solid character. -/
theorem lastSolid?_mem_stops {text : List Char} {offset : Nat} (closed : endsOpen text = false)
    (ends : EndWell (lexemesFrom offset text)) : ∀ c ∈ lastSolid? text, c ∈ stops := by
  induction length : text.length using Nat.strongRecOn generalizing text offset with
  | ind n ih =>
      subst length
      cases text with
      | nil => exact fun _ => nofun
      | cons c rest =>
          rw [endsOpen, Bool.or_eq_false_iff] at closed
          rw [lexemesFrom_cons] at ends
          have suffix := scan_suffix c rest
          have shorter := Nat.lt_succ_of_le suffix.length_le
          have later := ih _ shorter closed.2 ends.of_append rfl
          -- the last solid character stands after this lexeme, ends it, or is missing
          cases isLast : lastSolid? (scan c rest).2 with
          | some d =>
              rw [lastSolid?_of_suffix (suffix.trans (List.suffix_cons c rest)) isLast]
              rw [isLast] at later
              exact later
          | none =>
              have areBlank := lastSolid?_eq_none.1 isLast
              cases isBlank : isSpace c with
              | true =>
                  rw [lastSolid?_eq_none.2 (blank_of_scan isBlank areBlank)]
                  exact fun _ => nofun
              | false =>
                  have mayEnd : ∀ front last, (scan c rest).1 = front ++ [last] →
                      last.mayEnd = true := by
                    intro front last shape
                    refine ends (front.map (offset, ·)) (offset, last)
                      (lexemesFrom (offset + ((c :: rest).length - (scan c rest).2.length))
                        (scan c rest).2) ?_ (areBlank_lexemesFrom areBlank _)
                    rw [shape, List.map_append, List.append_assoc]
                    rfl
                  obtain ⟨read, stop, isStop, whole⟩ := scan_stop isBlank closed.1 mayEnd
                  have solid : isSpace stop = false := by
                    have all : ∀ stop ∈ stops, isSpace stop = false :=
                      List.all_iff_forall_prop.1 (by decide)
                    exact all stop isStop
                  have same : lastSolid? (c :: rest) = some stop := by
                    rw [whole, List.append_cons, lastSolid?_append, isLast, lastSolid?_append]
                    simp [lastSolid?, solid]
                  rw [same]
                  rintro _ ⟨⟩
                  exact isStop

/-! ## Steps before a newline -/

theorem takeComment_opened {inner : List Char} (opened : takeComment inner = (inner, [])) :
    takeComment (inner ++ ['\n']) = (inner ++ ['\n'], []) := by
  fun_induction takeComment inner with
  | case1 => rfl
  | case2 rest => cases opened
  | case3 c rest notClosed text after shape ih =>
      simp only [Prod.mk.injEq, List.cons.injEq, true_and] at opened
      rw [List.cons_append, takeComment, ih (by rw [shape, opened.1, opened.2])]
      intro later isStar closes
      cases rest with
      | nil => cases closes
      | cons d others =>
          cases (List.cons.inj closes).1
          exact notClosed others isStar rfl

theorem lastSolid?_of_getLast? {text : List Char} {c : Char} (isLast : text.getLast? = some c)
    (notSpace : isSpace c = false) : lastSolid? text = some c := by
  rw [← List.head?_reverse] at isLast
  obtain ⟨before, shape⟩ := List.head?_eq_some_iff.1 isLast
  rw [lastSolid?, shape, List.dropWhile_cons_of_neg (by simp [notSpace])]
  rfl

theorem not_isSpace_of_isHexDigit {c : Char} (isHex : isHexDigit c = true) : isSpace c = false := by
  cases isBlank : isSpace c with
  | false => rfl
  | true =>
      simp only [isSpace, Bool.or_eq_true, beq_iff_eq] at isBlank
      rcases isBlank with (rfl | rfl) | rfl
      all_goals cases isHex

/-- After a stop, a step that reads nothing broken and leaves no comment open ends before a
newline. -/
theorem scan_newline {c : Char} {rest : List Char} (notSpace : isSpace c = false)
    (stopped : ∀ last ∈ lastSolid? (c :: rest), last ∈ stops) :
    (∃ cause, .token (.fault cause) ∈ (scan c rest).1) ∨
      (∃ inner, c :: rest = '/' :: '*' :: inner ∧ takeComment inner = (inner, [])) ∨
        ∀ more, scan c (rest ++ '\n' :: more) =
          ((scan c rest).1, (scan c rest).2 ++ '\n' :: more) := by
  by_cases isFaulty : ∃ cause, .token (.fault cause) ∈ (scan c rest).1
  · exact .inl isFaulty
  by_cases isOpened : ∃ inner, c :: rest = '/' :: '*' :: inner ∧ takeComment inner = (inner, [])
  · exact .inr (.inl isOpened)
  refine .inr (.inr fun more => ?_)
  have isEdge : '\n' ∈ edges := by decide
  cases scan_edge isEdge rest more notSpace with
  | ends same => exact same
  | faulty faulty => exact absurd ⟨_, faulty⟩ isFaulty
  | opened isComment opened => exact absurd ⟨_, isComment, opened⟩ isOpened
  | cut _ isLast _ =>
      exact absurd (stopped _ (lastSolid?_of_getLast? isLast rfl)) (by decide)
  | joined _ _ endsInHex =>
      obtain ⟨digit, isLast, isHex⟩ := endsInHex
      have stop := stopped _ (lastSolid?_of_getLast? isLast (not_isSpace_of_isHexDigit isHex))
      have noHex : ∀ stop ∈ stops, isHexDigit stop = false :=
        List.all_iff_forall_prop.1 (by decide)
      rw [noHex digit stop] at isHex
      cases isHex

theorem scan_blank_append {c : Char} {rest : List Char} (isBlank : isSpace c = true)
    (filled : (scan c rest).2 ≠ []) (more : List Char) :
    scan c (rest ++ more) = ((scan c rest).1, (scan c rest).2 ++ more) := by
  rw [scan_blank isBlank] at filled
  have long : ¬(rest.takeWhile isSpace).length = rest.length := by
    intro whole
    have lengths :=
      congrArg List.length (List.takeWhile_append_dropWhile (p := isSpace) (l := rest))
    rw [List.length_append, whole] at lengths
    exact filled (List.length_eq_zero_iff.1 (Nat.add_eq_left.1 lengths))
  have stays : (rest.dropWhile isSpace).isEmpty = false := by simpa using filled
  rw [scan_blank isBlank, scan_blank isBlank, List.takeWhile_append, if_neg long,
    List.dropWhile_append, stays]
  rfl

/-! ## Closed texts -/

/-- A text is read before `more` as it is read alone if every text of its kind that starts
with no blank is left with a text of its kind by a step that is the same before `more`. -/
theorem readBefore_of_steps {more : List Char} (kind : List Char → Prop)
    (later : ∀ c rest, kind (c :: rest) → kind (scan c rest).2)
    (step : ∀ c rest, kind (c :: rest) → isSpace c = false →
      scan c (rest ++ more) = ((scan c rest).1, (scan c rest).2 ++ more))
    {text : List Char} (isKind : kind text) : ReadBefore more text := by
  induction length : text.length using Nat.strongRecOn generalizing text with
  | ind n ih =>
      subst length
      cases text with
      | nil => exact .blanks nofun
      | cons c rest =>
          have shorter := Nat.lt_succ_of_le (scan_suffix c rest).length_le
          have reads := ih _ shorter (later c rest isKind) rfl
          cases isBlank : isSpace c with
          | false => exact .step (step c rest isKind isBlank) reads
          | true =>
              by_cases filled : (scan c rest).2 = []
              · exact .blanks (blank_of_scan isBlank (by simp [filled]))
              · exact .step (scan_blank_append isBlank filled _) reads

/-- A text that leaves nothing open, and has a stop as its last character that is no blank. -/
structure Closed (text : List Char) : Prop where
  nothingOpen : endsOpen text = false
  stopped : ∀ last ∈ lastSolid? text, last ∈ stops

theorem Closed.of_endWell {text : List Char} {offset : Nat} (nothingOpen : endsOpen text = false)
    (ends : EndWell (lexemesFrom offset text)) : Closed text :=
  ⟨nothingOpen, lastSolid?_mem_stops nothingOpen ends⟩

theorem Closed.step {c : Char} {rest : List Char} (isClosed : Closed (c :: rest)) :
    leavesOpen c rest = false ∧ Closed (scan c rest).2 := by
  have closed := isClosed.nothingOpen
  rw [endsOpen, Bool.or_eq_false_iff] at closed
  have suffix := (scan_suffix c rest).trans (List.suffix_cons c rest)
  exact ⟨closed.1, closed.2, fun last isLast =>
    isClosed.stopped last (lastSolid?_of_suffix suffix isLast)⟩

/-- A closed text is read before a newline as it is read alone. -/
theorem Closed.readBefore {text : List Char} (isClosed : Closed text) (more : List Char) :
    ReadBefore ('\n' :: more) text := by
  refine readBefore_of_steps Closed (fun c rest closed => closed.step.2)
    (fun c rest closed notSpace => ?_) isClosed
  obtain ⟨cause, faulty⟩ | ⟨inner, isComment, opened⟩ | same :=
    scan_newline notSpace closed.stopped
  · exact scan_faulty (by decide) faulty closed.step.1 more
  · cases isComment
    have opens := closed.step.1
    rw [leavesOpen_of_comment inner opened] at opens
    cases opens
  · exact same more

/-- A closed text that ends with a newline is read before any text as it is read alone. -/
theorem Closed.readBefore_of_newline {front : List Char} (isClosed : Closed (front ++ ['\n']))
    (more : List Char) : ReadBefore more (front ++ ['\n']) := by
  refine readBefore_of_steps (fun text => Closed text ∧ text <:+ front ++ ['\n'])
    (fun c rest ⟨closed, suffix⟩ => ⟨closed.step.2, ?_⟩)
    (fun c rest ⟨closed, suffix⟩ notSpace => ?_) ⟨isClosed, List.suffix_rfl⟩
  · exact ((scan_suffix c rest).trans (List.suffix_cons c rest)).trans suffix
  · obtain nothing | ⟨before, shape, -⟩ := List.suffix_concat_iff.1 suffix
    · cases nothing
    cases before with
    | nil =>
        cases shape
        cases notSpace
    | cons d later =>
        obtain ⟨rfl, rfl⟩ : c = d ∧ rest = later ++ ['\n'] := List.cons.inj shape
        have stopped : ∀ last ∈ lastSolid? (c :: later), last ∈ stops := by
          have stopped := closed.stopped
          rw [← List.cons_append, lastSolid?_append] at stopped
          exact stopped
        have whole : later ++ ['\n'] ++ more = later ++ '\n' :: more := by simp
        rw [whole]
        obtain ⟨cause, faulty⟩ | ⟨inner, isComment, opened⟩ | same := scan_newline notSpace stopped
        · exact scan_faulty_newline faulty closed.step.1 more
        · cases isComment
          have opens := closed.step.1
          rw [List.cons_append, leavesOpen_of_comment _ (takeComment_opened opened)] at opens
          cases opens
        · rw [same more, same []]
          simp

end StyleSieve.Css
