import StyleSieve.Proofs.Css.Spelled

/-!
# Readings and renderings

A text without anything broken falls into blanks, comments and the spans of lexemes.  What
the writer gives for the lexemes, the comments between tokens that would run together
included, lags behind the text.
-/

namespace StyleSieve.Css

/-! ## Kinds of lexemes -/

/-- The kind of a lexeme is that of the component that it starts. -/
def Lexeme.kind : Lexeme → Kind
  | .token value => (Component.token 0 value).kind
  | .opening opener => (Component.block 0 opener []).kind
  | .closer _ => .other

/-- What is written between a component of kind `before` and a lexeme. -/
def Lexeme.separator (before : Kind) : Lexeme → List Char
  | .token value => Css.separator before (.token 0 value)
  | .opening opener => Css.separator before (.block 0 opener [])
  | .closer _ => []

theorem not_runsInto {after : Kind}
    (apart : after ∈ [.whitespace, .other, .delim ";", .delim "/", .delim "*="]) (before : Kind) :
    before.runsInto after = false := by
  simp only [List.mem_cons, List.not_mem_nil, or_false] at apart
  unfold Kind.runsInto
  split <;> rcases apart with rfl | rfl | rfl | rfl | rfl <;> rfl

theorem runsInto_star {before : Kind} (runs : before.runsInto (.delim "*") = true) :
    before = .delim "/" := by
  unfold Kind.runsInto at runs
  split at runs <;> first
    | rfl
    | cases runs

/-- The characters that start no lexeme into which another one runs. -/
theorem scan_apart {c : Char} {rest after : List Char} {lexeme : Lexeme}
    (scanned : scan c rest = ([lexeme], after)) (noComment : c = '/' → rest.head? ≠ some '*')
    {before : Kind} (runs : before.runsInto lexeme.kind = true) :
    isCloser c = false ∧ c ≠ '/' ∧ (c = '*' → before = .delim "/") := by
  have symbol : c ∈ [';', '/', '*'] → scan c rest = scanSymbol c rest := by
    intro isSymbol
    simp only [List.mem_cons, List.not_mem_nil, or_false] at isSymbol
    rcases isSymbol with rfl | rfl | rfl
    all_goals
      exact scan_symbol (by decide) (by decide) rfl (takeNumber?_none (by decide) (by decide)
        (by decide) _)
  -- nothing runs into a lexeme of these kinds
  have apart : lexeme.kind ∉ [.whitespace, .other, .delim ";", .delim "/", .delim "*="] := by
    intro member
    rw [not_runsInto member] at runs
    cases runs
  have notCloser : c ∉ ['\x7d', ']', ')'] := by
    intro isCloser
    rw [scan_closer isCloser] at scanned
    cases scanned
    exact apart (List.mem_cons_of_mem _ List.mem_cons_self)
  have notSemicolon : c ≠ ';' := by
    rintro rfl
    rw [symbol (by decide), scanSymbol_other _ (by decide)] at scanned
    cases scanned
    exact apart (by decide)
  have notSlash : c ≠ '/' := by
    rintro rfl
    rw [symbol (by decide), scanSymbol_solitary (by decide)
      (by simpa [endsDelim] using noComment rfl)] at scanned
    cases scanned
    exact apart (by decide)
  refine ⟨?_, notSlash, ?_⟩
  · simp only [List.mem_cons, List.not_mem_nil, or_false, not_or] at notCloser
    simp [isCloser, notCloser, notSemicolon]
  · rintro rfl
    rw [symbol (by decide)] at scanned
    cases ends : endsDelim '*' rest with
    | true =>
        rw [scanSymbol_solitary (by decide) ends] at scanned
        cases scanned
        exact runsInto_star runs
    | false =>
        rw [endsDelim, bne_eq_false_iff_eq] at ends
        obtain ⟨more, rfl⟩ := List.head?_eq_some_iff.1 ends
        cases scanned
        exact absurd (by decide) apart

/-! ## Readings -/

/-- A span of a text and the lexeme that is read from it. -/
structure Spelled (span : List Char) (lexeme : Lexeme) : Prop where
  lags : Lags lexeme.write span
  weight : lexeme.weight ≤ size span
  starts : ∃ c more, span = c :: more ∧ isSpace c = false ∧
    ∀ before : Kind, before.runsInto lexeme.kind = true →
      isCloser c = false ∧ c ≠ '/' ∧ (c = '*' → before = .delim "/")

/-- What may stand after a lexeme of some kind: only a line break after a lone backslash,
and no asterisk after a slash. -/
structure Follows (before : Kind) (rest : List Char) : Prop where
  backslash : before = .delim "\\" → ∀ c ∈ rest.head?, c = '\n'
  slash : before = .delim "/" → ∀ c ∈ rest.head?, c ≠ '*'

/-- A text falls into blanks, comments and the spans of lexemes. -/
inductive Reads : List Char → List (Nat × Lexeme) → Prop where
  | nil : Reads [] []
  | blank {c : Char} {rest : List Char} {lexemes : List (Nat × Lexeme)} : isSpace c = true →
      Reads rest lexemes → Reads (c :: rest) (blank c :: lexemes)
  | comment {inner rest : List Char} {lexemes : List (Nat × Lexeme)} : Reads rest lexemes →
      Reads (("/*".toList ++ inner ++ "*/".toList) ++ rest) lexemes
  | lexeme {span rest : List Char} {lexeme : Lexeme} {lexemes : List (Nat × Lexeme)} :
      Spelled span lexeme → Follows lexeme.kind rest → Reads rest lexemes →
        Reads (span ++ rest) ((0, lexeme) :: lexemes)

theorem Follows.take {before : Kind} {first second : List Char}
    (follows : Follows before (first ++ second)) : Follows before first := by
  cases first with
  | nil => exact ⟨fun _ _ => nofun, fun _ _ => nofun⟩
  | cons c more => exact ⟨follows.backslash, follows.slash⟩

/-- A text falls into two where its lexemes do. -/
theorem Reads.split {text : List Char} {first second : List (Nat × Lexeme)}
    (reads : Reads text (first ++ second)) :
    ∃ front back, text = front ++ back ∧ Reads front first ∧ Reads back second := by
  generalize whole : first ++ second = lexemes at reads
  induction reads generalizing first with
  | nil =>
      obtain ⟨rfl, rfl⟩ := List.append_eq_nil_iff.1 whole
      exact ⟨[], [], rfl, .nil, .nil⟩
  | @blank c rest lexemes isBlank reads ih =>
      cases first with
      | nil =>
          rw [List.nil_append] at whole
          exact ⟨[], c :: rest, rfl, .nil, whole ▸ .blank isBlank reads⟩
      | cons read more =>
          obtain ⟨rfl, same⟩ := List.cons.inj whole
          obtain ⟨front, back, rfl, readsFront, readsBack⟩ := ih same
          exact ⟨c :: front, back, rfl, .blank isBlank readsFront, readsBack⟩
  | @comment inner rest lexemes reads ih =>
      obtain ⟨front, back, rfl, readsFront, readsBack⟩ := ih whole
      exact ⟨_ ++ front, back, (List.append_assoc ..).symm, .comment readsFront, readsBack⟩
  | @lexeme span rest lexeme lexemes spelled follows reads ih =>
      cases first with
      | nil =>
          rw [List.nil_append] at whole
          exact ⟨[], span ++ rest, rfl, .nil, whole ▸ .lexeme spelled follows reads⟩
      | cons read more =>
          obtain ⟨rfl, same⟩ := List.cons.inj whole
          obtain ⟨front, back, rfl, readsFront, readsBack⟩ := ih same
          exact ⟨span ++ front, back, (List.append_assoc ..).symm,
            .lexeme spelled follows.take readsFront, readsBack⟩

/-- A lexeme that is no gap is settled as one that is written alike. -/
theorem pieces_solid {lexeme : Lexeme} (solid : lexeme.isGap = false) :
    ∃ piece, lexeme.pieces = [piece] ∧ piece.write = lexeme.write ∧ piece.kind = lexeme.kind ∧
      piece.weight = lexeme.weight := by
  cases lexeme with
  | opening opener => exact ⟨_, rfl, rfl, rfl, rfl⟩
  | closer c => exact ⟨_, rfl, rfl, rfl, rfl⟩
  | token value =>
      cases value with
      | whitespace text => cases solid
      | comment text => cases solid
      | dimension spelling unit =>
          exact ⟨_, rfl, (Token.dimension spelling unit).write_settled, rfl, rfl⟩
      | _ => exact ⟨_, rfl, rfl, rfl, rfl⟩

theorem scanIdent_delim? (text : List Char) :
    ∀ lexeme ∈ (scanIdent text).1, lexeme.delim? = none := by
  unfold scanIdent
  split
  · dsimp only
    split
    · split
      all_goals
        intro lexeme member
        simp only [List.mem_cons, List.not_mem_nil, or_false] at member
        grind [Lexeme.delim?]
    · exact List.forall_mem_singleton.2 rfl
  · exact List.forall_mem_singleton.2 rfl

theorem delim?_of_kind {lexeme : Lexeme} {text : String} (isDelim : lexeme.kind = .delim text) :
    lexeme.delim? = some text.toList := by
  cases lexeme with
  | opening opener => cases opener <;> cases isDelim
  | closer c => cases isDelim
  | token value =>
      cases value with
      | delim written =>
          cases isDelim
          rw [String.toList_ofList]
          rfl
      | _ => cases isDelim

theorem scan_follows {c : Char} {rest after : List Char} {lexeme : Lexeme}
    (scanned : scan c rest = ([lexeme], after)) (noComment : c = '/' → rest.head? ≠ some '*')
    (whole : ∀ written ∈ lexeme.delim?, c :: rest = written ++ after) :
    Follows lexeme.kind after := by
  constructor
  · intro isDelim d isHead
    have isWritten := delim?_of_kind isDelim
    have same : c :: rest = '\\' :: after := whole _ isWritten
    obtain ⟨rfl, rfl⟩ := List.cons.inj same
    cases isEscape : escapes rest with
    | false =>
        rw [escapes, bne_eq_false_iff_eq, isHead] at isEscape
        exact Option.some.inj isEscape
    | true =>
        -- the backslash would start an identifier
        have ident := scan_startsIdent (startsIdent_of_escape isEscape).1 (by simp) (by simp)
        rw [ident] at scanned
        have none := scanIdent_delim? ('\\' :: rest) lexeme
          (by rw [scanned]; exact List.mem_cons_self)
        rw [isWritten] at none
        cases none
  · intro isDelim d isHead
    have same : c :: rest = '/' :: after := whole _ (delim?_of_kind isDelim)
    obtain ⟨rfl, rfl⟩ := List.cons.inj same
    rintro rfl
    exact noComment rfl isHead

/-- A comment is closed or holds all that is left. -/
theorem takeComment_cases (text : List Char) :
    text = (takeComment text).1 ++ ("*/".toList ++ (takeComment text).2) ∨
      takeComment text = (text, []) := by
  fun_induction takeComment text with
  | case1 => exact .inr rfl
  | case2 rest => exact .inl rfl
  | case3 c rest notEnd inner after shape ih =>
      rw [shape] at ih
      rcases ih with whole | opened
      · left
        conv_lhs => rw [whole]
        rfl
      · right
        rw [Prod.mk.injEq] at opened
        rw [opened.1, opened.2]

theorem endsInComment_nil : ¬EndsInComment [] := by
  intro ends
  cases ends

theorem endsInComment_blank {c : Char} (isBlank : isSpace c = true) {rest : List Char}
    (ends : EndsInComment (c :: rest)) : EndsInComment rest := by
  cases ends with
  | opened => cases isBlank
  | later ends =>
      rw [scan_blank isBlank] at ends
      exact (endsInComment_dropWhile rest).1 ends

/-- A text is read up to its end or to a comment that is left open. -/
structure ReadsTo (body tail text : List Char) : Prop where
  whole : text = body ++ tail
  reads : Reads body (plain text)
  comment : tail = [] ∨ ∃ inner, tail = '/' :: '*' :: inner
  opened : EndsInComment text → tail ≠ []

theorem scan_comment (inner : List Char) :
    scan '/' ('*' :: inner) =
      ([.token (.comment (takeComment inner).1)], (takeComment inner).2) := by
  rw [scan_symbol (by decide) (by decide) rfl (takeNumber?_none (by decide) (by decide)
    (by decide) _)]
  rfl

/-- A text that starts with a comment is read where the text after the comment is. -/
theorem readsTo_comment {inner : List Char}
    (later : ∃ body tail, ReadsTo body tail (takeComment inner).2) :
    ∃ body tail, ReadsTo body tail ('/' :: '*' :: inner) := by
  have step : plain ('/' :: '*' :: inner) = plain (takeComment inner).2 :=
    plain_scan (scan_comment inner)
  rcases takeComment_cases inner with closed | isOpen
  · obtain ⟨body, tail, same, reads, comment, opened⟩ := later
    refine ⟨"/*".toList ++ (takeComment inner).1 ++ "*/".toList ++ body, tail, ?_, ?_, comment, ?_⟩
    · conv_lhs => rw [closed, same]
      simp
    · rw [step]
      exact .comment reads
    · intro ends
      cases ends with
      | opened isOpen =>
          rw [isOpen] at closed
          have length := congrArg List.length closed
          simp at length
      | later ends =>
          rw [scan_comment] at ends
          exact opened ends
  · refine ⟨[], '/' :: '*' :: inner, rfl, ?_, .inr ⟨inner, rfl⟩, fun _ => List.cons_ne_nil _ _⟩
    rw [step, isOpen, plain_nil]
    exact .nil

/-- A text that starts with a lexeme is read where the text after the lexeme is. -/
theorem readsTo_lexeme {c : Char} {rest : List Char} (notSpace : isSpace c = false)
    (noComment : c = '/' → rest.head? ≠ some '*')
    (whole : ∀ cause, (0, .token (.fault cause)) ∉ plain (c :: rest))
    (later : ∃ body tail, ReadsTo body tail (scan c rest).2) :
    ∃ body tail, ReadsTo body tail (c :: rest) := by
  have step := plain_cons c rest
  have spells := scan_spells notSpace noComment
  generalize scanned : scan c rest = found at step spells later
  cases spells with
  | @faulty found cause member =>
      have pieces : .token (.fault cause) ∈ (Lexeme.token (.fault cause)).pieces :=
        List.mem_cons_self
      have read := List.mem_flatMap.2 ⟨_, member, pieces⟩
      refine absurd ?_ (whole cause)
      rw [step]
      exact List.mem_append_left _ (List.mem_map_of_mem read)
  | @read lexeme after solid spells weight isDelim =>
      obtain ⟨body, tail, same, reads, comment, opened⟩ := later
      obtain ⟨span, wholeSpan, lags⟩ := spells
      obtain ⟨piece, pieces, written, kind, sameWeight⟩ := pieces_solid solid
      -- a scan takes a character at least, so that the lexeme is written from the first one on
      have starts : ∃ more, span = c :: more := by
        cases span with
        | nil =>
            have shorter := (scan_suffix c rest).length_le
            rw [scanned, ← List.nil_append after, ← wholeSpan] at shorter
            exact absurd shorter (Nat.not_succ_le_self _)
        | cons d more => exact ⟨more, by rw [(List.cons.inj wholeSpan).1]⟩
      have spelled : Spelled span piece := by
        obtain ⟨more, isHead⟩ := starts
        refine ⟨written ▸ lags, ?_, c, more, isHead, notSpace, ?_⟩
        · rw [wholeSpan, size_append] at weight
          omega
        · intro before runs
          rw [kind] at runs
          exact scan_apart scanned noComment runs
      have follows : Follows piece.kind body := by
        have follows := scan_follows scanned noComment isDelim
        rw [← kind] at follows
        dsimp only at same
        rw [same] at follows
        exact follows.take
      refine ⟨span ++ body, tail, ?_, ?_, comment, ?_⟩
      · rw [List.append_assoc, ← same, wholeSpan]
      · rw [step]
        simp only [List.flatMap_singleton, pieces]
        exact .lexeme spelled follows reads
      · intro ends
        cases ends with
        | opened isOpen => exact absurd rfl (noComment rfl)
        | later ends =>
            rw [scanned] at ends
            exact opened ends

/-- A text without anything broken is read. -/
theorem reads_plain (text : List Char)
    (whole : ∀ cause, (0, .token (.fault cause)) ∉ plain text) :
    ∃ body tail, ReadsTo body tail text := by
  induction length : text.length using Nat.strongRecOn generalizing text with
  | ind n ih =>
      subst length
      cases text with
      | nil =>
          refine ⟨[], [], rfl, ?_, .inl rfl, fun ends => absurd ends endsInComment_nil⟩
          rw [plain_nil]
          exact .nil
      | cons c rest =>
          have wholeLater : ∀ cause, (0, .token (.fault cause)) ∉ plain (scan c rest).2 := by
            intro cause member
            refine whole cause ?_
            rw [plain_cons]
            exact List.mem_append_right _ member
          have later := ih _ (Nat.lt_succ_of_le (scan_suffix c rest).length_le) _ wholeLater rfl
          cases isBlank : isSpace c with
          | true =>
              rw [plain_space isBlank] at whole
              obtain ⟨body, tail, same, reads, comment, opened⟩ := ih rest.length
                (Nat.lt_succ_self _) rest (fun cause member => whole cause
                  (List.mem_cons_of_mem _ member)) rfl
              refine ⟨c :: body, tail, by rw [same]; rfl, ?_, comment, ?_⟩
              · rw [plain_space isBlank]
                exact .blank isBlank reads
              · exact fun ends => opened (endsInComment_blank isBlank ends)
          | false =>
              by_cases isComment : c = '/' ∧ rest.head? = some '*'
              · obtain ⟨rfl, isStar⟩ := isComment
                obtain ⟨inner, rfl⟩ := List.head?_eq_some_iff.1 isStar
                rw [scan_comment] at later
                exact readsTo_comment later
              · have noComment : c = '/' → rest.head? ≠ some '*' :=
                  fun isSlash isStar => isComment ⟨isSlash, isStar⟩
                exact readsTo_lexeme isBlank noComment whole later

/-! ## Renderings -/

/-- What the writer gives for some lexemes after a component of kind `before`. -/
def render (before : Kind) : List (Nat × Lexeme) → List Char
  | [] => []
  | (_, next) :: rest => next.separator before ++ next.write ++ render next.kind rest

theorem separator_cases (before : Kind) (lexeme : Lexeme) :
    lexeme.separator before = [] ∨
      (lexeme.separator before = "/**/".toList ∧ before.runsInto lexeme.kind = true) ∨
        before = .delim "\\" := by
  have component : ∀ next : Component, Css.separator before next = [] ∨
      (Css.separator before next = "/**/".toList ∧ before.runsInto next.kind = true) ∨
        before = .delim "\\" := by
    intro next
    unfold Css.separator
    split
    · rename_i runs
      exact .inr (.inl ⟨rfl, runs⟩)
    · split
      · rename_i broken
        rw [Bool.and_eq_true, beq_iff_eq] at broken
        exact .inr (.inr broken.1)
      · exact .inl rfl
  cases lexeme with
  | token value => exact component _
  | opening opener => exact component _
  | closer c => exact .inl rfl

/-- Nothing is written before a blank, unless it ends a backslash. -/
theorem render_blank {before : Kind} {c : Char} (newline : before = .delim "\\" → c = '\n')
    (lexemes : List (Nat × Lexeme)) :
    render before (blank c :: lexemes) = [c] ++ render .whitespace lexemes := by
  have nothing : (Lexeme.token (.whitespace [c])).separator before = [] := by
    rw [Lexeme.separator, Css.separator, if_neg]
    · by_cases isBackslash : before = .delim "\\"
      · rw [newline isBackslash]
        simp [Component.startsWithNewline]
      · simp [isBackslash]
    · rw [not_runsInto (by exact List.mem_cons_self)]
      exact Bool.false_ne_true
  rw [blank, render, nothing]
  rfl

theorem unspaced_split (c : Char) (rest : List Char) :
    unspaced (c :: rest) = unspaced [c] ++ unspaced rest :=
  unspaced_append [c] rest

/-- An empty comment holds slashes and asterisks only. -/
theorem comment_front {c : Char} {written front rest : List Char}
    (whole : "/**/".toList ++ written = front ++ c :: rest) (short : front.length < 4) :
    c = '/' ∨ c = '*' := by
  match front with
  | [] => exact .inl (List.cons.inj whole).1.symm
  | [_] => exact .inr (List.cons.inj (List.cons.inj whole).2).1.symm
  | [_, _] => exact .inr (List.cons.inj (List.cons.inj (List.cons.inj whole).2).2).1.symm
  | [_, _, _] =>
      exact .inl (List.cons.inj (List.cons.inj (List.cons.inj (List.cons.inj whole).2).2).2).1.symm
  | _ :: _ :: _ :: _ :: more => exact absurd short (by simp)

theorem ne_space_of_not_isSpace {c : Char} (notSpace : isSpace c = false) : c ≠ ' ' := by
  rintro rfl
  cases notSpace

theorem Spelled.unspaced_cons {span : List Char} {lexeme : Lexeme} (spelled : Spelled span lexeme) :
    ∃ c more, unspaced span = c :: more ∧ span.head? = some c ∧ isSpace c = false ∧
      ∀ before : Kind, before.runsInto lexeme.kind = true →
        isCloser c = false ∧ c ≠ '/' ∧ (c = '*' → before = .delim "/") := by
  obtain ⟨c, more, rfl, notSpace, apart⟩ := spelled.starts
  exact ⟨c, unspaced more, Css.unspaced_cons (ne_space_of_not_isSpace notSpace) more, rfl, notSpace,
    apart⟩

/-- A lexeme with what is written before it never leads its span. -/
theorem Spelled.neverLeads {span : List Char} {lexeme : Lexeme} (spelled : Spelled span lexeme)
    {before : Kind} {front : List Char}
    (far : before = .delim "/" → span.head? = some '*' → 4 ≤ front.length)
    (newline : before = .delim "\\" → ∀ c ∈ span.head?, c = '\n') (middle : List Char)
    (whole : unspaced (lexeme.separator before ++ lexeme.write) =
      front ++ (unspaced span ++ middle)) : middle = [] := by
  obtain ⟨c, more, text, isHead, notSpace, apart⟩ := spelled.unspaced_cons
  rcases separator_cases before lexeme with nothing | ⟨comment, runs⟩ | isBackslash
  · rw [nothing] at whole
    exact spelled.lags.neverLeads front middle whole
  · rw [comment, unspaced_append] at whole
    obtain ⟨_, notSlash, star⟩ := apart before runs
    by_cases short : front.length < 4
    · rw [text] at whole
      rcases comment_front whole short with isSlash | isStar
      · exact absurd isSlash notSlash
      · exact absurd short (Nat.not_lt.2 (far (star isStar) (isStar ▸ isHead)))
    · rcases List.append_eq_append_iff.1 whole with ⟨later, _, same⟩ | ⟨missing, same, later⟩
      · exact spelled.lags.neverLeads later middle same
      · have length := congrArg List.length same
        rw [List.length_append, show (unspaced "/**/".toList).length = 4 from rfl] at length
        rw [List.eq_nil_of_length_eq_zero (by omega : missing.length = 0), List.nil_append] at later
        exact spelled.lags.neverLeads [] middle later.symm
  · rw [newline isBackslash c isHead] at notSpace
    cases notSpace

/-- A lexeme with what is written before it ends in as many closers as its span. -/
theorem Spelled.closes {span : List Char} {lexeme : Lexeme} (spelled : Spelled span lexeme)
    {before : Kind} (newline : before = .delim "\\" → ∀ c ∈ span.head?, c = '\n') :
    ClosesLike (unspaced (lexeme.separator before ++ lexeme.write)) (unspaced span) := by
  obtain ⟨c, more, text, isHead, notSpace, apart⟩ := spelled.unspaced_cons
  rcases separator_cases before lexeme with nothing | ⟨comment, runs⟩ | isBackslash
  · rw [nothing]
    exact spelled.lags.closes
  · have other : (unspaced span).all isCloser = false :=
      all_eq_false_of_mem (text ▸ List.mem_cons_self) (apart before runs).1
    cases spelled.lags.closes with
    | same same closers =>
        rw [closers] at other
        cases other
    | more run _ =>
        rw [unspaced_append]
        exact .more (Nat.le_trans run (closingRun_le_append _ _)) other
  · rw [newline isBackslash c isHead] at notSpace
    cases notSpace

theorem head?_span {span : List Char} {lexeme : Lexeme} (spelled : Spelled span lexeme)
    (rest : List Char) : (span ++ rest).head? = span.head? := by
  obtain ⟨c, more, rfl, _⟩ := spelled.starts
  rfl

/-- What the writer gives for the lexemes of a text never leads the text.  An asterisk after
a slash is the one lexeme that the comment written before it could hold. -/
theorem Reads.neverLeads {text : List Char} {lexemes : List (Nat × Lexeme)}
    (reads : Reads text lexemes) {before : Kind} {front after : List Char}
    (far : before = .delim "/" → text.head? = some '*' → 4 ≤ front.length)
    (newline : before = .delim "\\" → ∀ c ∈ text.head?, c = '\n')
    (whole : unspaced (render before lexemes) = front ++ (unspaced text ++ after)) : after = [] := by
  induction reads generalizing before front with
  | nil =>
      have none := congrArg List.length whole
      rw [List.length_append, List.length_append] at none
      exact List.eq_nil_of_length_eq_zero (by simp [render] at none; omega)
  | @blank c rest lexemes isBlank reads ih =>
      rw [render_blank fun isBackslash => newline isBackslash c rfl, unspaced_append,
        unspaced_split c rest] at whole
      refine leads_append ?_ ?_ whole
      · exact fun middle same => NeverLeads.of_length_le (Nat.le_refl _) front middle same
      · intro front same
        refine ih ?_ ?_ same
        · exact nofun
        · exact nofun
  | @comment inner rest lexemes reads ih =>
      rw [unspaced_append, List.append_assoc, ← List.append_assoc front] at whole
      refine ih ?_ ?_ whole
      · intro _ _
        have opener : (unspaced "/*".toList).length = 2 := rfl
        have closer : (unspaced "*/".toList).length = 2 := rfl
        simp only [unspaced_append, List.length_append]
        omega
      · exact fun isBackslash => absurd (newline isBackslash '/' rfl) (by decide)
  | @lexeme span rest lexeme lexemes spelled follows reads ih =>
      rw [render, unspaced_append, unspaced_append span] at whole
      refine leads_append ?_ ?_ whole
      · exact spelled.neverLeads (fun isSlash isStar => far isSlash (by rw [head?_span spelled, isStar]))
          (fun isBackslash => head?_span spelled rest ▸ newline isBackslash)
      · refine fun front same => ih ?_ follows.backslash same
        exact fun isSlash isStar => absurd rfl (follows.slash isSlash '*' isStar)

theorem Reads.closes {text : List Char} {lexemes : List (Nat × Lexeme)}
    (reads : Reads text lexemes) {before : Kind}
    (newline : before = .delim "\\" → ∀ c ∈ text.head?, c = '\n') :
    ClosesLike (unspaced (render before lexemes)) (unspaced text) := by
  induction reads generalizing before with
  | nil => exact .refl _
  | @blank c rest lexemes isBlank reads ih =>
      rw [render_blank fun isBackslash => newline isBackslash c rfl, unspaced_append,
        unspaced_split c rest]
      exact (ClosesLike.refl _).append (ih nofun)
  | @comment inner rest lexemes reads ih =>
      rw [unspaced_append]
      refine (ih fun isBackslash => absurd (newline isBackslash '/' rfl) (by decide)).skip ?_
      rw [unspaced_append]
      exact closingRun_append_other _ (by decide)
  | @lexeme span rest lexeme lexemes spelled follows reads ih =>
      rw [render, unspaced_append, unspaced_append span]
      exact (spelled.closes fun isBackslash => head?_span spelled rest ▸ newline isBackslash).append
        (ih follows.backslash)

/-- What the writer gives for the lexemes of a text lags behind the text. -/
theorem Reads.lags {text : List Char} {lexemes : List (Nat × Lexeme)}
    (reads : Reads text lexemes) : Lags (render .other lexemes) text := by
  constructor
  · intro front after whole
    refine reads.neverLeads ?_ ?_ whole
    · exact nofun
    · exact nofun
  · refine reads.closes ?_
    exact nofun

end StyleSieve.Css
