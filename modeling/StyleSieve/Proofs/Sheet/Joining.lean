import StyleSieve.Proofs.Sheet.Listing
import StyleSieve.Proofs.Sheet.Partition
import StyleSieve.Proofs.Sheet.Spelling
import StyleSieve.Run.Reduction

/-!
# Joined sheets

A sheet that leaves nothing open at its end does not leak into the sheet that follows it:
the two, with a newline between them, are read as each of them is read alone.
-/

namespace StyleSieve

open Css Css.Component

/-! ## Rules of lexemes -/

/-- The lexemes that are no comments. -/
def significant (lexemes : List (Nat × Lexeme)) : List (Nat × Lexeme) :=
  lexemes.filter (!·.2.isComment)

/-- The rules that some lexemes make up, or the offset of the error. -/
def rulesFrom (lexemes : List (Nat × Lexeme)) : Except Nat (List Rule) :=
  (statementsFrom .outermost [] (nest [] [] (significant lexemes))).map rulesOf

theorem parse_eq (source : String) :
    Stylesheet.parse source =
      match rulesFrom (lexemesFrom 0 (normalizeNewlines source.toList)) with
      | .ok rules => .ok ⟨rules⟩
      | .error offset => .error ⟨Stylesheet.positionIn source offset⟩ := by
  have same : significantComponents source.toList =
      nest [] [] (significant (lexemesFrom 0 (normalizeNewlines source.toList))) := rfl
  rw [Stylesheet.parse, same, rulesFrom]
  cases statementsFrom .outermost [] (nest [] [] (significant
    (lexemesFrom 0 (normalizeNewlines source.toList)))) <;> rfl

theorem significant_append (first second : List (Nat × Lexeme)) :
    significant (first ++ second) = significant first ++ significant second :=
  List.filter_append ..

theorem significant_blank {gap : List (Nat × Lexeme)} (isGap : AreBlank gap) :
    significant gap = gap := by
  apply List.filter_eq_self.2
  intro read member
  have isBlank := isGap read member
  obtain ⟨offset, lexeme⟩ := read
  cases lexeme with
  | token value =>
      cases value with
      | comment text => cases isBlank
      | _ => rfl
  | _ => rfl

theorem sound_nest {text : List Char} (clean : Clean text) (offset : Nat) :
    SoundAll (nest [] [] (significant (lexemesFrom offset text))) := by
  apply nest_sound (show OpenSound [] [] from trivial)
  intro read member
  obtain ⟨isLexeme, noComment⟩ := List.mem_filter.1 member
  exact ⟨lexemesFrom_sound clean offset read isLexeme, by simpa using noComment⟩

/-- The rules of a text that starts further on in its source are the same, and its error is
further on. -/
theorem rulesFrom_lexemesFrom {text : List Char} (clean : Clean text) (count : Nat) :
    rulesFrom (lexemesFrom count text) = (rulesFrom (lexemesFrom 0 text)).mapError (· + count) := by
  have shape : nest [] [] (significant (lexemesFrom count text)) =
      (nest [] [] (significant (lexemesFrom 0 text))).map (shifted count) := by
    rw [← nest_shifted, ← Nat.zero_add count, lexemesFrom_add, significant, filter_shifted]
    rw [Nat.zero_add]
    rfl
  apply ext_of_errorOf?
  · rw [rulesFrom, rulesFrom, shape, errorOf?_map, errorOf?_mapError, errorOf?_map]
    exact errorOf?_statementsFrom count .outermost [] _
  · rw [toOption_mapError, rulesFrom, rulesFrom, toOption_rules (sound_nest clean count), shape,
      ← shiftedAll_eq_map, settledAll_shifted, toOption_rules (sound_nest clean 0)]

/-! ## Complete lexemes -/

/-- Lexemes that close every block that they open and end every statement that they begin. -/
structure Complete (lexemes : List (Nat × Lexeme)) : Prop where
  balanced : Balanced (significant lexemes)
  finished : Level.outermost.unfinished [] (nest [] [] (significant lexemes)) = []

theorem unfinished_whitespace {level : Level} {blanks : List Component}
    (areBlank : ∀ component ∈ blanks, component.isWhitespace = true) (read : List Component) :
    level.unfinished read blanks = if read.isEmpty then [] else read ++ blanks := by
  induction blanks generalizing read with
  | nil => cases read <;> simp [Level.unfinished]
  | cons component rest ih =>
      rw [List.forall_mem_cons] at areBlank
      rw [Level.unfinished_cons, step_whitespace areBlank.1, ih areBlank.2]
      cases read <;> simp

/-- The rules of complete lexemes stand before those of the lexemes that follow. -/
theorem Complete.rulesFrom_append {first : List (Nat × Lexeme)} (complete : Complete first)
    (second : List (Nat × Lexeme)) :
    rulesFrom (first ++ second) = do
      let here ← rulesFrom first
      let more ← rulesFrom second
      return here ++ more := by
  rw [rulesFrom, significant_append, nest_append_of_balanced complete.balanced,
    statementsFrom_append complete.finished, rulesFrom, rulesFrom]
  cases statementsFrom .outermost [] (nest [] [] (significant first)) with
  | error offset => rfl
  | ok here =>
      cases statementsFrom .outermost [] (nest [] [] (significant second)) with
      | error offset => rfl
      | ok more => exact congrArg Except.ok (rulesOf_append here more)

/-- White space before lexemes does not change the rules that they make up. -/
theorem rulesFrom_blank {gap : List (Nat × Lexeme)} (isGap : AreBlank gap)
    (lexemes : List (Nat × Lexeme)) : rulesFrom (gap ++ lexemes) = rulesFrom lexemes := by
  have balanced : Balanced gap := blocks_steps_blank {} isGap
  obtain ⟨blanks, areBlank, whole⟩ := nest_blank [] isGap
  rw [rulesFrom, rulesFrom, significant_append, significant_blank isGap,
    nest_append_of_balanced balanced, whole, List.reverse_nil, List.nil_append,
    statementsFrom_gaps]
  intro component member
  rw [Component.isGap, areBlank component member]
  rfl

/-- Lexemes are complete before white space. -/
theorem Complete.of_append_blank {lexemes gap : List (Nat × Lexeme)} (isGap : AreBlank gap)
    (complete : Complete (lexemes ++ gap)) : Complete lexemes := by
  obtain ⟨balanced, finished⟩ := complete
  rw [significant_append, significant_blank isGap] at balanced finished
  have balancedHere := (balanced_append_blank isGap).1 balanced
  refine ⟨balancedHere, ?_⟩
  obtain ⟨blanks, areBlank, whole⟩ := nest_blank [] isGap
  rw [nest_append_of_balanced balancedHere, whole, List.reverse_nil, List.nil_append,
    Level.unfinished_append, unfinished_whitespace areBlank] at finished
  split at finished
  · exact List.isEmpty_iff.1 ‹_›
  · exact (List.append_eq_nil_iff.1 finished).1

/-- A component after which no statement is unfinished. -/
theorem ends_of_step {level : Level} {read : List Component} {component : Component}
    (ends : level.step read component = []) :
    component.curlyContent?.isSome = true ∨ component.isDelim ";" = true ∨
      level.skips component = true := by
  rw [Level.step] at ends
  split at ends
  · exact .inl ‹_›
  · split at ends
    · rename_i isEnd
      rw [Bool.and_eq_true] at isEnd
      exact .inr (.inl isEnd.2)
    · split at ends
      · rename_i isSkipped
        rw [Bool.and_eq_true] at isSkipped
        exact .inr (.inr isSkipped.2)
      · exact absurd ends (by simp)

/-- A token after which no statement of a sheet is unfinished can stand at the end. -/
theorem mayEnd_of_token {offset : Nat} {value : Token}
    (ends : (Component.token offset value).isDelim ";" = true ∨
      Level.outermost.skips (.token offset value) = true) :
    (Lexeme.token value).mayEnd = true := by
  cases value with
  | whitespace text => rfl
  | comment text => rfl
  | delim text =>
      simpa [Level.skips, Component.isGap, Component.isWhitespace, Component.isComment, isDelim,
        Component.token?, Lexeme.mayEnd, or_assoc] using ends
  | _ => simp [Level.skips, Component.isGap, Component.isWhitespace, Component.isComment, isDelim,
        Component.token?] at ends

/-- The components of balanced lexemes, from the last lexeme. -/
theorem nest_concat {lexemes : List (Nat × Lexeme)} {read : Nat × Lexeme}
    (balanced : Balanced (lexemes ++ [read])) :
    nest [] [] (lexemes ++ [read]) = ((Nested.steps {} lexemes).step read).before.reverse := by
  rw [Css.Balanced, Nested.steps_append] at balanced
  rw [nest_eq_closeAll, Nested.steps_append, balanced]
  rfl

theorem significant_single {lexeme : Lexeme} (noComment : lexeme.isComment = false)
    (offset : Nat) : significant [(offset, lexeme)] = [(offset, lexeme)] := by
  rw [significant, List.filter_cons, List.filter_nil, noComment]
  rfl

/-- The last component of a list after which no statement is unfinished. -/
theorem ends_of_unfinished {component : Component} {before : List Component}
    (finished : Level.outermost.unfinished [] (component :: before).reverse = []) :
    component.curlyContent?.isSome = true ∨ component.isDelim ";" = true ∨
      Level.outermost.skips component = true := by
  rw [List.reverse_cons, Level.unfinished_append] at finished
  exact ends_of_step finished

/-- The last lexeme of complete lexemes can stand at the end. -/
theorem Complete.mayEnd {lexemes : List (Nat × Lexeme)} {offset : Nat} {lexeme : Lexeme}
    (complete : Complete (lexemes ++ [(offset, lexeme)])) : lexeme.mayEnd = true := by
  cases isComment : lexeme.isComment with
  | true =>
      cases lexeme with
      | token value =>
          cases value with
          | comment text => rfl
          | _ => cases isComment
      | _ => cases isComment
  | false =>
      obtain ⟨balanced, finished⟩ := complete
      rw [significant_append, significant_single isComment] at balanced finished
      rw [nest_concat balanced] at finished
      rw [Css.Balanced, Nested.steps_append] at balanced
      generalize Nested.steps {} (significant lexemes) = nested at balanced finished
      obtain ⟨blocks, before⟩ := nested
      cases lexeme with
      | token value =>
          rcases ends_of_unfinished finished with isCurly | ends
          · cases isCurly
          · exact mayEnd_of_token ends
      | opening opening => cases balanced
      | closer closer =>
          cases blocks with
          | nil =>
              rcases ends_of_unfinished finished with isCurly | isEnd | skips
              · cases isCurly
              · cases isEnd
              · cases skips
          | cons block outer =>
              by_cases fits : block.opening.closer = closer
              · rw [Nested.step_closes fits] at finished
                rcases ends_of_unfinished finished with isCurly | isEnd | skips
                · obtain ⟨opened, opening, older⟩ := block
                  subst fits
                  cases opening with
                  | curly => rfl
                  | _ => cases isCurly
                · cases isEnd
                · cases skips
              -- a closer that does not fit is a stray one, and the lexemes would not be balanced
              · rw [Nested.steps_cons, Nested.step_strays fits] at balanced
                cases balanced

/-- Complete lexemes end well. -/
theorem Complete.endWell {lexemes : List (Nat × Lexeme)} (complete : Complete lexemes) :
    EndWell lexemes := by
  rintro front ⟨offset, lexeme⟩ gap rfl isGap
  rw [List.append_cons] at complete
  exact (complete.of_append_blank isGap).mayEnd

/-! ## Texts -/

/-- The rules of a complete text that is read before other text stand before the rules of
that text. -/
theorem rulesFrom_text {text more : List Char} (complete : Complete (lexemesFrom 0 text))
    (reads : ReadBefore more text) :
    rulesFrom (lexemesFrom 0 (text ++ more)) = do
      let here ← rulesFrom (lexemesFrom 0 text)
      let later ← rulesFrom (lexemesFrom text.length more)
      return here ++ later := by
  obtain ⟨front, last, gap, gapAfter, lexemes, isLast, isGap, isGapAfter, alone, whole, after⟩ :=
    reads.lexemesFrom_append 0
  rw [Nat.zero_add] at after
  rw [alone] at complete
  have completeFront := complete.of_append_blank isLast
  have rulesAlone : rulesFrom (front ++ last) = rulesFrom front := by
    have nothing := rulesFrom_blank isLast []
    rw [List.append_nil] at nothing
    rw [completeFront.rulesFrom_append, nothing]
    cases rulesFrom front with
    | error offset => rfl
    | ok rules => exact congrArg Except.ok (List.append_nil rules)
  rw [whole, alone, after, rulesAlone, List.append_assoc, completeFront.rulesFrom_append,
    rulesFrom_blank isGap, rulesFrom_blank isGapAfter]

theorem rulesFrom_newline (offset : Nat) (text : List Char) :
    rulesFrom (lexemesFrom offset ('\n' :: text)) = rulesFrom (lexemesFrom (offset + 1) text) := by
  obtain ⟨gap, gapAfter, lexemes, isGap, isGapAfter, whole, after⟩ :=
    @lexemesFrom_blanks offset ['\n'] (List.all_eq_true.1 (by decide)) text
  rw [List.singleton_append] at whole
  rw [List.length_singleton] at after
  rw [whole, after, rulesFrom_blank isGap, rulesFrom_blank isGapAfter]

/-! ## Line ends -/

/-- A newline after a text is a line end of its own, or belongs to the carriage return that
ends the text. -/
inductive NewlineAfter (text more : List Char) : Prop where
  | own : normalizeNewlines (text ++ ['\n']) = normalizeNewlines text ++ ['\n'] →
      normalizeNewlines (text ++ '\n' :: more) =
        normalizeNewlines text ++ '\n' :: normalizeNewlines more → NewlineAfter text more
  | shared {front : List Char} : normalizeNewlines text = front ++ ['\n'] →
      normalizeNewlines (text ++ ['\n']) = front ++ ['\n'] →
      normalizeNewlines (text ++ '\n' :: more) = front ++ ['\n'] ++ normalizeNewlines more →
      NewlineAfter text more

theorem newlineAfter (text more : List Char) : NewlineAfter text more := by
  by_cases isReturn : text.getLast? = some '\r'
  · obtain ⟨front, rfl⟩ := List.getLast?_eq_some_iff.1 isReturn
    have whole (later : List Char) : normalizeNewlines (front ++ ['\r'] ++ '\n' :: later) =
        normalizeNewlines front ++ ['\n'] ++ normalizeNewlines later := by
      rw [List.append_assoc, List.singleton_append, normalizeNewlines_append (by decide),
        normalizeNewlines, List.append_assoc, List.singleton_append]
    have alone : normalizeNewlines (front ++ ['\r']) = normalizeNewlines front ++ ['\n'] := by
      rw [normalizeNewlines_append (by decide)]
      rfl
    apply NewlineAfter.shared alone _ (whole more)
    rw [whole [], normalizeNewlines, List.append_nil]
  · refine .own ?_ ?_
    · rw [normalizeNewlines_append_of_last isReturn]
      rfl
    · rw [normalizeNewlines_append_of_last isReturn]
      rfl

/-- A whole line before a text moves its end down. -/
theorem after_append_line (front text : List Char) :
    Position.after (front ++ ['\n'] ++ text) =
      ⟨(Position.after text).line + (front ++ ['\n']).count '\n',
        (Position.after text).column⟩ := by
  have column := (takeWhile_append_stop (by decide) text.reverse front.reverse :
    (text.reverse ++ '\n' :: front.reverse).takeWhile (· ≠ '\n') = _ ∧ _).1
  rw [Position.after, Position.after, List.count_append]
  simp only [List.reverse_append, List.reverse_singleton, List.singleton_append] at column ⊢
  rw [column, Nat.add_comm (List.count _ _), Nat.add_right_comm]

/-! ## Sheets -/

/-- The number of lines that end in a text. -/
def newlinesIn (text : String) : Nat :=
  (normalizeNewlines text.toList).count '\n'

/-- The number of lines that end in some texts with a newline after each. -/
def linesOf : List String → Nat
  | [] => 0
  | text :: rest => newlinesIn (text ++ "\n") + linesOf rest

/-- A sheet that leaves nothing open at its end: no string, address or comment, no block and
no function, and no at-rule that neither a semicolon nor a block in curly brackets has ended. -/
structure LeavesNothingOpen (text : String) : Prop where
  lexemes : endsOpen (normalizeNewlines text.toList) = false
  blocks : Balanced (significant (lexemesFrom 0 (normalizeNewlines text.toList)))
  atRule : startsAtRule (Level.outermost.unfinished [] (significantComponents text.toList)) = false

instance (text : String) : Decidable (LeavesNothingOpen text) :=
  decidable_of_iff (endsOpen (normalizeNewlines text.toList) = false ∧
      Balanced (significant (lexemesFrom 0 (normalizeNewlines text.toList))) ∧
        startsAtRule (Level.outermost.unfinished [] (significantComponents text.toList)) = false)
    ⟨fun ⟨lexemes, blocks, atRule⟩ => ⟨lexemes, blocks, atRule⟩,
      fun isClosed => ⟨isClosed.lexemes, isClosed.blocks, isClosed.atRule⟩⟩

theorem parse_eq_ok {source : String} {sheet : Stylesheet} :
    Stylesheet.parse source = .ok sheet ↔
      rulesFrom (lexemesFrom 0 (normalizeNewlines source.toList)) = .ok sheet.rules := by
  rw [parse_eq]
  cases rulesFrom (lexemesFrom 0 (normalizeNewlines source.toList)) with
  | error offset => simp
  | ok rules =>
      obtain ⟨rulesOfSheet⟩ := sheet
      simp

theorem LeavesNothingOpen.complete {text : String} (isClosed : LeavesNothingOpen text)
    {sheet : Stylesheet} (parsed : Stylesheet.parse text = .ok sheet) :
    Complete (lexemesFrom 0 (normalizeNewlines text.toList)) := by
  refine ⟨isClosed.blocks, ?_⟩
  rw [Stylesheet.parse] at parsed
  cases statements : statementsFrom .outermost [] (significantComponents text.toList) with
  | error offset =>
      rw [statements] at parsed
      cases parsed
  | ok read => exact unfinished_of_ok statements isClosed.atRule

/-- A sheet that leaves nothing open, joined to another text by a newline. -/
theorem rulesFrom_joined {text : List Char} (closed : endsOpen (normalizeNewlines text) = false)
    (complete : Complete (lexemesFrom 0 (normalizeNewlines text))) (more : List Char) :
    ∃ front, normalizeNewlines (text ++ ['\n']) = front ++ ['\n'] ∧
      normalizeNewlines (text ++ '\n' :: more) = front ++ ['\n'] ++ normalizeNewlines more ∧
      rulesFrom (lexemesFrom 0 (normalizeNewlines (text ++ '\n' :: more))) = do
        let here ← rulesFrom (lexemesFrom 0 (normalizeNewlines text))
        let later ← (rulesFrom (lexemesFrom 0 (normalizeNewlines more))).mapError
          (· + (front ++ ['\n']).length)
        return here ++ later := by
  have isClosed := Closed.of_endWell closed complete.endWell
  have later := rulesFrom_lexemesFrom (clean_normalizeNewlines more)
  cases newlineAfter text more with
  | own line whole =>
      refine ⟨normalizeNewlines text, line, ?_, ?_⟩
      · rw [whole, List.append_assoc, List.singleton_append]
      · rw [whole, rulesFrom_text complete (isClosed.readBefore _), rulesFrom_newline, later,
          List.length_append, List.length_singleton]
  | @shared front alone line whole =>
      rw [alone] at isClosed complete
      refine ⟨front, line, whole, ?_⟩
      rw [whole, alone, rulesFrom_text complete (isClosed.readBefore_of_newline _), later]

theorem toList_joined (text more : String) :
    (text ++ "\n" ++ more).toList = text.toList ++ '\n' :: more.toList := by
  simp

/-- A text whose reading is that of its last part, below `lines` lines with the rules of
`sheet`: the rules come first, and the position of the error is moved down. -/
structure ReadsBelow (sheet : Stylesheet) (lines : Nat) (last whole : String) : Prop where
  ok : ∀ later, Stylesheet.parse last = .ok later →
    Stylesheet.parse whole = .ok (sheet.append later)
  error : ∀ failure, Stylesheet.parse last = .error failure →
    ∃ moved, Stylesheet.parse whole = .error moved ∧ moved.message = failure.message ∧
      moved.position.column = failure.position.column ∧
        moved.position.line = failure.position.line + lines

theorem ReadsBelow.refl (text : String) : ReadsBelow ⟨[]⟩ 0 text text := by
  constructor
  · intro later parsed
    exact parsed
  · intro failure failed
    exact ⟨failure, failed, rfl, rfl, rfl⟩

theorem ReadsBelow.trans {first second : Stylesheet} {lines more : Nat}
    {last middle whole : String} (outer : ReadsBelow first lines middle whole)
    (inner : ReadsBelow second more last middle) :
    ReadsBelow (first.append second) (more + lines) last whole := by
  constructor
  · intro later parsed
    rw [outer.ok _ (inner.ok later parsed), Stylesheet.append, Stylesheet.append,
      Stylesheet.append, Stylesheet.append, List.append_assoc]
  · intro failure failed
    obtain ⟨below, failedMiddle, message, column, line⟩ := inner.error failure failed
    obtain ⟨moved, failedWhole, messageWhole, columnWhole, lineWhole⟩ :=
      outer.error below failedMiddle
    refine ⟨moved, failedWhole, messageWhole.trans message, columnWhole.trans column, ?_⟩
    rw [lineWhole, line, Nat.add_assoc]

theorem positionIn_below {whole last : String} {front : List Char}
    (shape : normalizeNewlines whole.toList = front ++ ['\n'] ++ normalizeNewlines last.toList)
    (offset : Nat) :
    Stylesheet.positionIn whole (offset + (front ++ ['\n']).length) =
      ⟨(Stylesheet.positionIn last offset).line + (front ++ ['\n']).count '\n',
        (Stylesheet.positionIn last offset).column⟩ := by
  rw [Stylesheet.positionIn, shape, Nat.add_comm, List.take_length_add_append,
    after_append_line]
  rfl

/-- A sheet that leaves nothing open stands above the text that follows it. -/
theorem LeavesNothingOpen.readsBelow {first : String} (isClosed : LeavesNothingOpen first)
    {sheet : Stylesheet} (parsed : Stylesheet.parse first = .ok sheet) (second : String) :
    ReadsBelow sheet (newlinesIn (first ++ "\n")) second (first ++ "\n" ++ second) := by
  obtain ⟨front, line, whole, rules⟩ :=
    rulesFrom_joined isClosed.lexemes (isClosed.complete parsed) second.toList
  rw [parse_eq_ok.1 parsed] at rules
  rw [← toList_joined] at whole rules
  constructor
  · intro later parsedLater
    rw [parse_eq_ok.1 parsedLater] at rules
    exact parse_eq_ok.2 rules
  · intro failure failed
    rw [parse_eq] at failed
    cases read : rulesFrom (lexemesFrom 0 (normalizeNewlines second.toList)) with
    | ok later =>
        rw [read] at failed
        cases failed
    | error offset =>
        rw [read] at failed rules
        cases failed
        have position := positionIn_below whole offset
        refine ⟨⟨Stylesheet.positionIn (first ++ "\n" ++ second)
          (offset + (front ++ ['\n']).length)⟩, ?_, rfl, ?_, ?_⟩
        · rw [parse_eq, rules]
          rfl
        · rw [position]
        · have lines : (first ++ "\n").toList = first.toList ++ ['\n'] := String.toList_append
          rw [position, newlinesIn, lines, line]

/-! ## The sheets of a run -/

/-- The texts that a run joins. -/
def joinedTexts (options : Run.Options) (texts : List String) : List String :=
  texts ++ if options.extraCss = "" then [] else [options.extraCss]

theorem intercalate_cons_cons (first second : String) (more : List String) :
    "\n".intercalate (first :: second :: more) =
      first ++ "\n" ++ "\n".intercalate (second :: more) := by
  apply String.toList_injective
  simp [String.toList_intercalate]

/-- Sheets that leave nothing open stand above the text that follows them. -/
theorem readsBelow_intercalate {front : List String} {sheets : List Stylesheet}
    (closed : List.Forall₂ (fun text sheet =>
      LeavesNothingOpen text ∧ Stylesheet.parse text = .ok sheet) front sheets) (last : String) :
    ReadsBelow ⟨sheets.flatMap (·.rules)⟩ (linesOf front) last
      ("\n".intercalate (front ++ [last])) := by
  induction closed with
  | nil => exact .refl last
  | @cons text sheet front sheets here _ ih =>
      have below := (here.1.readsBelow here.2 ("\n".intercalate (front ++ [last]))).trans ih
      obtain ⟨second, more, shape⟩ : ∃ second more, front ++ [last] = second :: more :=
        List.exists_cons_of_ne_nil (by simp)
      rw [List.cons_append, shape, intercalate_cons_cons, ← shape, linesOf, Nat.add_comm]
      exact below

/-- A sheet that leaves nothing open does not leak into the text that is joined to it: the
joined text has its rules and then those of the other text, and where the other text cannot be
read, neither can the joined one, for the same reason at the same column, as many lines further
down as end in the sheet and the newline after it.  So it is with the sheets of a run and the
text given to it. -/
theorem joined_sheets_read_apart :
    (∀ (first second : String) (sheet : Stylesheet), Stylesheet.parse first = .ok sheet →
      LeavesNothingOpen first →
        ReadsBelow sheet (newlinesIn (first ++ "\n")) second (first ++ "\n" ++ second)) ∧
    ∀ (options : Run.Options) (texts front : List String) (last : String)
      (sheets : List Stylesheet), joinedTexts options texts = front ++ [last] →
      List.Forall₂ (fun text sheet => LeavesNothingOpen text ∧ Stylesheet.parse text = .ok sheet)
        front sheets →
        ReadsBelow ⟨sheets.flatMap (·.rules)⟩ (linesOf front) last
          (Run.joinedSource options texts) := by
  constructor
  · intro first second sheet parsed isClosed
    exact isClosed.readsBelow parsed second
  · intro options texts front last sheets shape closed
    have joined : Run.joinedSource options texts = "\n".intercalate (joinedTexts options texts) :=
      rfl
    rw [joined, shape]
    exact readsBelow_intercalate closed last

/-- A sheet with a broken string and a carriage return at its end, one with a broken address and
a comment at its end, and a text given to the run that cannot be read. -/
theorem joined_sheets_read_apart_broken :
    let first := "a\x7b\"b\r\x7d\r"
    let second := "c\x7burl(d\"e)\x7d/**/"
    let options : Run.Options := { extraCss := "\n f" }
    Stylesheet.parse (first ++ "\n" ++ second) = .ok ⟨[.style ["a"] [], .style ["c"] []]⟩ ∧
      ∃ moved, Stylesheet.parse (Run.joinedSource options [first, second]) = .error moved ∧
        moved.position = ⟨5, 2⟩ := by
  intro first second options
  have closedFirst : LeavesNothingOpen first := by decide +kernel
  have closedSecond : LeavesNothingOpen second := by decide +kernel
  have readsFirst : Stylesheet.parse first = .ok ⟨[.style ["a"] []]⟩ := by decide +kernel
  have readsSecond : Stylesheet.parse second = .ok ⟨[.style ["c"] []]⟩ := by decide +kernel
  have fails : Stylesheet.parse "\n f" = .error ⟨⟨2, 2⟩⟩ := by decide +kernel
  constructor
  · have below := joined_sheets_read_apart.1 first second _ readsFirst closedFirst
    exact below.ok _ readsSecond
  · have below := joined_sheets_read_apart.2 options [first, second] [first, second] "\n f" _ rfl
      (.cons ⟨closedFirst, readsFirst⟩ (.cons ⟨closedSecond, readsSecond⟩ .nil))
    obtain ⟨moved, failed, -, column, line⟩ := below.error _ fails
    have lines : linesOf [first, second] = 3 := by decide +kernel
    rw [lines] at line
    refine ⟨moved, failed, ?_⟩
    obtain ⟨⟨_, _⟩⟩ := moved
    exact congrArg₂ Position.mk line column

end StyleSieve
