import StyleSieve.Proofs.Css.Literals

/-!
# Spelled lexemes

A step of the scanner that reads neither a blank, a comment nor something broken gives one
lexeme, and what is written for the lexeme lags behind the span that the step takes.
-/

namespace StyleSieve.Css

/-- Whether a lexeme separates and means nothing. -/
def Lexeme.isGap : Lexeme → Bool
  | .token (.whitespace _) | .token (.comment _) => true
  | _ => false

/-- The text of a delimiter. -/
def Lexeme.delim? : Lexeme → Option (List Char)
  | .token (.delim text) => some text
  | _ => none

/-- How many characters a lexeme is spelled with at least. -/
def Lexeme.weight : Lexeme → Nat
  | .token (.ident name) => name.length
  | .token (.delim text) => size text
  | _ => 0

/-- What is written for the lexeme of a step lags behind the span of the step, unless
something in it is broken. -/
inductive StepSpells (text : List Char) : Step → Prop where
  | faulty {step : Step} {cause : Fault} : .token (.fault cause) ∈ step.1 → StepSpells text step
  | read {lexeme : Lexeme} {after : List Char} : lexeme.isGap = false →
      Span lexeme.write text after → lexeme.weight + size after ≤ size text →
      (∀ written ∈ lexeme.delim?, text = written ++ after) → StepSpells text ([lexeme], after)

theorem Span.size_le {written text after : List Char} (span : Span written text after) :
    size after ≤ size text := by
  obtain ⟨read, rfl, _⟩ := span
  rw [size_append]
  exact Nat.le_add_left _ _

/-- A lexeme that is neither an identifier nor a delimiter. -/
theorem StepSpells.light {lexeme : Lexeme} {text after : List Char}
    (span : Span lexeme.write text after) (solid : lexeme.isGap = false)
    (light : lexeme.weight = 0) (noDelim : lexeme.delim? = none) :
    StepSpells text ([lexeme], after) := by
  refine .read solid span ?_ ?_
  · rw [light, Nat.zero_add]
    exact span.size_le
  · rw [noDelim]
    exact fun _ => nofun

theorem StepSpells.delim (written after : List Char) :
    StepSpells (written ++ after) ([.token (.delim written)], after) := by
  refine .read rfl ⟨written, rfl, .refl written⟩ ?_ ?_
  · rw [size_append]
    exact Nat.le_refl _
  · rintro other ⟨⟩
    rfl

theorem Span.of_spelling (spelling after : List Char) : Span spelling (spelling ++ after) after :=
  ⟨spelling, rfl, .refl spelling⟩

/-- More text may be taken as it is. -/
theorem Span.append {written text after : List Char} (more : List Char)
    (span : Span written text (more ++ after)) : Span (written ++ more) text after := by
  obtain ⟨read, rfl, lags⟩ := span
  exact ⟨read ++ more, by simp, lags.append (.refl more)⟩

/-! ## Addresses -/

theorem isAlpha_of_toLower {c : Char} (isAlpha : c.toLower.isAlpha = true) : c.isAlpha = true := by
  unfold Char.toLower at isAlpha
  split at isAlpha
  · rename_i isUpper
    change (c.isUpper || c.isLower) = true
    rw [show c.isUpper = true from decide_eq_true isUpper]
    rfl
  · exact isAlpha

theorem isCloser_of_isAlpha {c : Char} (isAlpha : c.isAlpha = true) : isCloser c = false := by
  cases closes : isCloser c with
  | false => rfl
  | true =>
      simp only [isCloser, Bool.or_eq_true, beq_iff_eq] at closes
      rcases closes with ((rfl | rfl) | rfl) | rfl <;> cases isAlpha

/-- A name of letters is written as it is. -/
theorem writeName_letters {name : List Char} (letters : ∀ c ∈ name, c.isAlpha = true) :
    writeName name = name := by
  induction name with
  | nil => rfl
  | cons c more ih =>
      obtain ⟨isAlpha, others⟩ := List.forall_mem_cons.1 letters
      have isName : isNameChar c = true := by simp [isNameChar, isNameStart, isAlpha]
      rw [writeName, List.flatMap_cons, ← writeName, ih others, writeNameChar, if_pos isName]
      rfl

/-- The name before an address is written in lower case. -/
theorem lags_urlName {name span : List Char} (isUrl : lowerAscii name = "url".toList)
    (long : name.length ≤ size span) (lags : Lags (writeName name) span) :
    Lags "url".toList span := by
  have letters : ∀ c ∈ name, c.isAlpha = true := by
    intro c member
    have lower : c.toLower ∈ "url".toList := isUrl ▸ List.mem_map_of_mem member
    have all : ∀ d ∈ "url".toList, d.isAlpha = true := List.all_eq_true.1 (by decide)
    exact isAlpha_of_toLower (all _ lower)
  have length : name.length = 3 := by
    have same := congrArg List.length isUrl
    rwa [lowerAscii, List.length_map] at same
  have others : ∀ c ∈ unspaced (writeName name), isCloser c = false := by
    intro c member
    rw [writeName_letters letters] at member
    exact isCloser_of_isAlpha (letters c (mem_unspaced.1 member).1)
  refine ⟨.of_length_le (Nat.le_trans (Nat.le_of_eq length.symm) long), ?_⟩
  cases lags.closes with
  | same same closers =>
      rw [← same] at closers
      cases text : unspaced (writeName name) with
      | nil =>
          have empty : size span = 0 := by rw [size, ← same, text]; rfl
          omega
      | cons c more =>
          have other := others c (text ▸ List.mem_cons_self)
          rw [text, List.all_cons, other] at closers
          cases closers
  | more run other => exact .more (by rw [closingRun_eq_zero others] at run; omega) other

/-! ## Steps -/

theorem scanIdent_spells {text : List Char} (starts : startsIdent text = true) :
    StepSpells text (scanIdent text) := by
  cases read : takeName text with
  | mk name after =>
      have span := writeIdent_span starts read
      by_cases isCall : ∃ more, after = '(' :: more
      · obtain ⟨more, rfl⟩ := isCall
        cases isAddress : lowerAscii name == "url".toList && !isQuoted more with
        | false =>
            rw [scanIdent_call text read isAddress]
            exact .light (span.append ['(']) rfl rfl rfl
        | true =>
            rw [scanIdent_address text read isAddress]
            have isUrl := (Bool.and_eq_true _ _ ▸ isAddress).1
            have blanks : ∀ c ∈ more.takeWhile isSpace, isSpace c = true :=
              fun c member => List.all_eq_true.1 List.all_takeWhile c member
            cases taken : takeUrl (more.dropWhile isSpace) with
            | mk value others =>
                obtain ⟨ending, later⟩ := others
                cases ending with
                | endOfText => exact .faulty (List.mem_cons_of_mem _ List.mem_cons_self)
                | broken => exact .faulty List.mem_cons_self
                | closed =>
                    -- the blanks before the address are not written at all
                    refine .light ?_ rfl rfl rfl
                    obtain ⟨nameSpan, rfl, lagsName⟩ := takeName_span read
                    have long := length_takeName read
                    rw [size_append] at long
                    have opening : Lags "url(".toList (nameSpan ++ ['(']) :=
                      (lags_urlName (beq_iff_eq.1 isUrl) (by omega) lagsName).append (.refl ['('])
                    obtain ⟨inner, wholeInner, lagsInner⟩ := takeUrl_span taken
                    have whole : more = more.takeWhile isSpace ++ (inner ++ later) := by
                      rw [← wholeInner, List.takeWhile_append_dropWhile]
                    refine ⟨nameSpan ++ ['('] ++ (more.takeWhile isSpace ++ inner), ?_,
                      opening.append (lags_blanks blanks lagsInner)⟩
                    conv_lhs => rw [whole]
                    simp
      · have noCall : after.head? ≠ some '(' := by
          intro isHead
          obtain ⟨more, shape⟩ := List.head?_eq_some_iff.1 isHead
          exact isCall ⟨more, shape⟩
        rw [scanIdent_ident text read noCall]
        exact .read rfl span (length_takeName read) (fun _ => nofun)

theorem scanNumeric_spells (spelling rest : List Char) :
    StepSpells (spelling ++ rest) (scanNumeric spelling rest) := by
  unfold scanNumeric
  split
  · rename_i starts
    refine .light ?_ rfl rfl rfl
    exact (writeUnit_span starts rfl).prepend (.refl spelling)
  · split
    · exact .light ((Span.of_spelling spelling _).append ['%']) rfl rfl rfl
    · exact .light (Span.of_spelling spelling _) rfl rfl rfl

theorem scanString_spells {quote : Char} (isQuote : quote ∈ ['"', '\'']) (rest : List Char) :
    StepSpells (quote :: rest) (scanString quote rest) := by
  unfold scanString
  split
  · rename_i value after read
    refine .light ?_ rfl rfl rfl
    exact (takeString_span isQuote read).prepend (lags_quote isQuote)
  · exact .faulty (List.mem_cons_of_mem _ List.mem_cons_self)
  · exact .faulty List.mem_cons_self

theorem scanSymbol_spells {c : Char} {rest : List Char} (noComment : c = '/' → rest.head? ≠ some '*') :
    StepSpells (c :: rest) (scanSymbol c rest) := by
  unfold scanSymbol
  split
  · split
    · rename_i starts
      refine .light ?_ rfl rfl rfl
      exact (writeIdent_span starts rfl).prepend (.refl ['@'])
    · exact .delim ['@'] rest
  · rename_i d more
    split
    · refine .light ?_ rfl rfl rfl
      cases starts : startsIdent (d :: more) with
      | true => exact (writeIdent_span starts rfl).prepend (.refl ['#'])
      | false => exact (takeName_span rfl).prepend (.refl ['#'])
    · exact .delim ['#'] _
  · exact .light (Span.of_spelling [_] rest) rfl rfl rfl
  · exact .light (Span.of_spelling [_] rest) rfl rfl rfl
  · exact .light (Span.of_spelling [_] rest) rfl rfl rfl
  · exact .light (Span.of_spelling [_] rest) rfl rfl rfl
  · exact .light (Span.of_spelling [_] rest) rfl rfl rfl
  · exact .light (Span.of_spelling [_] rest) rfl rfl rfl
  · exact scanString_spells (by decide) rest
  · exact scanString_spells (by decide) rest
  · exact absurd rfl (noComment rfl)
  · exact .delim "<!--".toList _
  · exact .delim "||".toList _
  · exact .delim "~=".toList _
  · exact .delim "|=".toList _
  · exact .delim "^=".toList _
  · exact .delim "$=".toList _
  · exact .delim "*=".toList _
  · exact .delim [c] rest

/-- A range of code points after its letter. -/
theorem scanRange_spells {c d : Char} (isU : c = 'U' ∨ c = 'u')
    (starts : isHexDigit d = true ∨ d = '?') (rest : List Char) :
    StepSpells (c :: '+' :: d :: rest)
      ([.token (.unicodeRange (takeUnicodeRange (d :: rest)).1 (takeUnicodeRange (d :: rest)).2.1)],
        (takeUnicodeRange (d :: rest)).2.2) := by
  refine .light ?_ rfl rfl rfl
  cases read : takeUnicodeRange (d :: rest) with
  | mk first others =>
      have letter : Lags ['U'] [c] := by
        rcases isU with rfl | rfl
        · exact .refl _
        · exact .of_size (by decide) (by decide) (by decide)
      have span := (takeUnicodeRange_span starts read).prepend (letter.append (.refl ['+']))
      rw [Lexeme.write, Token.write, List.append_assoc]
      exact span

theorem scan_spells {c : Char} {rest : List Char} (notSpace : isSpace c = false)
    (noComment : c = '/' → rest.head? ≠ some '*') : StepSpells (c :: rest) (scan c rest) := by
  unfold scan
  rw [notSpace]
  simp only [Bool.false_eq_true, if_false]
  split
  · rename_i isRange
    rw [Bool.and_eq_true, Bool.or_eq_true, beq_iff_eq, beq_iff_eq] at isRange
    obtain ⟨isU, starts⟩ := isRange
    unfold startsUnicodeRange at starts
    split at starts
    · rw [Bool.or_eq_true, beq_iff_eq] at starts
      exact scanRange_spells isU starts _
    · cases starts
  · split
    · rename_i isArrow
      rw [Bool.and_eq_true, beq_iff_eq, beq_iff_eq] at isArrow
      have whole : c :: rest = "-->".toList ++ rest.drop 2 := by
        conv_lhs => rw [← List.take_append_drop 2 rest, isArrow.1, isArrow.2]
        rfl
      rw [whole]
      exact .delim "-->".toList _
    · split
      · rename_i starts
        exact scanIdent_spells starts
      · split
        · rename_i spelling after found
          rw [← (takeNumber?_spec found).2]
          exact scanNumeric_spells spelling after
        · exact scanSymbol_spells noComment

end StyleSieve.Css
