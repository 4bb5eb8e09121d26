import StyleSieve.Proofs.Css.Rendering

/-!
# Broken tokens

A string that breaks off at the end of its line, and an address that breaks off at a
character that it cannot hold, are read without a look at what follows, like those that are
closed.  A string, an address or a comment that reaches the end of the text is left open.
-/

namespace StyleSieve.Css

/-! ## Readers that have found their end -/

theorem take_takeWhile_append {p : Char → Bool} {count : Nat} {text : List Char}
    (left : ((text.take count).takeWhile p).length < text.length) (more : List Char) :
    ((text ++ more).take count).takeWhile p = (text.take count).takeWhile p := by
  induction text generalizing count with
  | nil => cases left
  | cons c rest ih =>
      cases count with
      | zero => rfl
      | succ count =>
          rw [List.cons_append, List.take_succ_cons, List.take_succ_cons, List.takeWhile_cons,
            List.takeWhile_cons]
          cases holds : p c with
          | false => rfl
          | true =>
              rw [List.take_succ_cons, List.takeWhile_cons, holds] at left
              rw [ih (Nat.lt_of_succ_lt_succ left)]

/-- An escape before which nothing is left open is read without a look at what follows. -/
theorem escaped_append {text : List Char} (left : (escaped text).2 ≠ []) (more : List Char) :
    escaped (text ++ more) = ((escaped text).1, (escaped text).2 ++ more) := by
  cases text with
  | nil => exact absurd rfl left
  | cons c rest =>
      cases isHex : isHexDigit c with
      | false => rw [List.cons_append, escaped_of_not_hex isHex, escaped_of_not_hex isHex]
      | true =>
          rw [escaped, if_pos isHex] at left
          dsimp only at left
          have long : (((c :: rest).take 6).takeWhile isHexDigit).length < (c :: rest).length := by
            refine Nat.lt_of_not_le fun short => left ?_
            rw [List.drop_eq_nil_iff.2 short]
          rw [List.cons_append, escaped, escaped, if_pos isHex, if_pos isHex, ← List.cons_append,
            take_takeWhile_append long]
          dsimp only
          rw [List.drop_append_of_le_length (Nat.le_of_lt long)]
          obtain ⟨d, later, after⟩ := List.exists_cons_of_ne_nil
            (mt List.drop_eq_nil_iff.1 (Nat.not_le_of_lt long))
          rw [after, List.cons_append]
          dsimp only
          split <;> rfl

theorem escapes_append {text : List Char} (filled : text ≠ []) (more : List Char) :
    escapes (text ++ more) = escapes text := by
  cases text with
  | nil => exact absurd rfl filled
  | cons c rest => rfl

/-- A string that is closed or broken is read without a look at what follows. -/
theorem takeString_append {quote : Char} {text : List Char}
    (ends : (takeString quote text).2.1 ≠ .endOfText) (more : List Char) :
    takeString quote (text ++ more) =
      ((takeString quote text).1, (takeString quote text).2.1,
        (takeString quote text).2.2 ++ more) := by
  fun_induction takeString quote text with
  | case1 => exact absurd rfl ends
  | case2 c rest isQuote => rw [List.cons_append, takeString, if_pos isQuote]
  | case3 => exact absurd rfl ends
  | case4 c rest notQuote isBackslash filled isEscape value ending after shape ih =>
      rw [shape] at ih
      have notEmpty : rest ≠ [] := by simpa using filled
      have left : (escaped rest).2 ≠ [] := by
        intro nothing
        rw [nothing, takeString] at shape
        cases shape
        exact ends rfl
      have filledMore : (rest ++ more).isEmpty = false := by simp [notEmpty]
      rw [List.cons_append, takeString, if_neg notQuote, if_pos isBackslash, filledMore,
        escapes_append notEmpty, isEscape, escaped_append left]
      simp only [ih ends, Bool.false_eq_true, if_false, if_true]
  | case5 c rest notQuote isBackslash filled noEscape ih =>
      have notEmpty : rest ≠ [] := by simpa using filled
      have filledMore : (rest ++ more).isEmpty = false := by simp [notEmpty]
      rw [List.cons_append, takeString, if_neg notQuote, if_pos isBackslash, filledMore,
        escapes_append notEmpty, if_neg Bool.false_ne_true, if_neg noEscape,
        List.drop_append_of_le_length (List.length_pos_iff.2 notEmpty)]
      exact ih ends
  | case6 c rest notQuote notBackslash isBreak =>
      rw [List.cons_append, takeString, if_neg notQuote, if_neg notBackslash, if_pos isBreak]
  | case7 c rest notQuote notBackslash notBreak value ending after shape ih =>
      rw [shape] at ih
      rw [List.cons_append, takeString, if_neg notQuote, if_neg notBackslash, if_neg notBreak,
        ih ends]

theorem not_escape_append {c : Char} {text : List Char}
    (noEscape : ¬(c == '\\' && escapes text) = true) (more : List Char) :
    ¬(c == '\\' && escapes (text ++ more)) = true := by
  cases text with
  | nil =>
      rw [Bool.and_eq_true, beq_iff_eq]
      rintro ⟨rfl, -⟩
      exact noEscape rfl
  | cons d later => exact noEscape

/-- An address that is closed or broken is read without a look at what follows. -/
theorem takeUrl_append {text : List Char} (ends : (takeUrl text).2.1 ≠ .endOfText)
    (more : List Char) :
    takeUrl (text ++ more) =
      ((takeUrl text).1, (takeUrl text).2.1, (takeUrl text).2.2 ++ more) := by
  fun_induction takeUrl text with
  | case1 => exact absurd rfl ends
  | case2 c rest isCloser => rw [List.cons_append, takeUrl, if_pos isCloser]
  | case3 => exact absurd rfl ends
  | case4 c rest notCloser isBlank d later shape isCloser =>
      rw [List.cons_append, takeUrl, if_neg notCloser, if_pos isBlank, List.dropWhile_append,
        shape]
      simp [isCloser]
  | case5 c rest notCloser isBlank d later shape other =>
      rw [List.cons_append, takeUrl, if_neg notCloser, if_pos isBlank, List.dropWhile_append,
        shape]
      simp [other]
  | case6 c rest notCloser notBlank isEscape value ending after shape ih =>
      rw [shape] at ih
      have left : (escaped rest).2 ≠ [] := by
        intro nothing
        rw [nothing, takeUrl] at shape
        cases shape
        exact ends rfl
      have notEmpty : rest ≠ [] := by
        rintro rfl
        exact left rfl
      rw [List.cons_append, takeUrl, if_neg notCloser, if_neg notBlank,
        escapes_append notEmpty, if_pos isEscape, escaped_append left]
      simp only [ih ends]
  | case7 c rest notCloser notBlank noEscape breaks =>
      rw [List.cons_append, takeUrl, if_neg notCloser, if_neg notBlank,
        if_neg (not_escape_append noEscape more), if_pos breaks]
  | case8 c rest notCloser notBlank noEscape holds value ending after shape ih =>
      rw [shape] at ih
      rw [List.cons_append, takeUrl, if_neg notCloser, if_neg notBlank,
        if_neg (not_escape_append noEscape more), if_neg holds, ih ends]

/-- Whether a broken address has a closer that no backslash stands before. -/
def closesBrokenUrl : List Char → Bool
  | [] => false
  | '\\' :: ')' :: rest => closesBrokenUrl rest
  | ')' :: _ => true
  | _ :: rest => closesBrokenUrl rest

theorem skipBrokenUrl_append {text : List Char} (closes : closesBrokenUrl text = true)
    (more : List Char) : skipBrokenUrl (text ++ more) = skipBrokenUrl text ++ more := by
  fun_induction skipBrokenUrl text with
  | case1 => cases closes
  | case2 rest ih => exact ih closes
  | case3 rest => rfl
  | case4 c rest notEscape notCloser ih =>
      rw [closesBrokenUrl] at closes
      · have notEmpty : rest ≠ [] := by
          rintro rfl
          cases closes
        rw [List.cons_append, skipBrokenUrl, ih closes]
        · intro later isBackslash same
          cases rest with
          | nil => exact notEmpty rfl
          | cons d others =>
              cases (List.cons.inj same).1
              exact notEscape others isBackslash rfl
        · exact notCloser
      · exact notEscape
      · exact notCloser

/-! ## Steps that read something broken -/

/-- The address that a text starts with once its name is read, with what follows it. -/
def addressOf (text : List Char) : List Char :=
  ((takeName text).2.drop 1).dropWhile isSpace

/-- Whether a text starts with the name of an address and the opening of its value. -/
structure StartsAddress (c : Char) (rest : List Char) : Prop where
  starts : startsIdent (c :: rest) = true
  noRange : c = 'U' ∨ c = 'u' → startsUnicodeRange rest = false
  noArrow : c = '-' → rest.take 2 ≠ ['-', '>']
  call : ∃ more, (takeName (c :: rest)).2 = '(' :: more ∧
    (lowerAscii (takeName (c :: rest)).1 == "url".toList && !isQuoted more) = true

theorem StartsAddress.scan_eq {c : Char} {rest : List Char} (address : StartsAddress c rest) :
    scan c rest =
      match takeUrl (addressOf (c :: rest)) with
      | (value, .closed, after) => ([.token (.url value true)], after)
      | (value, .endOfText, after) =>
        ([.token (.url value false), .token (.fault .unclosedUrl)], after)
      | (_, .broken, after) => ([.token (.fault .badUrl)], skipBrokenUrl after) := by
  obtain ⟨more, called, isAddress⟩ := address.call
  rw [scan_startsIdent address.starts address.noRange address.noArrow,
    scanIdent_address (c :: rest) (Prod.ext rfl called) isAddress, addressOf, called]
  rfl

theorem scan_quote {quote : Char} (isQuote : quote ∈ ['"', '\'']) (rest : List Char) :
    scan quote rest = scanString quote rest := by
  simp only [List.mem_cons, List.not_mem_nil, or_false] at isQuote
  rcases isQuote with rfl | rfl
  all_goals
    rw [scan_symbol (by decide) (by decide) rfl (takeNumber?_none (by decide) (by decide)
      (by decide) _)]
    rfl

theorem not_faulty_numeric (spelling rest : List Char) (cause : Fault) :
    .token (.fault cause) ∉ (scanNumeric spelling rest).1 := by
  unfold scanNumeric
  split
  · simp
  · split <;> simp

theorem not_faulty_symbol {c : Char} (noQuote : c ∉ ['"', '\'']) (rest : List Char)
    (cause : Fault) : .token (.fault cause) ∉ (scanSymbol c rest).1 := by
  unfold scanSymbol
  split
  case h_9 => exact absurd (by decide) noQuote
  case h_10 => exact absurd (by decide) noQuote
  case h_1 => split <;> simp [delim]
  case h_2 => split <;> simp [delim]
  all_goals simp [delim]

theorem call_of_faulty {text : List Char} {cause : Fault}
    (faulty : .token (.fault cause) ∈ (scanIdent text).1) :
    ∃ more, (takeName text).2 = '(' :: more ∧
      (lowerAscii (takeName text).1 == "url".toList && !isQuoted more) = true := by
  by_cases isCall : ∃ more, (takeName text).2 = '(' :: more
  · obtain ⟨more, called⟩ := isCall
    refine ⟨more, called, ?_⟩
    cases isAddress : lowerAscii (takeName text).1 == "url".toList && !isQuoted more with
    | true => rfl
    | false =>
        rw [scanIdent_call text (Prod.ext rfl called) isAddress] at faulty
        simp at faulty
  · have noCall : (takeName text).2.head? ≠ some '(' := fun isHead =>
      isCall (List.head?_eq_some_iff.1 isHead)
    rw [scanIdent_ident text rfl noCall] at faulty
    simp at faulty

/-- Only strings and addresses break. -/
theorem quote_or_address {c : Char} {rest : List Char} {cause : Fault}
    (faulty : .token (.fault cause) ∈ (scan c rest).1) :
    c ∈ ['"', '\''] ∨ StartsAddress c rest := by
  by_cases isQuote : c ∈ ['"', '\'']
  · exact .inl isQuote
  · right
    unfold scan at faulty
    split at faulty
    · simp at faulty
    · split at faulty
      · simp at faulty
      · rename_i noRange
        split at faulty
        · simp [delim] at faulty
        · rename_i noArrow
          split at faulty
          · rename_i starts
            exact ⟨starts, by simpa using noRange, by simpa using noArrow, call_of_faulty faulty⟩
          · split at faulty
            · exact absurd faulty (not_faulty_numeric _ _ cause)
            · exact absurd faulty (not_faulty_symbol isQuote rest cause)

/-- The name of an address is read before an edge as it is read alone. -/
theorem takeName_of_call {edge : Char} (isEdge : edge ∈ edges) {text inner : List Char}
    (called : (takeName text).2 = '(' :: inner) (more : List Char) :
    takeName (text ++ edge :: more) = ((takeName text).1, '(' :: (inner ++ edge :: more)) := by
  cases takeName_edge isEdge text more with
  | ends same => rw [same, called]; rfl
  | cut nothing => rw [called] at nothing; cases nothing
  | joined _ nothing => rw [called] at nothing; cases nothing

/-- What a text starts with is an address before an edge too, if its value is quoted neither
here nor there. -/
theorem StartsAddress.edge {edge c : Char} (isEdge : edge ∈ edges) {rest : List Char}
    (address : StartsAddress c rest) {more inner : List Char}
    (called : (takeName (c :: rest)).2 = '(' :: inner)
    (sameQuote : isQuoted (inner ++ edge :: more) = isQuoted inner) :
    StartsAddress c (rest ++ edge :: more) := by
  have isAddress : (lowerAscii (takeName (c :: rest)).1 == "url".toList && !isQuoted inner) =
      true := by
    obtain ⟨other, calledOther, isAddress⟩ := address.call
    cases called.symm.trans calledOther
    exact isAddress
  have whole : c :: rest ≠ ['\\'] ∧ c :: rest ≠ ['-', '\\'] := by
    constructor
    all_goals
      intro alone
      have nothing := (takeName_lone (c :: rest) (by simp [alone])).2.1
      rw [called] at nothing
      cases nothing
  have read := takeName_of_call isEdge called more
  rw [List.cons_append] at read
  constructor
  · have starts := startsIdent_edge isEdge (c :: rest) more whole.1 whole.2
    rw [List.cons_append] at starts
    rw [starts, address.starts]
  · rw [startsUnicodeRange_edge isEdge]
    exact address.noRange
  · have arrow := take_arrow_edge isEdge rest more
    intro isDash same
    rw [same] at arrow
    exact address.noArrow isDash (beq_iff_eq.1 arrow.symm)
  · rw [read]
    exact ⟨_, rfl, by rw [sameQuote]; exact isAddress⟩

/-- An address that is not blank goes on before an edge. -/
theorem StartsAddress.filled {edge c : Char} (isEdge : edge ∈ edges) {rest : List Char}
    (address : StartsAddress c rest) (filled : addressOf (c :: rest) ≠ []) (more : List Char) :
    StartsAddress c (rest ++ edge :: more) ∧
      addressOf (c :: (rest ++ edge :: more)) = addressOf (c :: rest) ++ edge :: more := by
  obtain ⟨inner, called, -⟩ := address.call
  rw [addressOf, called] at filled
  obtain ⟨d, later, shape⟩ := List.exists_cons_of_ne_nil filled
  rw [List.drop_one, List.tail_cons] at shape
  have dropped : (inner ++ edge :: more).dropWhile isSpace = d :: later ++ edge :: more := by
    rw [List.dropWhile_append, shape]
    rfl
  constructor
  · refine address.edge isEdge called ?_
    rw [isQuoted, isQuoted, dropped, shape]
    rfl
  · have read := takeName_of_call isEdge called more
    rw [List.cons_append] at read
    rw [addressOf, addressOf, read, called]
    change (inner ++ edge :: more).dropWhile isSpace = inner.dropWhile isSpace ++ edge :: more
    rw [dropped, shape]

/-! ## What is left open -/

/-- Whether a lexeme says that a string or an address before it is not closed. -/
def Lexeme.isUnclosed : Lexeme → Bool
  | .token (.fault .unclosedString) | .token (.fault .unclosedUrl) => true
  | _ => false

/-- Whether a step of the scanner leaves something open at the end of the text: a string or
an address that is not closed, a broken address without a closer, or a comment. -/
def leavesOpen (c : Char) (rest : List Char) : Bool :=
  (scan c rest).1.any Lexeme.isUnclosed ||
    ((scan c rest).1.contains (.token (.fault .badUrl)) &&
      !closesBrokenUrl (takeUrl (addressOf (c :: rest))).2.2) ||
    (c == '/' && rest.head? == some '*' && takeComment (rest.drop 1) == (rest.drop 1, []))

theorem leavesOpen_of_unclosed {c : Char} {rest : List Char} {lexeme : Lexeme}
    (member : lexeme ∈ (scan c rest).1) (isUnclosed : lexeme.isUnclosed = true) :
    leavesOpen c rest = true := by
  rw [leavesOpen, List.any_eq_true.2 ⟨lexeme, member, isUnclosed⟩]
  rfl

theorem leavesOpen_of_comment (inner : List Char) (opened : takeComment inner = (inner, [])) :
    leavesOpen '/' ('*' :: inner) = true := by
  simp [leavesOpen, opened]

/-- A string that is not left open is read without a look at what follows. -/
theorem scan_quote_append {quote : Char} (isQuote : quote ∈ ['"', '\'']) {rest : List Char}
    (closed : leavesOpen quote rest = false) (more : List Char) :
    scan quote (rest ++ more) = ((scan quote rest).1, (scan quote rest).2 ++ more) := by
  have string := scan_quote isQuote rest
  have read := @takeString_append quote rest
  rw [scan_quote isQuote, string, scanString, scanString]
  cases taken : takeString quote rest with
  | mk value others =>
      obtain ⟨ending, after⟩ := others
      rw [taken] at read
      cases ending with
      | endOfText =>
          rw [scanString, taken] at string
          have unclosed : .token (.fault .unclosedString) ∈ (scan quote rest).1 := by simp [string]
          rw [leavesOpen_of_unclosed unclosed rfl] at closed
          cases closed
      | closed => rw [read StringEnd.noConfusion]
      | brokenLine => rw [read StringEnd.noConfusion]

namespace StartsAddress

variable {c : Char} {rest : List Char}

theorem ends (address : StartsAddress c rest) (closed : leavesOpen c rest = false) :
    (takeUrl (addressOf (c :: rest))).2.1 ≠ .endOfText := by
  intro unclosed
  have step := address.scan_eq
  cases taken : takeUrl (addressOf (c :: rest)) with
  | mk value others =>
      obtain ⟨ending, after⟩ := others
      rw [taken] at step unclosed
      dsimp only at unclosed
      subst unclosed
      have member : .token (.fault .unclosedUrl) ∈ (scan c rest).1 := by simp [step]
      rw [leavesOpen_of_unclosed member rfl] at closed
      cases closed

theorem ne_nil (address : StartsAddress c rest) (closed : leavesOpen c rest = false) :
    addressOf (c :: rest) ≠ [] := by
  intro nothing
  refine address.ends closed ?_
  rw [nothing, takeUrl]

/-- An address that is not left open is read without a look at what follows. -/
theorem scan_append (address : StartsAddress c rest) (closed : leavesOpen c rest = false)
    {more : List Char} (addressMore : StartsAddress c (rest ++ more))
    (sameText : addressOf (c :: (rest ++ more)) = addressOf (c :: rest) ++ more) :
    scan c (rest ++ more) = ((scan c rest).1, (scan c rest).2 ++ more) := by
  have step := address.scan_eq
  have read := takeUrl_append (address.ends closed) more
  rw [addressMore.scan_eq, sameText, read, step]
  cases taken : takeUrl (addressOf (c :: rest)) with
  | mk value others =>
      obtain ⟨ending, after⟩ := others
      rw [taken] at step
      cases ending with
      | endOfText => exact absurd (by rw [taken]) (address.ends closed)
      | closed => rfl
      | broken =>
          have closes : closesBrokenUrl after = true := by
            cases closes : closesBrokenUrl after with
            | true => rfl
            | false => simp [leavesOpen, step, taken, closes, Lexeme.isUnclosed] at closed
          exact Prod.ext rfl (skipBrokenUrl_append closes _)

end StartsAddress

/-- A step that reads something broken and leaves nothing open ends before an edge. -/
theorem scan_faulty {edge c : Char} (isEdge : edge ∈ edges) {rest : List Char} {cause : Fault}
    (faulty : .token (.fault cause) ∈ (scan c rest).1) (closed : leavesOpen c rest = false)
    (more : List Char) :
    scan c (rest ++ edge :: more) = ((scan c rest).1, (scan c rest).2 ++ edge :: more) := by
  rcases quote_or_address faulty with isQuote | address
  · exact scan_quote_append isQuote closed _
  · obtain ⟨addressEdge, sameText⟩ := address.filled isEdge (address.ne_nil closed) more
    exact address.scan_append closed addressEdge sameText

/-- A step that reads something broken in a text, and leaves nothing open once a newline ends
the text, is settled by the newline. -/
theorem scan_faulty_newline {c : Char} {rest : List Char} {cause : Fault}
    (faulty : .token (.fault cause) ∈ (scan c rest).1)
    (closed : leavesOpen c (rest ++ ['\n']) = false) (more : List Char) :
    scan c (rest ++ '\n' :: more) =
      ((scan c (rest ++ ['\n'])).1, (scan c (rest ++ ['\n'])).2 ++ more) := by
  have isEdge : '\n' ∈ edges := by decide
  have whole : rest ++ '\n' :: more = rest ++ ['\n'] ++ more := by simp
  rcases quote_or_address faulty with isQuote | address
  · rw [whole]
    exact scan_quote_append isQuote closed more
  · by_cases filled : addressOf (c :: rest) = []
    · -- The address is still blank before the newline, and so left open.
      obtain ⟨inner, called, -⟩ := address.call
      have blank : inner.dropWhile isSpace = [] := by
        rw [addressOf, called] at filled
        exact filled
      have blankEdge : (inner ++ ['\n']).dropWhile isSpace = [] := by
        rw [List.dropWhile_append, blank]
        rfl
      have addressEdge : StartsAddress c (rest ++ ['\n']) :=
        address.edge isEdge called (by rw [isQuoted, isQuoted, blank, blankEdge])
      have nothing : addressOf (c :: (rest ++ ['\n'])) = [] := by
        have read := takeName_of_call isEdge called []
        rw [List.cons_append] at read
        rw [addressOf, read]
        exact blankEdge
      exact absurd nothing (addressEdge.ne_nil closed)
    · obtain ⟨addressEdge, sameText⟩ := address.filled isEdge filled []
      obtain ⟨addressMore, sameMore⟩ := address.filled isEdge filled more
      rw [whole] at addressMore sameMore ⊢
      refine addressEdge.scan_append closed addressMore ?_
      rw [sameMore, sameText]
      simp

end StyleSieve.Css
