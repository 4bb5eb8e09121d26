import StyleSieve.Proofs.Css.Tokens

/-!
# Scanning written tokens

Every token of the scanner that its text keeps is scanned back from the text, before
any text that does not go on with it.
-/

namespace StyleSieve.Css

/-! ## Strings and addresses -/

theorem scan_string (value rest : List Char) :
    scan '"' (value.flatMap writeStringChar ++ '"' :: rest) =
      ([.token (.string value true)], rest) := by
  rw [scan_symbol (by decide) (by decide) rfl (takeNumber?_none (by decide) (by decide)
    (by decide) _)]
  simp [scanSymbol, scanString, takeString_write]

/-- The text of an address starts neither with a blank nor with a quote. -/
theorem urlText_head (value rest : List Char) :
    ∃ c more, value.flatMap writeUrlChar ++ ')' :: rest = c :: more ∧ isSpace c = false ∧
      c ≠ '"' ∧ c ≠ '\'' := by
  have escape : isSpace '\\' = false ∧ '\\' ≠ '"' ∧ '\\' ≠ '\'' := by decide
  cases value with
  | nil => exact ⟨')', rest, rfl, by decide⟩
  | cons c more =>
      rw [List.flatMap_cons]
      unfold writeUrlChar
      split
      · exact ⟨'\\', _, rfl, escape⟩
      · rename_i plain
        simp only [Bool.or_eq_true, beq_iff_eq, not_or] at plain
        split
        · exact ⟨'\\', _, rfl, escape⟩
        · rename_i notTab
          cases isBreak : escapedBreak? c with
          | some text =>
              obtain ⟨digit, rfl, _, _⟩ := escapedBreak?_eq_some isBreak
              exact ⟨'\\', _, rfl, escape⟩
          | none =>
              refine ⟨c, _, rfl, ?_, plain.1.1.1.1.2, plain.1.1.1.1.1⟩
              simp_all [isSpace, not_break_of_escapedBreak? isBreak]

theorem scan_url {value : List Char} (noControl : ∀ c ∈ value, isControl c = false)
    (rest : List Char) :
    scan 'u' ("rl(".toList ++ (value.flatMap writeUrlChar ++ ')' :: rest)) =
      ([.token (.url value true)], rest) := by
  have read : takeName ("url(".toList ++ (value.flatMap writeUrlChar ++ ')' :: rest)) =
      ("url".toList, '(' :: (value.flatMap writeUrlChar ++ ')' :: rest)) :=
    takeName_writeName "url".toList rfl
  obtain ⟨c, more, text, notSpace, notDouble, notSingle⟩ := urlText_head value rest
  have inner : (c :: more).dropWhile isSpace = c :: more := by
    rw [List.dropWhile_cons, notSpace]
    rfl
  have url := takeUrl_write noControl rest
  rw [text] at read url ⊢
  rw [scan_startsIdent rfl (fun _ => rfl) (by simp)]
  have whole : scanIdent ("url(".toList ++ c :: more) = ([.token (.url value true)], rest) := by
    simp only [scanIdent, read, inner, url, List.head?_cons]
    simp [notDouble, notSingle, lowerAscii]
  exact whole

/-! ## Numbers -/

theorem scan_numberToken {spelling rest : List Char} (isNumber : IsNumber spelling)
    (ends : (Token.number spelling).endsBefore rest = true) :
    ∃ c more, spelling ++ rest = c :: more ∧
      scan c more = ([.token (.number spelling)], rest) := by
  rw [Token.endsBefore, Bool.and_eq_true, Bool.and_eq_true, Bool.not_eq_true',
    bne_iff_ne] at ends
  obtain ⟨⟨ends, noUnit⟩, noPercent⟩ := ends
  obtain ⟨c, more, text, scanned⟩ := scan_number isNumber ends
  refine ⟨c, more, text, ?_⟩
  rw [scanned]
  unfold scanNumeric
  rw [if_neg (by simp [noUnit])]
  split
  · exact absurd rfl noPercent
  · rfl

theorem scan_percentage {spelling : List Char} (isNumber : IsNumber spelling)
    (rest : List Char) :
    ∃ c more, spelling ++ '%' :: rest = c :: more ∧
      scan c more = ([.token (.percentage spelling)], rest) := by
  have ends : endsNumber spelling ('%' :: rest) = true := by
    simp [endsNumber, takeExponent, startsFraction]
  obtain ⟨c, more, text, scanned⟩ := scan_number isNumber ends
  refine ⟨c, more, text, ?_⟩
  rw [scanned]
  rfl

theorem scan_dimension {spelling unit rest : List Char} (isNumber : IsNumber spelling)
    (filled : unit ≠ []) (kept : (Token.dimension spelling unit).isKept = true)
    (ends : endsName rest = true) :
    ∃ c more, spelling ++ (writeUnit unit ++ rest) = c :: more ∧
      scan c more = ([.token (.dimension spelling (settledUnit unit))], rest) := by
  obtain ⟨c, more, text, scanned⟩ := scan_number isNumber (endsNumber_writeUnit filled kept rest)
  refine ⟨c, more, text, ?_⟩
  rw [scanned]
  unfold scanNumeric
  rw [if_pos (startsIdent_writeUnit filled rest), takeName_writeUnit ends]

theorem scan_unicodeRange {first last : Nat} (smallFirst : first < hexBound 6)
    (smallLast : last < hexBound 6) {rest : List Char}
    (ends : endsRange (first = last) rest = true) :
    scan 'U' ('+' :: (hexDigits first ++
      ((if first = last then [] else '-' :: hexDigits last) ++ rest))) =
        ([.token (.unicodeRange first last)], rest) := by
  have starts : startsUnicodeRange ('+' :: (hexDigits first ++
      ((if first = last then [] else '-' :: hexDigits last) ++ rest))) = true := by
    have areHex := (hexDigits_spec first).1
    cases digits : hexDigits first with
    | nil => exact absurd digits (hexDigits_ne_nil first)
    | cons digit more =>
        rw [digits] at areHex
        simp [startsUnicodeRange, areHex digit List.mem_cons_self]
  have read := takeUnicodeRange_write smallFirst smallLast ends
  simp [scan, isSpace, starts, read]

/-! ## Brackets -/

theorem scan_closer {closer : Char} (isCloser : closer ∈ ['\x7d', ']', ')']) (rest : List Char) :
    scan closer rest = ([.closer closer], rest) := by
  simp only [List.mem_cons, List.not_mem_nil, or_false] at isCloser
  rcases isCloser with rfl | rfl | rfl
  all_goals
    rw [scan_symbol (by decide) (by decide) rfl (takeNumber?_none (by decide) (by decide)
      (by decide) _)]
    rfl

/-- The text that opens a block. -/
def Opening.write : Opening → List Char
  | .round => ['(']
  | .square => ['[']
  | .curly => ['\x7b']
  | .call name => writeIdent name ++ ['(']

/-- The openings that the scanner gives. -/
def Opening.Sound : Opening → Prop
  | .call name => name ≠ [] ∧ hasNoNull name = true
  | _ => True

/-- The opening of a block is read back before the text of its content. -/
theorem scan_opening {opening : Opening} (sound : opening.Sound) {rest : List Char}
    (opens : opening.opensBefore rest = true) :
    ∃ c more, opening.write ++ rest = c :: more ∧ scan c more = ([.opening opening], rest) := by
  have symbol : ∀ c ∈ ['(', '[', '\x7b'], scan c rest = scanSymbol c rest := by
    intro c isOpener
    simp only [List.mem_cons, List.not_mem_nil, or_false] at isOpener
    rcases isOpener with rfl | rfl | rfl
    all_goals
      exact scan_symbol (by decide) (by decide) rfl (takeNumber?_none (by decide) (by decide)
        (by decide) _)
  cases opening with
  | round => exact ⟨'(', rest, rfl, symbol _ (by decide)⟩
  | square => exact ⟨'[', rest, rfl, symbol _ (by decide)⟩
  | curly => exact ⟨'\x7b', rest, rfl, symbol _ (by decide)⟩
  | call name =>
      obtain ⟨c, more, text, scanned⟩ := scan_call sound.1 opens
      refine ⟨c, more, ?_, scanned⟩
      rw [← text, Opening.write, List.append_assoc]
      rfl

/-! ## Tokens -/

/-- A token that its text keeps is read back before a text that cannot continue it. -/
theorem scan_write {token : Token} (sound : token.Sound) (kept : token.isKept = true)
    (solid : ∀ text, token ≠ .whitespace text) {rest : List Char}
    (ends : token.endsBefore rest = true) :
    ∃ c more, token.write ++ rest = c :: more ∧
      scan c more = ([.token token.settled], rest) := by
  cases token with
  | whitespace text => exact absurd rfl (solid text)
  | comment text => cases kept
  | ident name => exact scan_ident sound.1 ends
  | atKeyword name => exact ⟨'@', _, rfl, scan_atKeyword sound.1 ends⟩
  | hash name isIdentifier =>
      cases isIdentifier with
      | true => exact ⟨'#', _, rfl, scan_hash sound.1 ends⟩
      | false => exact ⟨'#', _, rfl, scan_hashName sound.1 ends⟩
  | string value closed =>
      rw [Token.isKept] at kept
      subst kept
      refine ⟨'"', value.flatMap writeStringChar ++ '"' :: rest, ?_, scan_string value rest⟩
      simp [Token.write]
  | url value closed =>
      rw [Token.isKept, Bool.and_eq_true, List.all_eq_true] at kept
      obtain ⟨rfl, whole⟩ := kept
      have noControl : ∀ c ∈ value, isControl c = false := by simpa using whole
      refine ⟨'u', "rl(".toList ++ (value.flatMap writeUrlChar ++ ')' :: rest), ?_,
        scan_url noControl rest⟩
      simp [Token.write]
  | number spelling => exact scan_numberToken sound ends
  | percentage spelling =>
      obtain ⟨c, more, text, scanned⟩ := scan_percentage sound rest
      refine ⟨c, more, ?_, scanned⟩
      rw [← text, Token.write, List.append_assoc]
      rfl
  | dimension spelling unit =>
      obtain ⟨c, more, text, scanned⟩ := scan_dimension sound.1 sound.2.1 kept ends
      refine ⟨c, more, ?_, scanned⟩
      rw [← text, Token.write, List.append_assoc]
  | unicodeRange first last =>
      refine ⟨'U', _, ?_, scan_unicodeRange sound.1 sound.2 ends⟩
      simp [Token.write]
  | delim text => exact scan_delim sound ends
  | fault cause => cases kept

end StyleSieve.Css
