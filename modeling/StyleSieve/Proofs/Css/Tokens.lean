import StyleSieve.Proofs.Css.Numbers
import StyleSieve.Proofs.Css.Strings

/-!
# Reading written tokens

A token that the scanner can give is read back from its text, provided that the
text keeps the whole token and that what follows does not go on with it.  This
module says which tokens those are and where each of them ends.
-/

namespace StyleSieve.Css

/-! ## Tokens of the scanner -/

/-- Whether a text holds no null character. -/
def hasNoNull (text : List Char) : Bool :=
  !text.contains '\x00'

/-- Whether a character is a token by itself where nothing continues it. -/
def isSolitary (c : Char) : Bool :=
  !isSpace c && !isNameStart c && !c.isDigit &&
    !(['\x7b', '\x7d', '[', ']', '(', ')', '"', '\'', '\x00', '\r', '\x0c'].contains c)

/-- The delimiters of more than one character. -/
def longDelims : List (List Char) :=
  ["<!--", "-->", "||", "~=", "|=", "^=", "$=", "*="].map String.toList

/-- Whether a text is a delimiter. -/
def isDelimText : List Char → Bool
  | [c] => isSolitary c
  | text => longDelims.contains text

/-- Whether a name with no condition on its first character starts no identifier. -/
def startsNoIdent : List Char → Bool
  | ['-'] => true
  | '-' :: c :: _ => c.isDigit
  | c :: _ => c.isDigit
  | [] => false

/-- The tokens that the scanner gives; a closer is a token only where no block is open. -/
def Token.Sound : Token → Prop
  | .whitespace text => text ≠ [] ∧ ∀ c ∈ text, isSpace c = true
  | .fault (.strayCloser _) => False
  | .comment _ | .fault _ => True
  | .ident name | .atKeyword name | .hash name true => name ≠ [] ∧ hasNoNull name = true
  | .hash name false => startsNoIdent name = true ∧ hasNoNull name = true
  | .string value _ | .url value _ => hasNoNull value = true
  | .number spelling | .percentage spelling => IsNumber spelling
  | .dimension spelling unit => IsNumber spelling ∧ unit ≠ [] ∧ hasNoNull unit = true
  | .unicodeRange first last => first < hexBound 6 ∧ last < hexBound 6
  | .delim text => isDelimText text = true

/-! ## Tokens that their text keeps -/

/-- Whether a unit starts like an exponent that the writer does not escape. -/
def isExponentUnit : List Char → Bool
  | c :: d :: _ => isExponentMark c && d.isDigit
  | _ => false

/-- Whether the text of a token keeps the token: nothing in it is left open or broken,
no address holds a control character, and no unit is read as an exponent. -/
def Token.isKept : Token → Bool
  | .comment _ => false
  | .string _ closed => closed
  | .url value closed => closed && value.all (!isControl ·)
  | .dimension spelling unit => spelling.any isExponentMark || !isExponentUnit unit
  | .fault _ => false
  | _ => true

/-- A unit as it is read back: an escaped exponent mark is in lower case. -/
def settledUnit : List Char → List Char
  | [c] => if isExponentMark c then ['e'] else [c]
  | c :: '-' :: rest => if isExponentMark c then 'e' :: '-' :: rest else c :: '-' :: rest
  | unit => unit

/-- A token as it is read back. -/
def Token.settled : Token → Token
  | .dimension spelling unit => .dimension spelling (settledUnit unit)
  | token => token

/-! ## Where tokens end -/

/-- Whether a text cannot continue the delimiter `c`. -/
def endsDelim (c : Char) (text : List Char) : Bool :=
  match c with
  | '\\' => !escapes text
  | '-' => !startsIdent ('-' :: text) && !startsUnsigned text
  | '+' => !startsUnsigned text
  | '.' => !startsUnsigned ('.' :: text)
  | '@' => !startsIdent text
  | '#' => !text.head?.any isNameChar && !startsIdent text
  | '<' => text.take 3 != "!--".toList
  | '/' => text.head? != some '*'
  | '|' => text.head? != some '|' && text.head? != some '='
  | '~' | '^' | '$' | '*' => text.head? != some '='
  | _ => true

/-- Whether a text cannot continue an identifier, apart from the opening of a call. -/
def endsIdent (name text : List Char) : Bool :=
  endsName text && !(lowerAscii name == ['u'] && startsUnicodeRange text) &&
    !(name == ['-', '-'] && text.head? == some '>')

/-- Whether a text cannot continue a token.  White space has no end: two runs of it are
one. -/
def Token.endsBefore : Token → List Char → Bool
  | .ident name, text => endsIdent name text && text.head? != some '('
  | .atKeyword _, text | .hash .., text | .dimension .., text => endsName text
  | .number spelling, text =>
      endsNumber spelling text && !startsIdent text && text.head? != some '%'
  | .unicodeRange first last, text => endsRange (first = last) text
  | .delim [c], text => endsDelim c text
  | _, _ => true

/-! ## Delimiters -/

theorem startsIdent_cons {c : Char} (notDash : c ≠ '-') (notBackslash : c ≠ '\\')
    (rest : List Char) : startsIdent (c :: rest) = isNameStart c := by
  rw [startsIdent]
  · exact fun _ isDash _ => notDash isDash
  · exact fun _ _ isDash _ => notDash isDash
  · exact notBackslash

theorem takeNumber?_none {c : Char} (notDigit : c.isDigit = false) (notPoint : c ≠ '.')
    (notSign : c ≠ '+' ∧ c ≠ '-') (rest : List Char) : takeNumber? (c :: rest) = none := by
  have sign : takeSign (c :: rest) = ([], c :: rest) := by simp [takeSign, notSign]
  have digits : takeDigits (c :: rest) = ([], c :: rest) := by simp [takeDigits, notDigit]
  rw [takeNumber?_eq, sign, takeMantissa?, digits]
  simp [notPoint]

/-- A character that starts neither a blank, a range, a name nor a number is scanned as
a symbol. -/
theorem scan_symbol {c : Char} {rest : List Char} (notSpace : isSpace c = false)
    (notRange : c ≠ 'U' ∧ c ≠ 'u') (noIdent : startsIdent (c :: rest) = false)
    (noNumber : takeNumber? (c :: rest) = none) : scan c rest = scanSymbol c rest := by
  have notCloser : ¬(c = '-' ∧ rest.take 2 = ['-', '>']) := by
    intro both
    obtain ⟨rfl, same⟩ := both
    cases rest with
    | nil => cases same
    | cons d more =>
        rw [List.take_succ_cons, List.cons.injEq] at same
        rw [same.1] at noIdent
        cases noIdent
  simp [scan, notSpace, notRange.1, notRange.2, notCloser, noIdent, noNumber]

theorem isSolitary_spec {c : Char} (solitary : isSolitary c = true) :
    isSpace c = false ∧ isNameStart c = false ∧ c.isDigit = false ∧
      c ∉ ['\x7b', '\x7d', '[', ']', '(', ')', '"', '\'', '\x00', '\r', '\x0c'] := by
  rw [isSolitary, Bool.and_eq_true, Bool.and_eq_true, Bool.and_eq_true, Bool.not_eq_true',
    Bool.not_eq_true', Bool.not_eq_true', Bool.not_eq_true', List.contains_eq_mem,
    decide_eq_false_iff_not] at solitary
  obtain ⟨⟨⟨notSpace, notStart⟩, notDigit⟩, notSpecial⟩ := solitary
  exact ⟨notSpace, notStart, notDigit, notSpecial⟩

theorem scanSymbol_solitary {c : Char} {rest : List Char} (solitary : isSolitary c = true)
    (ends : endsDelim c rest = true) :
    scanSymbol c rest = ([.token (.delim [c])], rest) := by
  obtain ⟨_, _, _, notSpecial⟩ := isSolitary_spec solitary
  unfold scanSymbol
  -- a bracket or quote, a delimiter of more than one character, or the character alone
  split <;> first
    | rfl
    | exact absurd (by decide) notSpecial
    | simp_all [endsDelim, delim]

theorem scan_solitary {c : Char} {rest : List Char} (solitary : isSolitary c = true)
    (ends : endsDelim c rest = true) : scan c rest = ([.token (.delim [c])], rest) := by
  obtain ⟨notSpace, notStart, notDigit, _⟩ := isSolitary_spec solitary
  have notRange : c ≠ 'U' ∧ c ≠ 'u' := by
    constructor
    · intro same
      rw [same] at notStart
      cases notStart
    · intro same
      rw [same] at notStart
      cases notStart
  have noIdent : startsIdent (c :: rest) = false := by
    by_cases isDash : c = '-'
    · subst isDash
      rw [endsDelim, Bool.and_eq_true, Bool.not_eq_true'] at ends
      exact ends.1
    · by_cases isBackslash : c = '\\'
      · subst isBackslash
        rw [endsDelim, Bool.not_eq_true'] at ends
        exact ends
      · rw [startsIdent_cons isDash isBackslash]
        exact notStart
  -- only after a sign or a point could a number start here
  have noNumber : takeNumber? (c :: rest) = none := by
    by_cases isDash : c = '-'
    · subst isDash
      rw [endsDelim, Bool.and_eq_true, Bool.not_eq_true', Bool.not_eq_true'] at ends
      rw [takeNumber?_eq, takeSign, takeMantissa?_none ends.2]
      rfl
    · by_cases isPlus : c = '+'
      · subst isPlus
        rw [endsDelim, Bool.not_eq_true'] at ends
        rw [takeNumber?_eq, takeSign, takeMantissa?_none ends]
        rfl
      · by_cases isPoint : c = '.'
        · subst isPoint
          rw [endsDelim, Bool.not_eq_true'] at ends
          have unsigned : takeSign ('.' :: rest) = ([], '.' :: rest) := rfl
          rw [takeNumber?_eq, unsigned, takeMantissa?_none ends]
          rfl
        · exact takeNumber?_none notDigit isPoint ⟨isPlus, isDash⟩ rest
  rw [scan_symbol notSpace notRange noIdent noNumber, scanSymbol_solitary solitary ends]

/-- A delimiter is read back before a text that cannot continue it. -/
theorem scan_delim {text rest : List Char} (isDelim : isDelimText text = true)
    (ends : (Token.delim text).endsBefore rest = true) :
    ∃ c more, text ++ rest = c :: more ∧ scan c more = ([.token (.delim text)], rest) := by
  match text with
  | [c] => exact ⟨c, rest, rfl, scan_solitary isDelim ends⟩
  | [] => cases isDelim
  | c :: d :: more =>
      refine ⟨c, d :: (more ++ rest), rfl, ?_⟩
      have long : c :: d :: more ∈ longDelims := by simpa [isDelimText] using isDelim
      simp only [longDelims, List.map_cons, List.map_nil, List.mem_cons, List.not_mem_nil,
        or_false] at long
      rcases long with same | same | same | same | same | same | same | same <;> cases same <;> rfl

/-! ## Names -/

/-- The text of a character of a name starts with the character or a backslash. -/
theorem writeNameChar_head (c : Char) :
    ∃ d more, writeNameChar c = d :: more ∧ ((isNameChar d = true ∧ d = c) ∨ d = '\\') := by
  unfold writeNameChar
  cases isName : isNameChar c with
  | true => exact ⟨c, [], rfl, .inl ⟨isName, rfl⟩⟩
  | false =>
      cases isBreak : escapedBreak? c with
      | some text =>
          obtain ⟨digit, rfl, _, _⟩ := escapedBreak?_eq_some isBreak
          exact ⟨'\\', _, rfl, .inr rfl⟩
      | none => exact ⟨'\\', [c], rfl, .inr rfl⟩

theorem writeName_head {c : Char} {name rest more : List Char}
    (notName : isNameChar c = false) (notBackslash : c ≠ '\\')
    (starts : writeName name ++ rest = c :: more) : name = [] ∧ rest = c :: more := by
  cases name with
  | nil => exact ⟨rfl, starts⟩
  | cons first others =>
      obtain ⟨d, later, text, ⟨isName, _⟩ | rfl⟩ := writeNameChar_head first
      · rw [writeName, List.flatMap_cons, text] at starts
        rw [(List.cons.inj starts).1, notName] at isName
        cases isName
      · rw [writeName, List.flatMap_cons, text] at starts
        exact absurd (List.cons.inj starts).1.symm notBackslash

theorem writeIdentStart_shape (c : Char) :
    (isNameStart c = true ∧ writeIdentStart c = [c]) ∨ ∃ more, writeIdentStart c = '\\' :: more := by
  unfold writeIdentStart
  cases isStart : isNameStart c with
  | true => exact .inl ⟨rfl, rfl⟩
  | false =>
      cases isDigit : c.isDigit with
      | true => exact .inr ⟨_, rfl⟩
      | false =>
          cases isBreak : escapedBreak? c with
          | some text =>
              obtain ⟨digit, rfl, _, _⟩ := escapedBreak?_eq_some isBreak
              exact .inr ⟨_, rfl⟩
          | none => exact .inr ⟨_, rfl⟩

/-- How the text of an identifier starts. -/
inductive IdentText : List Char → List Char → Prop where
  | start {c : Char} (isStart : isNameStart c = true) (more : List Char) :
      IdentText (c :: more) (c :: writeName more)
  | escape {name : List Char} (more : List Char) : IdentText name ('\\' :: more)
  | dashes (more : List Char) : IdentText ('-' :: '-' :: more) ('-' :: '-' :: writeName more)
  | dash {name : List Char} {c : Char} (notDash : c ≠ '-') (more : List Char) :
      IdentText name ('-' :: c :: more)

theorem writeIdent_shape {name : List Char} (filled : name ≠ []) :
    IdentText name (writeIdent name) := by
  unfold writeIdent
  split
  · exact absurd rfl filled
  · exact .escape _
  · exact .dashes _
  · rename_i c more _
    rcases writeIdentStart_shape c with ⟨isStart, text⟩ | ⟨later, text⟩
    · rw [text]
      refine .dash ?_ _
      intro same
      rw [same] at isStart
      cases isStart
    · rw [text]
      exact .dash (by decide) _
  · rename_i c more _ _ _
    rcases writeIdentStart_shape c with ⟨isStart, text⟩ | ⟨later, text⟩
    · rw [text]
      exact .start isStart more
    · rw [text]
      exact .escape _

theorem not_space_of_startsIdent {c : Char} {rest : List Char}
    (starts : startsIdent (c :: rest) = true) : isSpace c = false := by
  cases isBlank : isSpace c with
  | false => rfl
  | true =>
      simp only [isSpace, Bool.or_eq_true, beq_iff_eq] at isBlank
      rcases isBlank with (rfl | rfl) | rfl <;> cases starts

theorem scan_startsIdent {c : Char} {rest : List Char} (starts : startsIdent (c :: rest) = true)
    (noRange : c = 'U' ∨ c = 'u' → startsUnicodeRange rest = false)
    (noArrow : c = '-' → rest.take 2 ≠ ['-', '>']) : scan c rest = scanIdent (c :: rest) := by
  have notSpace := not_space_of_startsIdent starts
  have notRange : ¬((c = 'U' ∨ c = 'u') ∧ startsUnicodeRange rest = true) := by
    intro both
    rw [noRange both.1] at both
    cases both.2
  have notArrow : ¬(c = '-' ∧ rest.take 2 = ['-', '>']) := fun both => noArrow both.1 both.2
  simp [scan, notSpace, notRange, notArrow, starts]

theorem startsUnicodeRange_head {text : List Char} (range : startsUnicodeRange text = true) :
    ∃ more, text = '+' :: more := by
  unfold startsUnicodeRange at range
  split at range
  · exact ⟨_, rfl⟩
  · cases range

/-- The text of an identifier is scanned as one, whatever the identifier introduces. -/
theorem scan_writeIdent {name rest : List Char} (filled : name ≠ [])
    (ends : endsIdent name rest = true) :
    ∃ c more, writeIdent name ++ rest = c :: more ∧
      scan c more = scanIdent (writeIdent name ++ rest) := by
  rw [endsIdent, Bool.and_eq_true, Bool.and_eq_true, Bool.not_eq_true', Bool.not_eq_true',
    Bool.and_eq_false_imp, Bool.and_eq_false_imp, beq_iff_eq, beq_iff_eq,
    beq_eq_false_iff_ne] at ends
  obtain ⟨⟨_, noRange⟩, noArrow⟩ := ends
  have starts := startsIdent_writeIdent filled rest
  have shape := writeIdent_shape filled
  generalize writeIdent name = text at shape starts
  -- a name could only be mistaken for a Unicode range or for an arrow
  cases shape with
  | @start c isStart more =>
      refine ⟨c, _, rfl, scan_startsIdent starts ?_ ?_⟩
      · intro isU
        cases range : startsUnicodeRange (writeName more ++ rest) with
        | false => rfl
        | true =>
            obtain ⟨later, plus⟩ := startsUnicodeRange_head range
            obtain ⟨rfl, same⟩ := writeName_head (by decide) (by decide) plus
            have single : lowerAscii [c] = ['u'] := by rcases isU with rfl | rfl <;> rfl
            rw [writeName, List.flatMap_nil, List.nil_append, noRange single] at range
            cases range
      · intro isDash
        rw [isDash] at isStart
        cases isStart
  | escape more => exact ⟨'\\', _, rfl, scan_startsIdent starts (by simp) (by simp)⟩
  | dashes more =>
      refine ⟨'-', '-' :: (writeName more ++ rest), rfl,
        scan_startsIdent starts (by simp) ?_⟩
      intro _ same
      rw [List.take_succ_cons, List.cons.injEq] at same
      cases tail : writeName more ++ rest with
      | nil =>
          rw [tail] at same
          cases same.2
      | cons d later =>
          rw [tail, List.take_succ_cons, List.cons.injEq] at same
          rw [same.2.1] at tail
          obtain ⟨rfl, arrow⟩ := writeName_head (by decide) (by decide) tail
          exact noArrow rfl (congrArg List.head? arrow)
  | @dash name c notDash more =>
      refine ⟨'-', c :: (more ++ rest), rfl, scan_startsIdent starts (by simp) ?_⟩
      intro _ same
      rw [List.take_succ_cons, List.cons.injEq] at same
      exact notDash same.1

/-- An identifier is read back before a text that cannot continue it. -/
theorem scan_ident {name rest : List Char} (filled : name ≠ [])
    (ends : (Token.ident name).endsBefore rest = true) :
    ∃ c more, writeIdent name ++ rest = c :: more ∧ scan c more = ([.token (.ident name)], rest) := by
  rw [Token.endsBefore, Bool.and_eq_true, bne_iff_ne] at ends
  have closed : endsName rest = true := by
    have all := ends.1
    rw [endsIdent, Bool.and_eq_true, Bool.and_eq_true] at all
    exact all.1.1
  obtain ⟨c, more, text, scanned⟩ := scan_writeIdent filled ends.1
  refine ⟨c, more, text, ?_⟩
  rw [scanned, scanIdent, takeName_writeIdent name closed]
  split
  · rename_i opened
    rw [Prod.mk.injEq] at opened
    exact absurd (congrArg List.head? opened.2) ends.2
  · rename_i shape
    cases shape
    rfl

/-- Whether an opening is read back before a text: an unquoted address is no call. -/
def Opening.opensBefore : Opening → List Char → Bool
  | .call name, text =>
      lowerAscii name != "url".toList ||
        (text.dropWhile isSpace).head? == some '"' || (text.dropWhile isSpace).head? == some '\''
  | _, _ => true

/-- The name of a call is read back with the opening of the call. -/
theorem scan_call {name rest : List Char} (filled : name ≠ [])
    (opens : (Opening.call name).opensBefore rest = true) :
    ∃ c more, writeIdent name ++ '(' :: rest = c :: more ∧
      scan c more = ([.opening (.call name)], rest) := by
  have closed : endsName ('(' :: rest) = true := rfl
  have ends : endsIdent name ('(' :: rest) = true := by
    simp [endsIdent, closed, startsUnicodeRange]
  obtain ⟨c, more, text, scanned⟩ := scan_writeIdent filled ends
  refine ⟨c, more, text, ?_⟩
  have quoted : ¬(lowerAscii name = ['u', 'r', 'l'] ∧
      (rest.dropWhile isSpace).head? ≠ some '"' ∧
      (rest.dropWhile isSpace).head? ≠ some '\'') := by
    intro unquoted
    simp [Opening.opensBefore, unquoted] at opens
  rw [scanned]
  simp only [scanIdent, takeName_writeIdent name closed]
  simp [quoted]

theorem scan_atKeyword {name rest : List Char} (filled : name ≠ []) (ends : endsName rest = true) :
    scan '@' (writeIdent name ++ rest) = ([.token (.atKeyword name)], rest) := by
  rw [scan_symbol (by decide) (by decide) rfl (takeNumber?_none (by decide) (by decide)
    (by decide) _)]
  simp [scanSymbol, startsIdent_writeIdent filled rest, takeName_writeIdent name ends]

theorem scan_hash {name rest : List Char} (filled : name ≠ []) (ends : endsName rest = true) :
    scan '#' (writeIdent name ++ rest) = ([.token (.hash name true)], rest) := by
  have starts := startsIdent_writeIdent filled rest
  have read := takeName_writeIdent name ends
  rw [scan_symbol (by decide) (by decide) rfl (takeNumber?_none (by decide) (by decide)
    (by decide) _)]
  cases text : writeIdent name ++ rest with
  | nil =>
      rw [text] at starts
      cases starts
  | cons d more =>
      rw [text] at starts read
      simp [scanSymbol, starts, read]

theorem startsNoIdent_spec {name rest : List Char} (noIdent : startsNoIdent name = true)
    (ends : endsName rest = true) :
    ∃ d more, writeName name ++ rest = d :: more ∧ isNameChar d = true ∧
      startsIdent (d :: more) = false := by
  have digit : ∀ {c : Char}, c.isDigit = true → writeNameChar c = [c] := by
    intro c isDigit
    simp [writeNameChar, isNameChar, isDigit]
  unfold startsNoIdent at noIdent
  split at noIdent
  · refine ⟨'-', rest, rfl, by decide, ?_⟩
    cases rest with
    | nil => rfl
    | cons c later =>
        rw [endsName, Bool.and_eq_true, Bool.not_eq_true', Bool.not_eq_true'] at ends
        by_cases isBackslash : c = '\\'
        · subst isBackslash
          exact ends.2
        · have notName := ends.1
          rw [isNameChar, Bool.or_eq_false_iff, Bool.or_eq_false_iff] at notName
          rw [startsIdent, notName.1.1, notName.2]
          · rfl
          · exact isBackslash
  · rename_i c more
    refine ⟨'-', c :: (writeName more ++ rest), ?_, by decide,
      (startsIdent_digitOrPoint (.inl noIdent) _).2⟩
    rw [writeName, List.flatMap_cons, List.flatMap_cons, digit noIdent]
    rfl
  · rename_i c more _ _
    refine ⟨c, writeName more ++ rest, ?_, by simp [isNameChar, noIdent],
      (startsIdent_digitOrPoint (.inl noIdent) _).1⟩
    rw [writeName, List.flatMap_cons, digit noIdent]
    rfl
  · cases noIdent

theorem scan_hashName {name rest : List Char} (noIdent : startsNoIdent name = true)
    (ends : endsName rest = true) :
    scan '#' (writeName name ++ rest) = ([.token (.hash name false)], rest) := by
  have read := takeName_writeName name ends
  obtain ⟨d, more, text, isName, starts⟩ := startsNoIdent_spec noIdent ends
  rw [scan_symbol (by decide) (by decide) rfl (takeNumber?_none (by decide) (by decide)
    (by decide) _)]
  rw [text] at read ⊢
  simp [scanSymbol, isName, starts, read]

/-! ## Units -/

theorem escapedMark_name (rest : List Char) :
    takeName ("\\65 ".toList ++ rest) = ('e' :: (takeName rest).1, (takeName rest).2) :=
  takeName_hexEscape (by decide : ['6', '5'] ≠ []) (List.all_eq_true.1 (by decide)) (by decide) rest

theorem takeName_writeUnit {unit rest : List Char} (ends : endsName rest = true) :
    takeName (writeUnit unit ++ rest) = (settledUnit unit, rest) := by
  unfold writeUnit
  split
  · rename_i c
    rw [settledUnit, isExponentMark]
    split
    · rw [escapedMark_name, takeName_of_endsName ends]
    · rw [takeName_writeIdent _ ends]
  · rename_i c more
    rw [settledUnit, isExponentMark]
    split
    · rw [List.append_assoc, escapedMark_name, takeName_writeName _ ends]
    · rw [takeName_writeIdent _ ends]
  · rename_i noSingle noDash
    rw [takeName_writeIdent _ ends, settledUnit]
    · exact noSingle
    · exact noDash

theorem startsIdent_writeUnit {unit : List Char} (filled : unit ≠ []) (rest : List Char) :
    startsIdent (writeUnit unit ++ rest) = true := by
  unfold writeUnit
  split
  · split
    · rfl
    · exact startsIdent_writeIdent filled rest
  · split
    · rfl
    · exact startsIdent_writeIdent filled rest
  · exact startsIdent_writeIdent filled rest

theorem takeExponent_of_not_mark {c : Char} (notMark : isExponentMark c = false)
    (rest : List Char) : (takeExponent (c :: rest)).1 = [] := by
  rw [isExponentMark] at notMark
  simp [takeExponent, notMark]

theorem takeExponent_of_not_digit {d : Char} (notDigit : d.isDigit = false)
    (notSign : d ≠ '+' ∧ d ≠ '-') (c : Char) (rest : List Char) :
    (takeExponent (c :: d :: rest)).1 = [] := by
  have sign : takeSign (d :: rest) = ([], d :: rest) := by simp [takeSign, notSign]
  have digits : takeDigits (d :: rest) = ([], d :: rest) := by simp [takeDigits, notDigit]
  rw [takeExponent, sign]
  simp [digits]

/-- Whether a text goes on with neither a digit, a fraction nor an exponent. -/
def StartsUnit (text : List Char) (noExponent : Prop) : Prop :=
  ∃ c more, text = c :: more ∧ c.isDigit = false ∧ c ≠ '.' ∧
    (noExponent → (takeExponent (c :: more)).1 = [])

theorem startsUnit_of_not_mark {c : Char} (notDigit : c.isDigit = false) (notPoint : c ≠ '.')
    (notMark : isExponentMark c = false) (more : List Char) (noExponent : Prop) :
    StartsUnit (c :: more) noExponent :=
  ⟨c, more, rfl, notDigit, notPoint, fun _ => takeExponent_of_not_mark notMark more⟩

/-- An identifier that is not just an exponent mark or one before a dash. -/
theorem startsUnit_writeIdent {unit : List Char} (filled : unit ≠ [])
    (long : ∀ c more, unit = c :: more → isExponentMark c = true →
      ∃ d later, more = d :: later ∧ d ≠ '-') (rest : List Char) :
    StartsUnit (writeIdent unit ++ rest) (isExponentUnit unit = false) := by
  have shape := writeIdent_shape filled
  generalize writeIdent unit = text at shape
  cases shape with
  | @start c isStart more =>
      have notDigit : c.isDigit = false := by
        cases isDigit : c.isDigit with
        | false => rfl
        | true =>
            rw [isNameStart_digit isDigit] at isStart
            cases isStart
      have notPoint : c ≠ '.' := by
        intro same
        rw [same] at isStart
        cases isStart
      cases mark : isExponentMark c with
      | false => exact startsUnit_of_not_mark notDigit notPoint mark _ _
      | true =>
          obtain ⟨d, later, rfl, notDash⟩ := long c more rfl mark
          obtain ⟨e, others, text, head⟩ := writeNameChar_head d
          refine ⟨c, _, rfl, notDigit, notPoint, fun noExponent => ?_⟩
          rw [isExponentUnit, mark, Bool.true_and] at noExponent
          rw [writeName, List.flatMap_cons, text]
          rcases head with ⟨isName, rfl⟩ | rfl
          · refine takeExponent_of_not_digit noExponent ⟨?_, notDash⟩ c _
            intro same
            rw [same] at isName
            cases isName
          · exact takeExponent_of_not_digit rfl (by decide) c _
  | escape more => exact startsUnit_of_not_mark rfl (by decide) rfl _ _
  | dashes more => exact startsUnit_of_not_mark rfl (by decide) rfl _ _
  | dash _ more => exact startsUnit_of_not_mark rfl (by decide) rfl _ _

theorem startsUnit_writeUnit {unit : List Char} (filled : unit ≠ []) (rest : List Char) :
    StartsUnit (writeUnit unit ++ rest) (isExponentUnit unit = false) := by
  unfold writeUnit
  split
  · rename_i c
    split
    · exact startsUnit_of_not_mark rfl (by decide) rfl _ _
    · rename_i notMark
      refine startsUnit_writeIdent filled ?_ rest
      intro d more same mark
      cases same
      exact absurd mark notMark
  · rename_i c others
    split
    · exact startsUnit_of_not_mark rfl (by decide) rfl _ _
    · rename_i notMark
      refine startsUnit_writeIdent filled ?_ rest
      intro d more same mark
      cases same
      exact absurd mark notMark
  · rename_i noSingle noDash
    refine startsUnit_writeIdent filled ?_ rest
    intro c more same mark
    cases more with
    | nil => exact absurd same (noSingle c)
    | cons d later =>
        refine ⟨d, later, rfl, ?_⟩
        intro isDash
        rw [isDash] at same
        exact noDash c later same

/-- A unit does not continue the number before it unless it reads as an exponent. -/
theorem endsNumber_writeUnit {spelling unit : List Char} (filled : unit ≠ [])
    (kept : (Token.dimension spelling unit).isKept = true) (rest : List Char) :
    endsNumber spelling (writeUnit unit ++ rest) = true := by
  obtain ⟨c, more, text, notDigit, notPoint, noExponent⟩ := startsUnit_writeUnit filled rest
  have plain : startsFraction (c :: more) = false := by
    unfold startsFraction
    split
    · rename_i same
      exact absurd (List.cons.inj same).1 notPoint
    · rfl
  rw [Token.isKept, Bool.or_eq_true, Bool.not_eq_true'] at kept
  rw [text, endsNumber]
  rcases kept with marked | noMark
  · simp [notDigit, marked]
  · simp [notDigit, noExponent noMark, plain]

end StyleSieve.Css
