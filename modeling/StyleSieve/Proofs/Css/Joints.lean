import StyleSieve.Proofs.Css.Locality

/-!
# Joints

A step of the scanner before an edge is the step on the text alone, and so is the reading of
a whole text, unless its end is left open: something in it is broken, it ends inside a
comment or after a backslash, or its last escape takes a blank.
-/

namespace StyleSieve.Css

/-! ## Steps -/

/-- The text of a lexeme. -/
def Lexeme.write : Lexeme → List Char
  | .token value => value.write
  | .opening opener => opener.write
  | .closer c => [c]

/-- A lexeme that is settled as one that ends with the replacement character. -/
def Lexeme.IsCut (lexeme : Lexeme) : Prop :=
  ∃ piece, lexeme.pieces = [piece] ∧ piece.write.getLast? = some replacement

/-- How a step of the scanner on a text goes on where an edge follows the text. -/
inductive Abuts (edge : Char) (text rest : List Char) (step stepEdge : Step) : Prop where
  /-- The step ends before the edge. -/
  | ends : stepEdge = (step.1, step.2 ++ edge :: rest) → Abuts edge text rest step stepEdge
  /-- Something in the text is broken. -/
  | faulty {cause : Fault} : .token (.fault cause) ∈ step.1 → Abuts edge text rest step stepEdge
  /-- The text ends inside a comment. -/
  | opened {inner : List Char} : text = '/' :: '*' :: inner → takeComment inner = (inner, []) →
      Abuts edge text rest step stepEdge
  /-- The text breaks off after the backslash of an escape. -/
  | cut {lexeme : Lexeme} : step = ([lexeme], []) → text.getLast? = some '\\' → lexeme.IsCut →
      Abuts edge text rest step stepEdge
  /-- The last escape takes the edge. -/
  | joined : isSpace edge = true → step.2 = [] → EndsInHex text →
      (∀ more, rest = '\x7b' :: more → stepEdge = (step.1, rest)) →
        Abuts edge text rest step stepEdge

/-! ### Texts of names -/

theorem writeNameChar_replacement : writeNameChar replacement = [replacement] := by
  decide

theorem writeIdentStart_replacement : writeIdentStart replacement = [replacement] := by
  decide

/-- A name that ends with the replacement character is written with it at the end. -/
theorem writeName_getLast? {name : List Char} (isLast : name.getLast? = some replacement) :
    (writeName name).getLast? = some replacement := by
  obtain ⟨front, rfl⟩ := List.getLast?_eq_some_iff.1 isLast
  rw [writeName, List.flatMap_append, List.flatMap_singleton, writeNameChar_replacement,
    List.getLast?_append]
  rfl

theorem getLast?_append_of {first second : List Char} {c : Char}
    (isLast : second.getLast? = some c) : (first ++ second).getLast? = some c := by
  rw [List.getLast?_append, isLast]
  rfl

theorem getLast?_cons_of {text : List Char} {c : Char} (isLast : text.getLast? = some c)
    (first : Char) : (first :: text).getLast? = some c := by
  rw [List.getLast?_cons, isLast]
  rfl

/-- The text of the first character of an identifier and of the others. -/
theorem writeIdentStart_getLast? {c : Char} {name : List Char}
    (isLast : (c :: name).getLast? = some replacement) :
    (writeIdentStart c ++ writeName name).getLast? = some replacement := by
  cases name with
  | nil =>
      rw [List.getLast?_singleton, Option.some.injEq] at isLast
      rw [isLast, writeIdentStart_replacement]
      rfl
  | cons d more =>
      rw [List.getLast?_cons_cons] at isLast
      exact getLast?_append_of (writeName_getLast? isLast)

theorem writeIdent_getLast? {name : List Char} (isLast : name.getLast? = some replacement) :
    (writeIdent name).getLast? = some replacement := by
  unfold writeIdent
  split
  · cases isLast
  · cases isLast
  · rename_i more
    cases more with
    | nil => cases isLast
    | cons c others =>
        rw [List.getLast?_cons_cons, List.getLast?_cons_cons] at isLast
        exact getLast?_cons_of (getLast?_cons_of (writeName_getLast? isLast) _) _
  · rename_i c more _
    rw [List.getLast?_cons_cons] at isLast
    exact getLast?_cons_of (writeIdentStart_getLast? isLast) _
  · exact writeIdentStart_getLast? isLast

theorem writeUnit_getLast? {unit : List Char} (isLast : unit.getLast? = some replacement) :
    (writeUnit unit).getLast? = some replacement := by
  unfold writeUnit
  split
  · split
    · rename_i isMark
      rw [List.getLast?_singleton, Option.some.injEq] at isLast
      rw [isLast] at isMark
      cases isMark
    · exact writeIdent_getLast? isLast
  · split
    · rw [List.getLast?_cons_cons] at isLast
      exact getLast?_append_of (writeName_getLast? isLast)
    · exact writeIdent_getLast? isLast
  · exact writeIdent_getLast? isLast

section

variable {edge : Char} (isEdge : edge ∈ edges) (text rest : List Char)

/-- A lexeme that ends with a name meets an edge like the name. -/
theorem NameEdge.abuts {make : List Char → Lexeme} {whole : List Char}
    (meets : NameEdge edge text rest) (suffix : text <:+ whole)
    (replaced : ∀ {name : List Char}, name.getLast? = some replacement → (make name).IsCut) :
    Abuts edge whole rest ([make (takeName text).1], (takeName text).2)
      ([make (takeName (text ++ edge :: rest)).1], (takeName (text ++ edge :: rest)).2) := by
  cases meets with
  | ends same => exact .ends (by rw [same])
  | cut all isLast isReplaced =>
      obtain ⟨before, rfl⟩ := suffix
      exact .cut (by rw [all]) (getLast?_append_of isLast) (replaced isReplaced)
  | joined isBlank all endsInHex same =>
      refine .joined isBlank all (endsInHex.of_suffix suffix) ?_
      rintro more rfl
      have stops : takeName ('\x7b' :: more) = ([], '\x7b' :: more) := takeName_of_endsName rfl
      rw [same, stops, List.append_nil]

/-- A text that is the backslash of an escape, or a dash before it, is a name that breaks
off. -/
theorem takeName_lone (alone : text = ['\\'] ∨ text = ['-', '\\']) :
    startsIdent text = true ∧ (takeName text).2 = [] ∧ text.getLast? = some '\\' ∧
      (takeName text).1.getLast? = some replacement := by
  have escape : takeName ['\\'] = ([replacement], []) := by
    rw [takeName_escape (by rfl)]
    simp [escaped, takeName]
  rcases alone with rfl | rfl
  · rw [escape]
    exact ⟨rfl, rfl, rfl, rfl⟩
  · rw [takeName_cons (by rfl), escape]
    exact ⟨rfl, rfl, rfl, rfl⟩

theorem scanIdent_ident {name after : List Char} (read : takeName text = (name, after))
    (noCall : after.head? ≠ some '(') : scanIdent text = ([.token (.ident name)], after) := by
  rw [scanIdent, read]
  split
  · rename_i opened
    rw [Prod.mk.injEq] at opened
    exact absurd (congrArg List.head? opened.2) noCall
  · rename_i shape
    cases shape
    rfl

/-- Whether what follows `(` is quoted. -/
def isQuoted (text : List Char) : Bool :=
  (text.dropWhile isSpace).head? == some '"' || (text.dropWhile isSpace).head? == some '\''

theorem scanIdent_call {name more : List Char} (read : takeName text = (name, '(' :: more))
    (noAddress : (lowerAscii name == "url".toList && !isQuoted more) = false) :
    scanIdent text = ([.opening (.call name)], more) := by
  rw [scanIdent, read]
  exact if_neg (by rw [← isQuoted, noAddress]; exact Bool.false_ne_true)

theorem scanIdent_address {name more : List Char} (read : takeName text = (name, '(' :: more))
    (isAddress : (lowerAscii name == "url".toList && !isQuoted more) = true) :
    scanIdent text =
      match takeUrl (more.dropWhile isSpace) with
      | (value, .closed, after) => ([.token (.url value true)], after)
      | (value, .endOfText, after) =>
        ([.token (.url value false), .token (.fault .unclosedUrl)], after)
      | (_, .broken, after) => ([.token (.fault .badUrl)], skipBrokenUrl after) := by
  rw [scanIdent, read]
  exact if_pos isAddress

include isEdge

/-- A call or an address, once its name is read. -/
theorem scanCall_edge {name more : List Char} (read : takeName text = (name, '(' :: more))
    (readEdge : takeName (text ++ edge :: rest) = (name, '(' :: (more ++ edge :: rest))) :
    Abuts edge text rest (scanIdent text) (scanIdent (text ++ edge :: rest)) := by
  cases inner : more.dropWhile isSpace with
  | nil =>
      cases isUrl : lowerAscii name == "url".toList with
      | false =>
          rw [scanIdent_call text read (by rw [isUrl]; rfl),
            scanIdent_call _ readEdge (by rw [isUrl]; rfl)]
          exact .ends rfl
      | true =>
          have unquoted : isQuoted more = false := by rw [isQuoted, inner]; rfl
          rw [scanIdent_address text read (by rw [isUrl, unquoted]; rfl), inner, takeUrl]
          exact .faulty (List.mem_cons_of_mem _ List.mem_cons_self)
  | cons d later =>
      have dropped : (more ++ edge :: rest).dropWhile isSpace = d :: later ++ edge :: rest := by
        rw [List.dropWhile_append, inner]
        rfl
      have sameQuote : isQuoted (more ++ edge :: rest) = isQuoted more := by
        rw [isQuoted, isQuoted, dropped, inner]
        rfl
      cases isAddress : lowerAscii name == "url".toList && !isQuoted more with
      | false =>
          rw [scanIdent_call text read isAddress,
            scanIdent_call _ readEdge (by rw [sameQuote]; exact isAddress)]
          exact .ends rfl
      | true =>
          rw [scanIdent_address text read isAddress,
            scanIdent_address _ readEdge (by rw [sameQuote]; exact isAddress), inner, dropped]
          have closes := takeUrl_edge isEdge (d :: later) rest
          cases taken : takeUrl (d :: later) with
          | mk value others =>
              obtain ⟨ending, after⟩ := others
              rw [taken] at closes
              cases ending with
              | closed => exact .ends (by rw [closes rfl])
              | broken => exact .faulty List.mem_cons_self
              | endOfText => exact .faulty (List.mem_cons_of_mem _ List.mem_cons_self)

theorem scanIdent_edge :
    Abuts edge text rest (scanIdent text) (scanIdent (text ++ edge :: rest)) := by
  obtain ⟨_, _, _, _, _, notSpecial⟩ := edge_spec isEdge
  have notRound : edge ≠ '(' := by simp_all
  have asIdent : (takeName text).2 = [] →
      scanIdent text = ([.token (.ident (takeName text).1)], (takeName text).2) := by
    intro all
    exact scanIdent_ident text rfl (by rw [all]; exact (Option.some_ne_none _).symm)
  cases takeName_edge isEdge text rest with
  | cut all isLast isReplaced =>
      refine .cut (by rw [asIdent all, all]) isLast ?_
      exact ⟨_, rfl, writeIdent_getLast? isReplaced⟩
  | joined isBlank all endsInHex same =>
      rw [asIdent all]
      refine .joined isBlank all endsInHex ?_
      rintro more rfl
      have stops : takeName ('\x7b' :: more) = ([], '\x7b' :: more) := takeName_of_endsName rfl
      rw [stops, List.append_nil] at same
      exact scanIdent_ident _ same (by simp)
  | ends same =>
      cases read : takeName text with
      | mk name after =>
          rw [read] at same
          by_cases isCall : ∃ more, after = '(' :: more
          · obtain ⟨more, rfl⟩ := isCall
            exact scanCall_edge isEdge text rest read same
          · have noCall : after.head? ≠ some '(' := by
              intro isHead
              obtain ⟨more, shape⟩ := List.head?_eq_some_iff.1 isHead
              exact isCall ⟨more, shape⟩
            have noCallEdge : (after ++ edge :: rest).head? ≠ some '(' := by
              cases after with
              | nil => simpa using notRound
              | cons d more => exact noCall
            rw [scanIdent_ident text read noCall, scanIdent_ident _ same noCallEdge]
            exact .ends rfl

omit isEdge in
/-- A lexeme that ends with a name and whose text breaks off. -/
theorem abuts_lone (make : List Char → Lexeme) {whole : List Char}
    (alone : text = ['\\'] ∨ text = ['-', '\\']) (suffix : text <:+ whole)
    (replaced : ∀ {name : List Char}, name.getLast? = some replacement → (make name).IsCut) (stepEdge : Step) :
    Abuts edge whole rest ([make (takeName text).1], (takeName text).2) stepEdge := by
  obtain ⟨_, all, isLast, isReplaced⟩ := takeName_lone text alone
  obtain ⟨before, rfl⟩ := suffix
  exact .cut (by rw [all]) (getLast?_append_of isLast) (replaced isReplaced)

theorem scanNumeric_edge (spelling : List Char) {whole : List Char} (suffix : text <:+ whole) :
    Abuts edge whole rest (scanNumeric spelling text)
      (scanNumeric spelling (text ++ edge :: rest)) := by
  have notPercent : edge ≠ '%' := by
    have notSpecial := (edge_spec isEdge).2.2.2.2.2
    simp_all
  have replaced : ∀ {unit : List Char}, unit.getLast? = some replacement →
      (Lexeme.token (.dimension spelling unit)).IsCut := by
    intro unit isLast
    refine ⟨.token (.dimension spelling (settledUnit unit)), rfl, ?_⟩
    rw [Lexeme.write, Token.write, writeUnit_settledUnit]
    exact getLast?_append_of (writeUnit_getLast? isLast)
  by_cases alone : text = ['\\'] ∨ text = ['-', '\\']
  · have starts := (takeName_lone text alone).1
    unfold scanNumeric
    rw [if_pos starts]
    exact abuts_lone text rest _ alone suffix replaced _
  · rw [not_or] at alone
    unfold scanNumeric
    rw [startsIdent_edge isEdge text rest alone.1 alone.2]
    split
    · exact (takeName_edge isEdge text rest).abuts text rest suffix replaced
    · refine .ends ?_
      cases text with
      | nil => simp [notPercent]
      | cons d more =>
          by_cases isPercent : d = '%'
          · subst isPercent
            rfl
          · simp [isPercent]

theorem scanString_edge (quote : Char) {whole : List Char} :
    Abuts edge whole rest (scanString quote text) (scanString quote (text ++ edge :: rest)) := by
  have closes := takeString_edge isEdge text rest quote
  rw [scanString, scanString]
  cases taken : takeString quote text with
  | mk value others =>
      obtain ⟨ending, after⟩ := others
      rw [taken] at closes
      cases ending with
      | closed => exact .ends (by rw [closes rfl])
      | brokenLine => exact .faulty List.mem_cons_self
      | endOfText => exact .faulty (List.mem_cons_of_mem _ List.mem_cons_self)

theorem scanAt_edge :
    Abuts edge ('@' :: text) rest (scanSymbol '@' text) (scanSymbol '@' (text ++ edge :: rest)) := by
  have replaced : ∀ {name : List Char}, name.getLast? = some replacement →
      (Lexeme.token (.atKeyword name)).IsCut :=
    fun isLast => ⟨_, rfl, getLast?_cons_of (writeIdent_getLast? isLast) _⟩
  by_cases alone : text = ['\\'] ∨ text = ['-', '\\']
  · rw [scanSymbol, if_pos (takeName_lone text alone).1]
    exact abuts_lone text rest _ alone (List.suffix_cons _ _) replaced _
  · rw [not_or] at alone
    rw [scanSymbol, scanSymbol, startsIdent_edge isEdge text rest alone.1 alone.2]
    split
    · exact (takeName_edge isEdge text rest).abuts text rest (List.suffix_cons _ _) replaced
    · exact .ends rfl

theorem scanHash_edge :
    Abuts edge ('#' :: text) rest (scanSymbol '#' text) (scanSymbol '#' (text ++ edge :: rest)) := by
  obtain ⟨notName, notStart, _, _, _, notSpecial⟩ := edge_spec isEdge
  have notDash : edge ≠ '-' := by simp_all
  have notBackslash : edge ≠ '\\' := by simp_all
  have replaced : ∀ isIdentifier {name : List Char}, name.getLast? = some replacement →
      (Lexeme.token (.hash name isIdentifier)).IsCut := by
    intro isIdentifier name isLast
    refine ⟨.token (.hash name isIdentifier), rfl, ?_⟩
    cases isIdentifier with
    | true => exact getLast?_cons_of (writeIdent_getLast? isLast) _
    | false => exact getLast?_cons_of (writeName_getLast? isLast) _
  by_cases alone : text = ['\\'] ∨ text = ['-', '\\']
  · have step : scanSymbol '#' text =
        ([.token (.hash (takeName text).1 true)], (takeName text).2) := by
      rcases alone with rfl | rfl <;> rfl
    rw [step]
    exact abuts_lone text rest _ alone (List.suffix_cons _ _) (replaced true) _
  · rw [not_or] at alone
    have starts := startsIdent_edge isEdge text rest alone.1 alone.2
    cases text with
    | nil =>
        refine .ends ?_
        rw [List.nil_append, scanSymbol, scanSymbol, notName,
          startsIdent_cons notDash notBackslash, notStart]
        · rfl
        all_goals simp
    | cons d more =>
        rw [List.cons_append] at starts
        rw [List.cons_append, scanSymbol, scanSymbol, starts]
        split
        · exact (takeName_edge isEdge (d :: more) rest).abuts (d :: more) rest
            (List.suffix_cons _ _) (replaced _)
        · exact .ends rfl

omit isEdge in
/-- The other characters stand alone whatever follows them. -/
theorem scanSymbol_other {c : Char}
    (other : c ∉ ['@', '#', '"', '\'', '/', '<', '|', '~', '^', '$', '*', '\x7b', '[', '(', '\x7d',
      ']', ')']) : scanSymbol c text = ([.token (.delim [c])], text) := by
  unfold scanSymbol
  split <;> first
    | rfl
    | exact absurd (by decide) other

/-- A slash starts a comment or stands alone. -/
theorem scanSlash_edge :
    Abuts edge ('/' :: text) rest (scanSymbol '/' text) (scanSymbol '/' (text ++ edge :: rest)) := by
  have notStar : edge ≠ '*' := by
    have notSpecial := (edge_spec isEdge).2.2.2.2.2
    simp_all
  have alone : ∀ more : List Char, more.head? ≠ some '*' →
      scanSymbol '/' more = ([.token (.delim ['/'])], more) := by
    intro more noStar
    exact scanSymbol_solitary (by decide) (by simpa [endsDelim] using noStar)
  cases text with
  | nil =>
      rw [alone [] (by simp), alone _ (by simpa using notStar)]
      exact .ends rfl
  | cons d more =>
      by_cases isStar : d = '*'
      · subst isStar
        rcases takeComment_edge isEdge more rest with same | opened
        · refine .ends ?_
          rw [List.cons_append, scanSymbol, scanSymbol, same]
        · exact .opened rfl opened
      · rw [alone (d :: more) (by simpa using isStar), alone _ (by simpa using isStar)]
        exact .ends rfl

/-- The first character of a delimiter of two or more characters. -/
theorem scanLong_edge {c : Char} (isFirst : c ∈ ['<', '|', '~', '^', '$', '*']) :
    Abuts edge (c :: text) rest (scanSymbol c text) (scanSymbol c (text ++ edge :: rest)) := by
  have notSpecial := (edge_spec isEdge).2.2.2.2.2
  have notBar : edge ≠ '|' := by simp_all
  have notEqual : edge ≠ '=' := by simp_all
  have notDash : edge ≠ '-' := by simp_all
  have notBang : edge ≠ '!' := by simp_all
  have solitary : isSolitary c = true := by
    have all : ∀ c ∈ ['<', '|', '~', '^', '$', '*'], isSolitary c = true :=
      List.all_eq_true.1 (by decide)
    exact all c isFirst
  have endsEdge : endsDelim c text = true → endsDelim c (text ++ edge :: rest) = true := by
    simp only [List.mem_cons, List.not_mem_nil, or_false] at isFirst
    rcases isFirst with rfl | rfl | rfl | rfl | rfl | rfl
    · rcases text with _ | ⟨d, _ | ⟨e, _ | ⟨f, more⟩⟩⟩
      · simp [endsDelim, notBang]
      · simp [endsDelim, notDash]
      · simp [endsDelim, notDash]
      · exact id
    all_goals
      cases text with
      | nil => simp [endsDelim, notBar, notEqual]
      | cons d more => exact id
  -- the delimiter ends before the edge, or is one that the text has in full
  cases ends : endsDelim c text with
  | true =>
      rw [scanSymbol_solitary solitary ends, scanSymbol_solitary solitary (endsEdge ends)]
      exact .ends rfl
  | false =>
      refine .ends ?_
      simp only [List.mem_cons, List.not_mem_nil, or_false] at isFirst
      rcases isFirst with rfl | rfl | rfl | rfl | rfl | rfl
      · rw [endsDelim, bne_eq_false_iff_eq] at ends
        rcases text with _ | ⟨d, _ | ⟨e, _ | ⟨f, more⟩⟩⟩
        · cases ends
        · cases ends
        · cases ends
        · cases ends
          rfl
      · cases text with
        | nil => cases ends
        | cons d more =>
            simp only [endsDelim, List.head?_cons, Bool.and_eq_false_iff,
              bne_eq_false_iff_eq, Option.some.injEq] at ends
            rcases ends with rfl | rfl <;> rfl
      all_goals
        cases text with
        | nil => cases ends
        | cons d more =>
            simp only [endsDelim, List.head?_cons, bne_eq_false_iff_eq, Option.some.injEq] at ends
            rw [ends]
            rfl

theorem scanSymbol_edge (c : Char) :
    Abuts edge (c :: text) rest (scanSymbol c text) (scanSymbol c (text ++ edge :: rest)) := by
  by_cases isLong : c ∈ ['<', '|', '~', '^', '$', '*']
  · exact scanLong_edge isEdge text rest isLong
  · by_cases isSpecial : c ∈ ['@', '#', '"', '\'', '/', '\x7b', '[', '(', '\x7d', ']', ')']
    · simp only [List.mem_cons, List.not_mem_nil, or_false] at isSpecial
      rcases isSpecial with rfl | rfl | rfl | rfl | rfl | rfl | rfl | rfl | rfl | rfl | rfl
      · exact scanAt_edge isEdge text rest
      · exact scanHash_edge isEdge text rest
      · exact scanString_edge isEdge text rest '"'
      · exact scanString_edge isEdge text rest '\''
      · exact scanSlash_edge isEdge text rest
      all_goals exact .ends rfl
    · have other : c ∉ ['@', '#', '"', '\'', '/', '<', '|', '~', '^', '$', '*', '\x7b', '[', '(',
          '\x7d', ']', ')'] := by
        simp only [List.mem_cons, List.not_mem_nil, or_false] at isLong isSpecial ⊢
        grind
      rw [scanSymbol_other text other, scanSymbol_other _ other]
      exact .ends rfl

theorem startsUnicodeRange_edge :
    startsUnicodeRange (text ++ edge :: rest) = startsUnicodeRange text := by
  obtain ⟨_, _, _, notHex, _, notSpecial⟩ := edge_spec isEdge
  have notPlus : edge ≠ '+' := by simp_all
  have notMark : (edge == '?') = false := by simp_all
  cases text with
  | nil => simp [startsUnicodeRange, notPlus]
  | cons c more =>
      by_cases isPlus : c = '+'
      · subst isPlus
        cases more with
        | nil => simp [startsUnicodeRange, notHex, notMark]
        | cons d later => rfl
      · simp [startsUnicodeRange, isPlus]

theorem take_arrow_edge :
    ((text ++ edge :: rest).take 2 == "->".toList) = (text.take 2 == "->".toList) := by
  have notSpecial := (edge_spec isEdge).2.2.2.2.2
  have notDash : edge ≠ '-' := by simp_all
  have notArrow : edge ≠ '>' := by simp_all
  match text with
  | [] => simp [notDash]
  | [d] => simp [notArrow]
  | d :: e :: more => simp

/-- A step of the scanner on a text that does not start with a blank. -/
theorem scan_edge {c : Char} (notSpace : isSpace c = false) :
    Abuts edge (c :: text) rest (scan c text) (scan c (text ++ edge :: rest)) := by
  -- a backslash at the end of the text is a name of its own, but escapes the edge
  by_cases alone : c :: text = ['\\'] ∨ c :: text = ['-', '\\']
  · have step : scan c text =
        ([.token (.ident (takeName (c :: text)).1)], (takeName (c :: text)).2) := by
      obtain ⟨starts, all, _, _⟩ := takeName_lone _ alone
      have ident : scanIdent (c :: text) =
          ([.token (.ident (takeName (c :: text)).1)], (takeName (c :: text)).2) :=
        scanIdent_ident _ rfl (by rw [all]; exact (Option.some_ne_none _).symm)
      rw [scan_startsIdent starts, ident]
      · rcases alone with same | same <;> cases same <;> simp
      · rcases alone with same | same <;> cases same <;> simp
    rw [step]
    exact abuts_lone (c :: text) rest (fun name => .token (.ident name)) alone List.suffix_rfl
      (fun isLast => ⟨_, rfl, writeIdent_getLast? isLast⟩) _
  · rw [not_or] at alone
    have starts := startsIdent_edge isEdge (c :: text) rest alone.1 alone.2
    have number := takeNumber?_edge isEdge (c :: text) rest
    rw [List.cons_append] at starts number
    rw [scan, scan, notSpace, startsUnicodeRange_edge isEdge, take_arrow_edge isEdge, starts,
      number]
    simp only [Bool.false_eq_true, if_false]
    split
    · rename_i isRange
      have filled : text ≠ [] := by
        rintro rfl
        simp [startsUnicodeRange] at isRange
      have dropped : (text ++ edge :: rest).drop 1 = text.drop 1 ++ edge :: rest :=
        List.drop_append_of_le_length (List.length_pos_iff.2 filled)
      rw [dropped, takeUnicodeRange_edge isEdge]
      exact .ends rfl
    · split
      · rename_i isArrow
        refine .ends ?_
        rw [List.drop_append_of_le_length]
        rw [Bool.and_eq_true] at isArrow
        have long : min 2 text.length = 2 := by
          have same := congrArg List.length (beq_iff_eq.1 isArrow.2)
          rwa [List.length_take] at same
        exact long ▸ Nat.min_le_right 2 text.length
      · split
        · exact scanIdent_edge isEdge (c :: text) rest
        · cases found : takeNumber? (c :: text) with
          | none => exact scanSymbol_edge isEdge text rest c
          | some read =>
              exact scanNumeric_edge isEdge read.2 rest read.1
                ((takeNumber?_suffix found).trans (List.suffix_cons _ _))

end

/-! ## Texts -/

/-- A text that ends inside a comment. -/
inductive EndsInComment : List Char → Prop where
  | opened {inner : List Char} : takeComment inner = (inner, []) →
      EndsInComment ('/' :: '*' :: inner)
  | later {c : Char} {rest : List Char} : EndsInComment (scan c rest).2 → EndsInComment (c :: rest)

theorem plain_nil : plain [] = [] := by
  rw [plain, lexemesFrom]
  rfl

theorem scan_blank {c : Char} (isBlank : isSpace c = true) (rest : List Char) :
    scan c rest = ([.token (.whitespace (c :: rest.takeWhile isSpace))], rest.dropWhile isSpace) := by
  rw [scan, if_pos isBlank]

/-- Blanks before a text do not change whether it ends inside a comment. -/
theorem endsInComment_dropWhile (text : List Char) :
    EndsInComment (text.dropWhile isSpace) ↔ EndsInComment text := by
  cases text with
  | nil => rfl
  | cons c rest =>
      cases isBlank : isSpace c with
      | false => rw [List.dropWhile_cons_of_neg (by simp [isBlank])]
      | true =>
          rw [List.dropWhile_cons_of_pos isBlank]
          constructor
          · intro ends
            refine .later ?_
            rw [scan_blank isBlank]
            exact ends
          · intro ends
            cases ends with
            | opened => cases isBlank
            | later ends =>
                rw [scan_blank isBlank] at ends
                exact ends

/-- How the reading of a text goes on where an edge follows the text. -/
inductive Joint (edge : Char) (text rest : List Char) : Prop where
  /-- The text is read as it is read alone. -/
  | ends : plain (text ++ edge :: rest) = plain text ++ plain (edge :: rest) →
      Joint edge text rest
  /-- Something in the text is broken. -/
  | faulty {cause : Fault} : (0, .token (.fault cause)) ∈ plain text → Joint edge text rest
  /-- The text ends inside a comment. -/
  | opened : EndsInComment text → Joint edge text rest
  /-- The text breaks off after the backslash of an escape. -/
  | cut {front : List (Nat × Lexeme)} {piece : Lexeme} : plain text = front ++ [(0, piece)] →
      text.getLast? = some '\\' → piece.write.getLast? = some replacement → Joint edge text rest
  /-- The last escape takes the edge. -/
  | joined : isSpace edge = true → EndsInHex text →
      (∀ more, rest = '\x7b' :: more → plain (text ++ edge :: rest) = plain text ++ plain rest) →
        Joint edge text rest

/-- What is read first does not change how the end of a text goes on. -/
theorem Joint.after {edge : Char} {text after rest : List Char} {first : List (Nat × Lexeme)}
    (read : plain text = first ++ plain after)
    (readEdge : plain (text ++ edge :: rest) = first ++ plain (after ++ edge :: rest))
    (suffix : after <:+ text) (comments : EndsInComment after → EndsInComment text)
    (joint : Joint edge after rest) : Joint edge text rest := by
  cases joint with
  | ends same => exact .ends (by rw [readEdge, same, read, List.append_assoc])
  | faulty member => exact .faulty (by rw [read]; exact List.mem_append_right first member)
  | opened ends => exact .opened (comments ends)
  | cut shape isLast isReplaced =>
      refine .cut (by rw [read, shape, ← List.append_assoc]) ?_ isReplaced
      obtain ⟨before, rfl⟩ := suffix
      exact getLast?_append_of isLast
  | joined isBlank endsInHex same =>
      refine .joined isBlank (endsInHex.of_suffix suffix) ?_
      intro more shape
      rw [readEdge, same more shape, read, List.append_assoc]

/-- A text is read before an edge as it is read alone, unless its end is left open. -/
theorem plain_edge {edge : Char} (isEdge : edge ∈ edges) (text rest : List Char) :
    Joint edge text rest := by
  -- on the length, since the next lexeme starts wherever a scan has ended
  induction length : text.length using Nat.strongRecOn generalizing text with
  | ind n ih =>
      subst length
      cases text with
      | nil =>
          refine .ends ?_
          rw [plain_nil]
          rfl
      | cons c more =>
          cases isBlank : isSpace c with
          | true =>
              have joint := ih more.length (Nat.lt_succ_self _) more rfl
              have first : ∀ after, plain (c :: after) = [blank c] ++ plain after :=
                plain_space isBlank
              refine joint.after (first more) (first _) (List.suffix_cons c more) ?_
              intro ends
              refine .later ?_
              rw [scan_blank isBlank]
              exact (endsInComment_dropWhile more).2 ends
          | false =>
              have suffix := (scan_suffix c more).trans (List.suffix_cons c more)
              have shorter : (scan c more).2.length < (c :: more).length :=
                Nat.lt_succ_of_le (scan_suffix c more).length_le
              have joint := ih _ shorter (scan c more).2 rfl
              cases scan_edge isEdge more rest isBlank with
              | ends same =>
                  refine joint.after (plain_cons c more) ?_ suffix .later
                  rw [List.cons_append, plain_cons, same]
              | @faulty cause member =>
                  have pieces : .token (.fault cause) ∈ (Lexeme.token (.fault cause)).pieces :=
                    List.mem_cons_self
                  have read := List.mem_flatMap.2 ⟨_, member, pieces⟩
                  have broken : (0, .token (.fault cause)) ∈ plain (c :: more) := by
                    rw [plain_cons]
                    exact List.mem_append_left _ (List.mem_map_of_mem read)
                  exact .faulty broken
              | opened shape opened =>
                  rw [shape]
                  exact .opened (.opened opened)
              | cut step isLast isCut =>
                  obtain ⟨piece, pieces, isReplaced⟩ := isCut
                  have alone : plain (c :: more) = [] ++ [(0, piece)] := by
                    rw [plain_cons, step]
                    simp [pieces, plain_nil]
                  exact .cut alone isLast isReplaced
              | joined isBlankEdge all endsInHex same =>
                  refine .joined isBlankEdge endsInHex ?_
                  intro others shape
                  rw [List.cons_append, plain_cons, same others shape, plain_cons c more, all,
                    plain_nil, List.append_nil]

end StyleSieve.Css
