import StyleSieve.Proofs.Css.Writing

/-!
# Texts of settled components

Settling components changes neither their text nor whether they are sound, and the text of
sound components has its newlines normalized.
-/

namespace StyleSieve.Css

open Component

/-! ## Tokens -/

theorem writeUnit_settledUnit (unit : List Char) : writeUnit (settledUnit unit) = writeUnit unit := by
  match unit with
  | [] => rfl
  | [c] =>
      cases mark : isExponentMark c with
      | false => simp [settledUnit, mark]
      | true =>
          rw [isExponentMark] at mark
          simp [settledUnit, isExponentMark, writeUnit, mark]
  | c :: d :: rest =>
      by_cases isDash : d = '-'
      · subst isDash
        cases mark : isExponentMark c with
        | false => simp [settledUnit, mark]
        | true =>
            rw [isExponentMark] at mark
            simp [settledUnit, isExponentMark, writeUnit, mark]
      · rw [settledUnit]
        · exact fun _ shape => by cases shape
        · exact fun _ _ shape => isDash (List.cons.inj (List.cons.inj shape).2).1

theorem Token.write_settled (token : Token) : token.settled.write = token.write := by
  cases token with
  | dimension spelling unit => rw [settled, write, write, writeUnit_settledUnit]
  | _ => rfl

/-- A token that is neither white space nor a comment is settled as one token. -/
theorem settled_token {token : Token} (solid : ∀ text, token ≠ .whitespace text)
    (noComment : ∀ text, token ≠ .comment text) (offset : Nat) :
    (Component.token offset token).settled = [.token 0 token.settled] := by
  cases token with
  | whitespace text => exact absurd rfl (solid text)
  | comment text => exact absurd rfl (noComment text)
  | _ => rfl

theorem separator_settled (before : Kind) {token : Token}
    (solid : ∀ text, token ≠ .whitespace text) (offset : Nat) :
    separator before (.token 0 token.settled) = separator before (.token offset token) := by
  cases token with
  | whitespace text => exact absurd rfl (solid text)
  | _ => rfl

theorem kind_settled (token : Token) (offset : Nat) :
    (Component.token 0 token.settled).kind = (Component.token offset token).kind := by
  cases token <;> rfl

/-! ## Ends of calls -/

theorem lastEndsInString_append (first : List Component) {last : List Component}
    (filled : last ≠ []) :
    endsInString.lastEndsInString (first ++ last) = endsInString.lastEndsInString last := by
  induction first with
  | nil => rfl
  | cons component rest ih =>
      rw [List.cons_append, ← ih]
      cases more : rest ++ last with
      | nil => exact absurd (List.append_eq_nil_iff.1 more).2 filled
      | cons next later => rfl

theorem lastEndsInString_blanks (text : List Char) :
    endsInString.lastEndsInString (text.map fun c => .token 0 (.whitespace [c])) = false := by
  induction text with
  | nil => rfl
  | cons c more ih =>
      cases more with
      | nil => rfl
      | cons d later => exact ih

theorem settled_ne_nil {component : Component} (sound : component.Sound) :
    component.settled ≠ [] := by
  cases component with
  | block offset opening content => exact List.cons_ne_nil _ _
  | token offset value =>
      cases value with
      | comment text => cases sound
      | whitespace text =>
          rw [Component.settled, Token.pieces, List.map_map, Ne, List.map_eq_nil_iff]
          exact sound.1
      | _ => exact List.cons_ne_nil _ _

mutual

theorem endsInString_settled (component : Component) (sound : component.Sound) :
    endsInString.lastEndsInString component.settled = component.endsInString := by
  match component with
  | .token offset value =>
      cases value with
      | comment text => cases sound
      | whitespace text =>
          rw [Component.settled, Token.pieces, List.map_map]
          exact lastEndsInString_blanks text
      | fault cause => cases cause <;> rfl
      | _ => rfl
  | .block offset opening content =>
      cases opening with
      | call name => exact lastEndsInString_settledAll content sound.2.2
      | _ => rfl

theorem lastEndsInString_settledAll (components : List Component) (sound : SoundAll components) :
    endsInString.lastEndsInString (settledAll components) =
      endsInString.lastEndsInString components := by
  match components with
  | [] => rfl
  | [last] => 
      rw [settledAll, settledAll, List.append_nil]
      exact endsInString_settled last sound.1
  | component :: next :: rest =>
      have filled : settledAll (next :: rest) ≠ [] := by
        rw [settledAll]
        exact fun empty => settled_ne_nil sound.2.1 (List.append_eq_nil_iff.1 empty).1
      rw [settledAll, lastEndsInString_append _ filled]
      exact lastEndsInString_settledAll (next :: rest) sound.2

end

/-! ## Texts -/

theorem separator_whitespace (next : Component) : separator .whitespace next = [] :=
  rfl

theorem writeFrom_blanks (text : List Char) (rest : List Component) :
    writeFrom .whitespace ((text.map fun c => .token 0 (.whitespace [c])) ++ rest) =
      text ++ writeFrom .whitespace rest := by
  induction text with
  | nil => rfl
  | cons c more ih =>
      rw [List.map_cons, List.cons_append, writeFrom_cons, separator_whitespace]
      exact congrArg (c :: ·) ih

theorem separator_blank (before : Kind) (c : Char) (more : List Char) (offset : Nat) :
    separator before (.token 0 (.whitespace [c])) =
      separator before (.token offset (.whitespace (c :: more))) := by
  have newline : (Component.token 0 (.whitespace [c])).startsWithNewline =
      (Component.token offset (.whitespace (c :: more))).startsWithNewline := by
    by_cases isNewline : c = '\n'
    · subst isNewline
      rfl
    · simp [Component.startsWithNewline, isNewline]
  rw [separator, separator, newline]
  rfl

mutual

/-- A settled component is written like the component. -/
theorem writeFrom_settled (component : Component) (sound : component.Sound) (before : Kind)
    (rest : List Component) :
    writeFrom before (component.settled ++ rest) =
      separator before component ++ (component.write ++ writeFrom component.kind rest) := by
  match component with
  | .token offset value =>
      by_cases isBlank : ∃ text, value = .whitespace text
      · obtain ⟨text, rfl⟩ := isBlank
        cases text with
        | nil => exact absurd rfl sound.1
        | cons c more =>
            have tail := writeFrom_blanks more rest
            rw [Component.settled, Token.pieces, List.map_map, List.map_cons, List.cons_append,
              writeFrom_cons]
            rw [← separator_blank before c more offset]
            exact congrArg (separator before _ ++ c :: ·) tail
      · have solid : ∀ text, value ≠ .whitespace text := fun text same => isBlank ⟨text, same⟩
        have noComment : ∀ text, value ≠ .comment text := by
          intro text same
          rw [same] at sound
          cases sound
        rw [settled_token solid noComment, List.singleton_append, writeFrom_cons,
          separator_settled before solid offset, kind_settled value offset, Component.write,
          Component.write, Token.write_settled]
  | .block offset opening content =>
      have inside := writeFrom_settledAll content sound.2.2 .other
      have ends := endsInString_settled (.block offset opening content) sound
      have same : (Component.block 0 opening (settledAll content)).write =
          (Component.block offset opening content).write := by
        cases opening with
        | call name =>
            rw [Component.write, Component.write, inside]
            exact congrArg
              (fun ends => writeIdent name ++ '(' :: (writeFrom .other content ++
                if ends then [] else [')'])) ends
        | _ => rw [Component.write, Component.write, inside]
      rw [Component.settled, List.singleton_append, writeFrom_cons, same]
      cases opening <;> rfl

/-- Settled components are written like the components. -/
theorem writeFrom_settledAll (components : List Component) (sound : SoundAll components)
    (before : Kind) : writeFrom before (settledAll components) = writeFrom before components := by
  match components with
  | [] => rfl
  | component :: rest =>
      rw [settledAll, writeFrom_settled component sound.1, writeFrom_cons,
        writeFrom_settledAll rest sound.2]

end

/-! ## Clean texts -/

theorem isClean_spec {c : Char} (notNull : c ≠ '\x00') (notReturn : c ≠ '\r')
    (notFeed : c ≠ '\x0c') : isClean c = true := by
  simp [isClean, notNull, notReturn, notFeed]

theorem isClean_of {p : Char → Bool} {c : Char} (holds : p c = true) (notNull : p '\x00' = false)
    (notReturn : p '\r' = false) (notFeed : p '\x0c' = false) : isClean c = true := by
  refine isClean_spec ?_ ?_ ?_
  · intro same
    rw [same, notNull] at holds
    cases holds
  · intro same
    rw [same, notReturn] at holds
    cases holds
  · intro same
    rw [same, notFeed] at holds
    cases holds

theorem clean_of_all {text : List Char} (all : text.all isClean = true) : Clean text :=
  List.all_eq_true.1 all

theorem clean_cons {c : Char} {text : List Char} (isClean : isClean c = true)
    (clean : Clean text) : Clean (c :: text) :=
  List.forall_mem_cons.2 ⟨isClean, clean⟩

theorem clean_flatMap {write : Char → List Char} {text : List Char}
    (clean : ∀ c ∈ text, Clean (write c)) : Clean (text.flatMap write) := by
  intro d member
  obtain ⟨c, inText, inWritten⟩ := List.mem_flatMap.1 member
  exact clean c inText d inWritten

theorem ne_null_of_hasNoNull {text : List Char} (noNull : hasNoNull text = true) :
    ∀ c ∈ text, c ≠ '\x00' := by
  intro c member same
  rw [hasNoNull, Bool.not_eq_true', List.contains_eq_mem, decide_eq_false_iff_not] at noNull
  exact noNull (same ▸ member)

/-- A character is escaped by its code, or it is clean unless it is a null character. -/
theorem clean_escapedBreak? {c : Char} (notNull : c ≠ '\x00') {text : List Char}
    (plain : isClean c = true → Clean text) : Clean ((escapedBreak? c).getD text) := by
  unfold escapedBreak?
  split
  · exact clean_of_all rfl
  · split
    · exact clean_of_all rfl
    · split
      · exact clean_of_all rfl
      · rename_i notNewline notReturn notFeed
        exact plain (isClean_spec notNull (by simpa using notReturn) (by simpa using notFeed))

theorem clean_singleton {c : Char} (isClean : isClean c = true) : Clean [c] :=
  List.forall_mem_singleton.2 isClean

theorem clean_escape {c : Char} (isClean : isClean c = true) : Clean ['\\', c] :=
  clean_cons (by decide) (clean_singleton isClean)

theorem clean_writeNameChar {c : Char} (notNull : c ≠ '\x00') : Clean (writeNameChar c) := by
  unfold writeNameChar
  split
  · rename_i isName
    exact clean_singleton (isClean_of isName (by decide) (by decide) (by decide))
  · exact clean_escapedBreak? notNull clean_escape

theorem clean_hexDigits (value : Nat) : Clean (hexDigits value) := by
  intro c member
  exact isClean_of ((hexDigits_spec value).1 c member) (by decide) (by decide) (by decide)

theorem clean_writeIdentStart {c : Char} (notNull : c ≠ '\x00') : Clean (writeIdentStart c) := by
  unfold writeIdentStart
  split
  · rename_i isStart
    exact clean_singleton (isClean_of isStart (by decide) (by decide) (by decide))
  · split
    · exact clean_cons (by decide) ((clean_hexDigits _).append (clean_of_all rfl))
    · exact clean_escapedBreak? notNull clean_escape

theorem clean_writeName {name : List Char} (noNull : ∀ c ∈ name, c ≠ '\x00') :
    Clean (writeName name) :=
  clean_flatMap fun c member => clean_writeNameChar (noNull c member)

theorem clean_writeIdent {name : List Char} (noNull : ∀ c ∈ name, c ≠ '\x00') :
    Clean (writeIdent name) := by
  unfold writeIdent
  split
  · exact clean_of_all rfl
  · exact clean_of_all rfl
  · rename_i more
    have noNullMore : ∀ c ∈ more, c ≠ '\x00' := fun c member =>
      noNull c (List.mem_cons_of_mem _ (List.mem_cons_of_mem _ member))
    exact clean_cons (by decide) (clean_cons (by decide) (clean_writeName noNullMore))
  · rename_i c more _
    have noNullMore : ∀ d ∈ more, d ≠ '\x00' := fun d member =>
      noNull d (List.mem_cons_of_mem _ (List.mem_cons_of_mem _ member))
    have notNull := noNull c (List.mem_cons_of_mem _ List.mem_cons_self)
    exact clean_cons (by decide) ((clean_writeIdentStart notNull).append
      (clean_writeName noNullMore))
  · rename_i c more _ _ _
    have noNullMore : ∀ d ∈ more, d ≠ '\x00' := fun d member =>
      noNull d (List.mem_cons_of_mem _ member)
    exact (clean_writeIdentStart (noNull c List.mem_cons_self)).append (clean_writeName noNullMore)

theorem clean_writeUnit {unit : List Char} (noNull : ∀ c ∈ unit, c ≠ '\x00') :
    Clean (writeUnit unit) := by
  unfold writeUnit
  split
  · split
    · exact clean_of_all rfl
    · exact clean_writeIdent noNull
  · split
    · rename_i c more _
      have noNullMore : ∀ d ∈ '-' :: more, d ≠ '\x00' := fun d member =>
        noNull d (List.mem_cons_of_mem _ member)
      exact (clean_of_all rfl).append (clean_writeName noNullMore)
    · exact clean_writeIdent noNull
  · exact clean_writeIdent noNull

theorem clean_writeStringChar {c : Char} (notNull : c ≠ '\x00') : Clean (writeStringChar c) := by
  unfold writeStringChar
  split
  · rename_i special
    exact clean_escape (isClean_of (p := fun c => c == '"' || c == '\\') special rfl rfl rfl)
  · exact clean_escapedBreak? notNull clean_singleton

theorem clean_writeUrlChar {c : Char} (notNull : c ≠ '\x00') : Clean (writeUrlChar c) := by
  unfold writeUrlChar
  split
  · rename_i special
    have isClean : isClean c = true := by
      simp only [Bool.or_eq_true, beq_iff_eq] at special
      rcases special with ((((rfl | rfl) | rfl) | rfl) | rfl) | rfl <;> decide
    exact clean_escape isClean
  · split
    · exact clean_of_all rfl
    · exact clean_escapedBreak? notNull clean_singleton

theorem clean_digits {digits : List Char} (areDigits : ∀ c ∈ digits, c.isDigit = true) :
    Clean digits :=
  fun c member => isClean_of (areDigits c member) rfl rfl rfl

theorem IsSign.clean {sign : List Char} (isSign : IsSign sign) : Clean sign := by
  cases isSign <;> exact clean_of_all rfl

theorem IsMantissa.clean {mantissa : List Char} (isMantissa : IsMantissa mantissa) :
    Clean mantissa := by
  cases isMantissa with
  | whole areDigits => exact clean_digits areDigits.2
  | fraction areWhole areDigits =>
      exact (clean_digits areWhole).append (clean_cons (by decide) (clean_digits areDigits.2))

theorem IsExponent.clean {exponent : List Char} (isExponent : IsExponent exponent) :
    Clean exponent := by
  cases isExponent with
  | none => exact clean_of_all rfl
  | some isMark isSign areDigits =>
      refine clean_cons ?_ (isSign.clean.append (clean_digits areDigits.2))
      rcases isMark with rfl | rfl <;> decide

theorem IsNumber.clean {spelling : List Char} (isNumber : IsNumber spelling) :
    Clean spelling := by
  cases isNumber with
  | spelled isSign isMantissa isExponent =>
      exact isSign.clean.append (isMantissa.clean.append isExponent.clean)

theorem clean_delim {text : List Char} (isDelim : isDelimText text = true) : Clean text := by
  match text with
  | [c] => exact clean_singleton (isClean_of (p := isSolitary) isDelim rfl rfl rfl)
  | [] => cases isDelim
  | c :: d :: more =>
      have long : c :: d :: more ∈ longDelims := by simpa [isDelimText] using isDelim
      have all : ∀ text ∈ longDelims, text.all isClean = true := by decide
      exact clean_of_all (all _ long)

/-- The text of a token of the scanner is clean. -/
theorem Token.clean_write {token : Token} (sound : token.Sound)
    (noComment : ∀ text, token ≠ .comment text) : Clean token.write := by
  cases token with
  | comment text => exact absurd rfl (noComment text)
  | whitespace text =>
      exact fun c member => isClean_of (sound.2 c member) (by decide) (by decide) (by decide)
  | ident name => exact clean_writeIdent (ne_null_of_hasNoNull sound.2)
  | atKeyword name => exact clean_cons (by decide) (clean_writeIdent (ne_null_of_hasNoNull sound.2))
  | hash name isIdentifier =>
      cases isIdentifier with
      | true => exact clean_cons (by decide) (clean_writeIdent (ne_null_of_hasNoNull sound.2))
      | false => exact clean_cons (by decide) (clean_writeName (ne_null_of_hasNoNull sound.2))
  | string value closed =>
      have noNull := ne_null_of_hasNoNull sound
      refine clean_cons (by decide) (Clean.append (clean_flatMap ?_) ?_)
      · exact fun c member => clean_writeStringChar (noNull c member)
      · cases closed <;> exact clean_of_all rfl
  | url value closed =>
      have noNull := ne_null_of_hasNoNull sound
      refine (clean_of_all rfl : Clean "url(".toList).append (Clean.append (clean_flatMap ?_) ?_)
      · exact fun c member => clean_writeUrlChar (noNull c member)
      · cases closed <;> exact clean_of_all rfl
  | number spelling => exact IsNumber.clean sound
  | percentage spelling => exact (IsNumber.clean sound).append (clean_of_all rfl)
  | dimension spelling unit =>
      exact (IsNumber.clean sound.1).append (clean_writeUnit (ne_null_of_hasNoNull sound.2.2))
  | unicodeRange first last =>
      refine ((clean_of_all rfl : Clean "U+".toList).append (clean_hexDigits first)).append ?_
      split
      · exact clean_of_all rfl
      · exact clean_cons (by decide) (clean_hexDigits last)
  | delim text => exact clean_delim sound
  | fault cause =>
      cases cause with
      | strayCloser closer => cases sound
      | _ => exact clean_of_all rfl

theorem clean_separator (before : Kind) (next : Component) : Clean (separator before next) := by
  unfold separator
  split
  · exact clean_of_all rfl
  · split <;> exact clean_of_all rfl

mutual

/-- The text of a sound component is clean. -/
theorem clean_writeComponent (component : Component) (sound : component.Sound) :
    Clean component.write := by
  match component with
  | .token offset value =>
      by_cases stray : ∃ closer, value = .fault (.strayCloser closer)
      · obtain ⟨closer, rfl⟩ := stray
        have all : ∀ closer ∈ ['\x7d', ']', ')'], isClean closer = true :=
          List.all_eq_true.1 (by decide)
        exact clean_singleton (all closer sound)
      · obtain ⟨isSound, _, _⟩ := token_spec (fun closer same => stray ⟨closer, same⟩) offset
        refine Token.clean_write (isSound sound) ?_
        intro text same
        rw [same] at sound
        cases sound
  | .block offset opening content =>
      have inside := clean_writeFrom content sound.2.2 .other
      cases opening with
      | call name =>
          refine (clean_writeIdent (ne_null_of_hasNoNull sound.1.2)).append
            (clean_cons (by decide) (inside.append ?_))
          split <;> exact clean_of_all rfl
      | _ => exact clean_cons (by decide) (inside.append (clean_of_all rfl))

/-- The text of sound components is clean. -/
theorem clean_writeFrom (components : List Component) (sound : SoundAll components)
    (before : Kind) : Clean (writeFrom before components) := by
  match components with
  | [] => exact clean_of_all rfl
  | component :: rest =>
      rw [writeFrom_cons]
      exact (clean_separator before component).append
        ((clean_writeComponent component sound.1).append (clean_writeFrom rest sound.2 _))

end

/-! ## Sound settled components -/

theorem settledUnit_cases (c : Char) (rest : List Char) :
    settledUnit (c :: rest) = c :: rest ∨ settledUnit (c :: rest) = 'e' :: rest := by
  unfold settledUnit
  split
  · rename_i shape
    cases shape
    split
    · exact .inr rfl
    · exact .inl rfl
  · rename_i shape
    cases shape
    split
    · exact .inr rfl
    · exact .inl rfl
  · exact .inl rfl

theorem settledUnit_spec {unit : List Char} (filled : unit ≠ []) (noNull : hasNoNull unit = true) :
    settledUnit unit ≠ [] ∧ hasNoNull (settledUnit unit) = true := by
  cases unit with
  | nil => exact absurd rfl filled
  | cons c rest =>
      have noNullRest : hasNoNull rest = true := by
        rw [hasNoNull, Bool.not_eq_true', List.contains_eq_mem, decide_eq_false_iff_not] at noNull ⊢
        exact fun member => noNull (List.mem_cons_of_mem c member)
      rcases settledUnit_cases c rest with same | same
      · rw [same]
        exact ⟨filled, noNull⟩
      · rw [same]
        exact ⟨List.cons_ne_nil _ _, hasNoNull_cons (by decide) noNullRest⟩

/-- The pieces of a settled component close what the component closes. -/
theorem closer?_settled (component : Component) :
    ∀ piece ∈ component.settled, piece.closer? = component.closer? := by
  intro piece member
  cases component with
  | block offset opening content =>
      rw [List.mem_singleton.1 member]
      rfl
  | token offset value =>
      cases value with
      | comment text => cases member
      | whitespace text =>
          rw [Component.settled, Token.pieces, List.map_map] at member
          obtain ⟨c, _, rfl⟩ := List.mem_map.1 member
          rfl
      | fault cause =>
          rw [List.mem_singleton.1 member]
          cases cause <;> rfl
      | _ =>
          rw [List.mem_singleton.1 member]
          rfl

theorem mem_settledAll {piece : Component} {components : List Component}
    (member : piece ∈ settledAll components) :
    ∃ component ∈ components, piece ∈ component.settled := by
  induction components with
  | nil => cases member
  | cons component rest ih =>
      rcases List.mem_append.1 member with isFirst | inRest
      · exact ⟨component, List.mem_cons_self, isFirst⟩
      · obtain ⟨other, inOthers, isPiece⟩ := ih inRest
        exact ⟨other, List.mem_cons_of_mem _ inOthers, isPiece⟩

mutual

/-- The pieces of a sound component are sound. -/
theorem settled_sound (component : Component) (sound : component.Sound) :
    ∀ piece ∈ component.settled, piece.Sound := by
  match component with
  | .token offset value =>
      intro piece member
      cases value with
      | comment text => cases sound
      | whitespace text =>
          rw [Component.settled, Token.pieces, List.map_map] at member
          obtain ⟨c, inText, rfl⟩ := List.mem_map.1 member
          exact ⟨List.cons_ne_nil _ _, List.forall_mem_singleton.2 (sound.2 c inText)⟩
      | dimension spelling unit =>
          rw [List.mem_singleton.1 member]
          exact ⟨sound.1, settledUnit_spec sound.2.1 sound.2.2⟩
      | fault cause =>
          rw [List.mem_singleton.1 member]
          cases cause <;> exact sound
      | _ =>
          rw [List.mem_singleton.1 member]
          exact sound
  | .block offset opening content =>
      intro piece member
      rw [List.mem_singleton.1 member]
      refine ⟨sound.1, ?_, settledAll_sound content sound.2.2⟩
      intro inside inContent
      obtain ⟨other, isInside, isPiece⟩ := mem_settledAll inContent
      rw [closer?_settled other inside isPiece]
      exact sound.2.1 other isInside

/-- The pieces of sound components are sound. -/
theorem settledAll_sound (components : List Component) (sound : SoundAll components) :
    SoundAll (settledAll components) := by
  match components with
  | [] => trivial
  | component :: rest =>
      rw [soundAll_iff]
      intro piece member
      rcases List.mem_append.1 member with isFirst | inRest
      · exact settled_sound component sound.1 piece isFirst
      · exact (soundAll_iff _).1 (settledAll_sound rest sound.2) piece inRest

end

end StyleSieve.Css
