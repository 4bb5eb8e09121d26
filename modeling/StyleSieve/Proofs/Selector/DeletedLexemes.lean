import StyleSieve.Proofs.Css.Containment
import StyleSieve.Proofs.Css.Shifting
import StyleSieve.Proofs.Css.Units
import StyleSieve.Proofs.Selector.Deletions
import StyleSieve.Proofs.Selector.WholePseudos

/-!
# Deleted lexemes

A deletion takes out a whole pseudo where the colons and the name are lexemes of their own.
Where all that normalizing deletes from a text is whole, and no lexeme goes on with the text
that is left after a deletion, the lexemes that are left are those of the normalized text.
-/

namespace StyleSieve.Selector

open Css Css.Component

/-! ## Lexemes in a source -/

/-- The component that a lexeme makes up on its own. -/
def ofRead : Nat × Lexeme → Component
  | (offset, .token value) => .token offset value
  | (offset, .opening opening) => .block offset opening []
  | (offset, .closer closer) => .token offset (.fault (.strayCloser closer))

/-- A component as it stands in a source: a name with escapes is no word. -/
def shownIn (source : List Char) : Component → Component
  | .token offset (.ident name) =>
      if name.isPrefixOf (source.drop offset) then .token offset (.ident name)
      else .token offset (.delim [])
  | component => component

/-- A lexeme as it stands in a source. -/
def shownRead (source : List Char) (read : Nat × Lexeme) : Component :=
  shownIn source (ofRead read)

theorem isDelim_shownIn (source : List Char) (component : Component) :
    (shownIn source component).isDelim ":" = component.isDelim ":" := by
  unfold shownIn
  split
  · split <;> rfl
  · rfl

theorem shownRead_colon {source : List Char} {read : Nat × Lexeme} :
    (shownRead source read).isDelim ":" = true ↔ read.2 = delim ":" := by
  obtain ⟨offset, lexeme⟩ := read
  rw [shownRead, isDelim_shownIn, isDelim_iff]
  cases lexeme <;> simp [ofRead, delim]

theorem isOneOfWords_ident {words : List String} {offset : Nat} {name : List Char} :
    isOneOfWords words (.token offset (.ident name)) = true ↔
      ∃ word ∈ words, word.toList = name := by
  rw [isOneOfWords, wordOf?, Option.any_some, List.contains_iff_mem]
  constructor
  · exact fun member => ⟨_, member, String.toList_ofList⟩
  · rintro ⟨word, member, rfl⟩
    rwa [String.ofList_toList]

/-- A lexeme is a word where it is an identifier that is spelled like it. -/
theorem isOneOfWords_shownRead {source : List Char} {words : List String} {read : Nat × Lexeme} :
    isOneOfWords words (shownRead source read) = true ↔
      ∃ word ∈ words, read.2 = .token (.ident word.toList) ∧
        word.toList <+: source.drop read.1 := by
  obtain ⟨offset, lexeme⟩ := read
  by_cases isIdent : ∃ name, lexeme = .token (.ident name)
  · obtain ⟨name, rfl⟩ := isIdent
    rw [shownRead, ofRead, shownIn]
    split
    · rename_i starts
      rw [isOneOfWords_ident]
      constructor
      · rintro ⟨word, member, rfl⟩
        exact ⟨word, member, rfl, List.isPrefixOf_iff_prefix.1 starts⟩
      · rintro ⟨word, member, same, _⟩
        cases same
        exact ⟨word, member, rfl⟩
    · rename_i unlike
      refine ⟨nofun, ?_⟩
      rintro ⟨word, _, same, starts⟩
      cases same
      exact absurd (List.isPrefixOf_iff_prefix.2 starts) unlike
  · have noWord : wordOf? (shownRead source (offset, lexeme)) = none := by
      cases lexeme with
      | token value =>
          cases value with
          | ident name => exact absurd ⟨name, rfl⟩ isIdent
          | _ => rfl
      | _ => rfl
    rw [isOneOfWords, noWord]
    refine ⟨nofun, ?_⟩
    rintro ⟨word, _, same, _⟩
    exact absurd ⟨_, same⟩ isIdent

/-! ## Lexemes of a text -/

theorem scan_colon (rest : List Char) : scan ':' rest = ([delim ":"], rest) := by
  have starts : (Token.delim [':']).endsBefore rest = true := rfl
  obtain ⟨c, more, text, scanned⟩ := scan_delim rfl starts
  cases text
  exact scanned

theorem lexemesFrom_colon (offset : Nat) (rest : List Char) :
    lexemesFrom offset (':' :: rest) = (offset, delim ":") :: lexemesFrom (offset + 1) rest := by
  rw [lexemesFrom_cons, scan_colon, List.length_cons, Nat.add_sub_cancel_left]
  rfl

/-- A colon among the lexemes of a text is read from a colon of the text. -/
theorem exists_colon {offset : Nat} {text : List Char} {front more : List (Nat × Lexeme)}
    {read : Nat × Lexeme} (lexemes : lexemesFrom offset text = front ++ read :: more)
    (isColon : read.2 = delim ":") :
    ∃ before rest, text = before ++ ':' :: rest ∧ read.1 = offset + before.length ∧
      more = lexemesFrom (read.1 + 1) rest := by
  obtain ⟨before, c, rest, left, right, skipped, text, place, here, whole, later⟩ :=
    exists_step lexemes
  have member : delim ":" ∈ (scan c rest).1 := by
    rw [here, isColon]
    exact List.mem_append_right left List.mem_cons_self
  cases scan_of_colon member
  rw [scan_colon] at here whole later
  obtain ⟨rfl, rfl⟩ : left = [] ∧ right = [] := by
    cases left with
    | nil => exact ⟨rfl, (List.cons.inj here).2.symm⟩
    | cons first others => exact absurd (List.cons.inj here).2 (by simp)
  have alone : [':'] = skipped := List.append_cancel_right whole
  refine ⟨before, rest, text, place, ?_⟩
  rw [later, ← alone]
  rfl

theorem leads_of_listed {listed : String} (isListed : listed ∈ statePseudos) {text : List Char}
    (starts : listed.toList <+: text) : leadingPseudo? text ≠ none := by
  rw [Ne, leadingPseudo?_eq_none]
  exact fun noPseudo => noPseudo listed isListed starts

theorem leads_of_class {word : String} (isClass : word ∈ stateClasses) {text : List Char}
    (starts : word.toList <+: text) : leadingPseudo? (':' :: text) ≠ none := by
  apply leads_of_listed ((mem_statePseudos (":" ++ word)).2 (.inl ⟨word, isClass, rfl⟩))
  rw [String.toList_append]
  exact List.cons_prefix_cons.2 ⟨rfl, starts⟩

theorem leads_of_element {word : String} (isElement : word ∈ stateElements) {text : List Char}
    (starts : word.toList <+: text) : leadingPseudo? (':' :: ':' :: text) ≠ none := by
  apply leads_of_listed ((mem_statePseudos ("::" ++ word)).2 (.inr ⟨word, isElement, rfl⟩))
  rw [String.toList_append]
  exact List.cons_prefix_cons.2 ⟨rfl, List.cons_prefix_cons.2 ⟨rfl, starts⟩⟩

/-- A word at the start of the lexemes of a text is at the start of the text. -/
theorem prefix_of_isOneOfWords {source text : List Char} {offset : Nat}
    (here : source.drop offset = text) {read : Nat × Lexeme} {more : List (Nat × Lexeme)}
    (lexemes : lexemesFrom offset text = read :: more) {words : List String}
    (isWord : isOneOfWords words (shownRead source read) = true) :
    ∃ word ∈ words, word.toList <+: text := by
  obtain ⟨_, _, _, place, _⟩ := lexemesFrom_first lexemes
  obtain ⟨word, member, _, starts⟩ := isOneOfWords_shownRead.1 isWord
  rw [place, here] at starts
  exact ⟨word, member, starts⟩

theorem drop_succ_of_drop {source later : List Char} {c : Char} {offset : Nat}
    (here : source.drop offset = c :: later) : source.drop (offset + 1) = later := by
  rw [← List.drop_drop, here, List.drop_succ_cons, List.drop_zero]

theorem drop_after_of_drop {source before later : List Char} {c : Char} {offset : Nat}
    (here : source.drop offset = before ++ c :: later) :
    source.drop (offset + before.length + 1) = later :=
  drop_succ_of_drop (by rw [← List.drop_drop, here, List.drop_left])

/-- Where a state pseudo starts among the lexemes of a text, it starts in the text. -/
theorem leads_of_statePseudoLength {source text : List Char} {offset : Nat}
    (here : source.drop offset = text) {front back : List (Nat × Lexeme)}
    (lexemes : lexemesFrom offset text = front ++ back)
    (starts : statePseudoLength (shownRead source) back ≠ 0) :
    ∃ before after read more, text = before ++ after ∧ leadingPseudo? after ≠ none ∧
      back = read :: more ∧ read.2 = delim ":" ∧ read.1 = offset + before.length := by
  obtain ⟨pseudo, rest, rfl, isPseudo⟩ := exists_statePseudo starts
  cases isPseudo with
  | @ofClass first name isColon isClass =>
      rw [shownRead_colon] at isColon
      obtain ⟨before, later, rfl, place, others⟩ := exists_colon lexemes isColon
      refine ⟨before, ':' :: later, first, _, rfl, ?_, rfl, isColon, place⟩
      obtain ⟨word, member, starts⟩ := prefix_of_isOneOfWords
        (place ▸ drop_after_of_drop here) others.symm isClass
      exact leads_of_class member starts
  | @ofElement first second name isColon isSecond isElement =>
      rw [shownRead_colon] at isColon isSecond
      obtain ⟨before, later, rfl, place, others⟩ := exists_colon lexemes isColon
      refine ⟨before, ':' :: later, first, _, rfl, ?_, rfl, isColon, place⟩
      have atStart : lexemesFrom (first.1 + 1) later = [] ++ second :: name :: rest :=
        others.symm
      obtain ⟨between, further, rfl, secondPlace, last⟩ := exists_colon atStart isSecond
      obtain ⟨_, _, _, adjacent, _⟩ := lexemesFrom_first others.symm
      have nothing : between = [] := List.length_eq_zero_iff.1 (by omega)
      subst nothing
      obtain ⟨word, member, starts⟩ := prefix_of_isOneOfWords
        (secondPlace ▸ drop_after_of_drop (place ▸ drop_after_of_drop here)) last.symm isElement
      exact leads_of_element member starts

/-- No state pseudo starts among the lexemes of a text if none starts in the text. -/
theorem NoneStarts.lexemes {source text more : List Char} {offset : Nat}
    (noneStarts : NoneStarts text more) (here : source.drop offset = text ++ more)
    {after : List (Nat × Lexeme)}
    (whole : lexemesFrom offset (text ++ more) = lexemesFrom offset text ++ after) :
    ∀ front back, lexemesFrom offset text = front ++ back → back ≠ [] →
      statePseudoLength (shownRead source) (back ++ after) = 0 := by
  intro front back split filled
  by_contra isPseudo
  rw [split, List.append_assoc] at whole
  obtain ⟨before, later, read, _, text', leads, shape, isColon, place⟩ :=
    leads_of_statePseudoLength here whole isPseudo
  cases back with
  | nil => exact filled rfl
  | cons first others =>
      obtain ⟨rfl, _⟩ := List.cons.inj shape
      obtain ⟨before', rest, rfl, place', _⟩ := exists_colon split isColon
      have sameLength : before'.length = before.length := by omega
      rw [List.append_assoc] at text'
      obtain ⟨rfl, rfl⟩ := List.append_inj text' sameLength
      exact leads (noneStarts before' (':' :: rest) rfl (List.cons_ne_nil _ _))

/-! ## Deleted lexemes -/

/-- The deletion of a whole pseudo: the text before it is read before it as alone and does not
end in a colon, and the name ends where the text after it begins. -/
structure Deletion.IsWhole (deletion : Deletion) : Prop where
  starts : ReadBefore (deletion.pseudo ++ normalizeNewlines deletion.after)
    (normalizeNewlines deletion.segment)
  noColon : ∀ read ∈ (lexemesFrom 0 (normalizeNewlines deletion.segment)).getLast?,
    read.2 ≠ delim ":"
  ends : (Token.ident deletion.name).endsBefore (normalizeNewlines deletion.after) = true

instance (deletion : Deletion) : Decidable deletion.IsWhole :=
  decidable_of_iff (_ ∧ _ ∧ _) ⟨fun ⟨starts, noColon, ends⟩ => ⟨starts, noColon, ends⟩,
    fun ⟨starts, noColon, ends⟩ => ⟨starts, noColon, ends⟩⟩

/-- A deletion that brings nothing together: the text before it is read before what is left of
the text after it as alone, and no carriage return meets a line feed. -/
structure Deletion.IsApart (deletion : Deletion) : Prop where
  reads : ReadBefore (normalizeNewlines deletion.left) (normalizeNewlines deletion.segment)
  noFeed : deletion.segment.getLast? = some '\r' → deletion.left.head? ≠ some '\n'

instance (deletion : Deletion) : Decidable deletion.IsApart :=
  decidable_of_iff (_ ∧ _) ⟨fun ⟨reads, noFeed⟩ => ⟨reads, noFeed⟩,
    fun ⟨reads, noFeed⟩ => ⟨reads, noFeed⟩⟩

theorem Deletion.IsApart.normalizeNewlines {deletion : Deletion} (isApart : deletion.IsApart) :
    Css.normalizeNewlines (deletion.segment ++ deletion.left) =
      Css.normalizeNewlines deletion.segment ++ Css.normalizeNewlines deletion.left := by
  by_cases isReturn : deletion.segment.getLast? = some '\r'
  · have noFeed := isApart.noFeed isReturn
    cases left : deletion.left with
    | nil => rw [List.append_nil, Css.normalizeNewlines, List.append_nil]
    | cons c more =>
        rw [left] at noFeed
        exact normalizeNewlines_append (fun same => noFeed (congrArg some same)) _ _
  · exact normalizeNewlines_append_of_last isReturn _

/-- The colons and the name of a listed pseudo. -/
theorem listed_cases {pseudo : List Char} (isListed : ∃ listed ∈ statePseudos, listed.toList = pseudo) :
    (∃ name ∈ stateClasses, pseudo = ':' :: name.toList) ∨
      ∃ name ∈ stateElements, pseudo = ':' :: ':' :: name.toList := by
  obtain ⟨listed, member, rfl⟩ := isListed
  rcases (mem_statePseudos listed).1 member with ⟨name, isClass, rfl⟩ | ⟨name, isElement, rfl⟩
  · exact .inl ⟨name, isClass, String.toList_append⟩
  · exact .inr ⟨name, isElement, String.toList_append⟩

theorem dropWhile_name {name : String} (isName : name ∈ stateClasses ++ stateElements) :
    name.toList.dropWhile (· == ':') = name.toList := by
  have bare : ∀ name ∈ stateClasses ++ stateElements,
      name.toList.dropWhile (· == ':') = name.toList := by
    decide
  exact bare name isName

theorem lexemesFrom_name {name : String} (isName : name ∈ stateClasses ++ stateElements)
    {after : List Char} (ends : (Token.ident name.toList).endsBefore after = true) (offset : Nat) :
    lexemesFrom offset (name.toList ++ after) =
      (offset, .token (.ident name.toList)) ::
        lexemesFrom (offset + name.toList.length) after := by
  have asWritten : ∀ name ∈ stateClasses ++ stateElements,
      name.toList ≠ [] ∧ writeIdent name.toList = name.toList := by
    decide
  obtain ⟨filled, written⟩ := asWritten name isName
  obtain ⟨c, more, text, scanned⟩ := scan_ident filled ends
  rw [written] at text
  rw [text, lexemesFrom_cons, scanned, ← text, List.length_append, Nat.add_sub_cancel]
  rfl

theorem isOneOfWords_name {source : List Char} {words : List String} {name : String}
    (isWord : name ∈ words) {offset : Nat} {after : List Char}
    (here : source.drop offset = name.toList ++ after) :
    isOneOfWords words (shownRead source (offset, .token (.ident name.toList))) = true :=
  isOneOfWords_shownRead.2 ⟨name, isWord, rfl, after, here.symm⟩

/-- A whole pseudo is left out. -/
theorem withoutWholePseudos_lexemesFrom {source pseudo after : List Char} {offset : Nat}
    (isListed : ∃ listed ∈ statePseudos, listed.toList = pseudo)
    (here : source.drop offset = pseudo ++ after)
    (ends : (Token.ident (pseudo.dropWhile (· == ':'))).endsBefore after = true) :
    withoutWholePseudos (shownRead source) false 0 (lexemesFrom offset (pseudo ++ after)) =
      withoutWholePseudos (shownRead source) false 0
        (lexemesFrom (offset + pseudo.length) after) := by
  have isColon (place : Nat) : (shownRead source (place, delim ":")).isDelim ":" = true :=
    shownRead_colon.2 rfl
  rcases listed_cases isListed with ⟨name, isClass, rfl⟩ | ⟨name, isElement, rfl⟩
  · have isName := List.mem_append_left stateElements isClass
    have length : offset + (':' :: name.toList).length = offset + 1 + name.toList.length := by
      rw [List.length_cons]
      omega
    rw [List.dropWhile_cons_of_pos rfl, dropWhile_name isName] at ends
    rw [List.cons_append, lexemesFrom_colon, lexemesFrom_name isName ends, length]
    exact withoutWholePseudos_statePseudo (.ofClass (isColon _)
      (isOneOfWords_name isClass (drop_succ_of_drop here))) _
  · have isName := List.mem_append_right stateClasses isElement
    have length : offset + (':' :: ':' :: name.toList).length =
        offset + 1 + 1 + name.toList.length := by
      rw [List.length_cons, List.length_cons]
      omega
    rw [List.dropWhile_cons_of_pos rfl, List.dropWhile_cons_of_pos rfl,
      dropWhile_name isName] at ends
    rw [List.cons_append, List.cons_append, lexemesFrom_colon, lexemesFrom_colon,
      lexemesFrom_name isName ends, length]
    exact withoutWholePseudos_statePseudo (.ofElement (isColon _) (isColon _)
      (isOneOfWords_name isElement
        (drop_succ_of_drop (drop_succ_of_drop here)))) _

/-- A listed pseudo is normalized by itself, and starts with a colon. -/
theorem normalizeNewlines_pseudo {pseudo : List Char}
    (isListed : ∃ listed ∈ statePseudos, listed.toList = pseudo) :
    ∃ rest, pseudo = ':' :: rest ∧ ∀ after,
      normalizeNewlines (pseudo ++ after) = pseudo ++ normalizeNewlines after := by
  have clean : ∀ listed ∈ statePseudos, listed.toList.all isClean = true := by decide
  have starts : ∃ rest, pseudo = ':' :: rest := by
    rcases listed_cases isListed with ⟨_, _, rfl⟩ | ⟨_, _, rfl⟩ <;> exact ⟨_, rfl⟩
  obtain ⟨listed, member, rfl⟩ := isListed
  obtain ⟨rest, shape⟩ := starts
  exact ⟨rest, shape, (clean_of_all (clean listed member)).normalize_append⟩

theorem Deletion.IsWhole.endsInColon {deletion : Deletion} (isWhole : deletion.IsWhole)
    (source : List Char) (offset : Nat) :
    Selector.endsInColon (shownRead source) false
      (lexemesFrom offset (normalizeNewlines deletion.segment)) = false := by
  apply endsInColon_of_last
  intro read isLast
  have shifted := lexemesFrom_add 0 offset (normalizeNewlines deletion.segment)
  rw [Nat.zero_add] at shifted
  rw [shifted, List.getLast?_map] at isLast
  obtain ⟨last, alone, rfl⟩ := Option.map_eq_some_iff.1 isLast
  rw [Bool.eq_false_iff, Ne, shownRead_colon]
  exact isWhole.noColon last alone

/-- The lexemes up to the end of a whole pseudo without it are those of the text before it. -/
theorem withoutWholePseudos_deletion {source segment pseudo after : List Char} {offset : Nat}
    (noneStarts : NoneStarts segment (pseudo ++ after))
    (isListed : ∃ listed ∈ statePseudos, listed.toList = pseudo)
    (isWhole : (⟨segment, pseudo, after⟩ : Deletion).IsWhole)
    (here : source.drop offset = normalizeNewlines (segment ++ (pseudo ++ after))) :
    ∃ start, source.drop start = normalizeNewlines after ∧
      withoutWholePseudos (shownRead source) false 0
          (lexemesFrom offset (normalizeNewlines (segment ++ (pseudo ++ after)))) =
        lexemesFrom offset (normalizeNewlines segment) ++
          withoutWholePseudos (shownRead source) false 0
            (lexemesFrom start (normalizeNewlines after)) := by
  obtain ⟨name, rfl, apart⟩ := normalizeNewlines_pseudo isListed
  have normalized : normalizeNewlines (segment ++ (':' :: name ++ after)) =
      normalizeNewlines segment ++ (':' :: name ++ normalizeNewlines after) := by
    rw [← apart, List.cons_append, normalizeNewlines_append (by decide)]
  have noFeed : (':' :: name ++ after).head? ≠ some '\n' := by
    rw [List.cons_append, List.head?_cons]
    decide
  have noneLater : NoneStarts (normalizeNewlines segment)
      (':' :: name ++ normalizeNewlines after) := by
    rw [← apart]
    exact noneStarts.normalizeNewlines noFeed
  have lexemes : lexemesFrom offset
        (normalizeNewlines segment ++ (':' :: name ++ normalizeNewlines after)) =
      lexemesFrom offset (normalizeNewlines segment) ++
        lexemesFrom (offset + (normalizeNewlines segment).length)
          (':' :: name ++ normalizeNewlines after) :=
    isWhole.starts.lexemesFrom_append_solid rfl offset
  rw [normalized] at here ⊢
  have afterSegment : source.drop (offset + (normalizeNewlines segment).length) =
      ':' :: name ++ normalizeNewlines after := by
    rw [← List.drop_drop, here, List.drop_left]
  refine ⟨offset + (normalizeNewlines segment).length + (':' :: name).length, ?_, ?_⟩
  · rw [← List.drop_drop, afterSegment, List.drop_left]
  · rw [lexemes, withoutWholePseudos_append _ (noneLater.lexemes here lexemes),
      isWhole.endsInColon source offset,
      withoutWholePseudos_lexemesFrom isListed afterSegment isWhole.ends]

/-- Where all that is deleted from a text is whole and brings nothing together, the lexemes
without the whole pseudos are those of the normalized text. -/
theorem divideAll_withoutWholePseudos {source text : List Char} {offset : Nat}
    (here : source.drop offset = normalizeNewlines text)
    (cuts : ∀ deletion ∈ deletions text, deletion.IsWhole ∧ deletion.IsApart) :
    divideAll Token.parts (withoutWholePseudos (shownRead source) false 0
        (lexemesFrom offset (normalizeNewlines text))) =
      divideAll Token.parts (lexemesFrom 0 (normalizeNewlines (withoutPseudos 0 text))) := by
  -- on the length: each round removes the first pseudo-class and goes on after it
  induction length : text.length using Nat.strongRecOn generalizing text offset with
  | ind n ih =>
      subst length
      rcases noneStarts_or_exists text with
        noneStarts | ⟨segment, pseudo, after, rfl, noneStarts, leads⟩
      · have unchanged := withoutPseudos_append noneStarts
        rw [List.append_nil, withoutPseudos, List.append_nil] at unchanged
        have noneLater : NoneStarts (normalizeNewlines text) [] :=
          noneStarts.normalizeNewlines (by decide)
        rw [← List.append_nil (normalizeNewlines text)] at here
        have whole : lexemesFrom offset (normalizeNewlines text ++ []) =
            lexemesFrom offset (normalizeNewlines text) ++ [] := by
          rw [List.append_nil, List.append_nil]
        have kept := withoutWholePseudos_append (shownRead source)
          (noneLater.lexemes here whole) false
        rw [List.append_nil, withoutWholePseudos, List.append_nil] at kept
        rw [kept, unchanged, divideAll_lexemesFrom]
      · obtain ⟨isListed, -⟩ := leadingPseudo?_spec leads
        rw [deletions_first noneStarts leads, List.forall_mem_cons] at cuts
        obtain ⟨⟨isWhole, isApart⟩, later⟩ := cuts
        obtain ⟨start, afterPseudo, kept⟩ :=
          withoutWholePseudos_deletion noneStarts isListed isWhole here
        have shorter : after.length < (segment ++ (pseudo ++ after)).length := by
          have filled := leadingPseudo_pos leads
          simp only [List.length_append]
          omega
        have left : withoutPseudos 0 (segment ++ (pseudo ++ after)) =
            segment ++ withoutPseudos 0 after := by
          rw [withoutPseudos_append noneStarts, withoutPseudos_pseudo leads]
        have apart : normalizeNewlines (segment ++ withoutPseudos 0 after) =
            normalizeNewlines segment ++ normalizeNewlines (withoutPseudos 0 after) :=
          isApart.normalizeNewlines
        have reads : ReadBefore (normalizeNewlines (withoutPseudos 0 after))
            (normalizeNewlines segment) :=
          isApart.reads
        rw [kept, divideAll_append, ih _ shorter afterPseudo later rfl, left, apart,
          reads.divideAll_append (fun _ => rfl), divideAll_lexemesFrom Token.parts offset 0]

end StyleSieve.Selector
