import StyleSieve.Proofs.Sheet.Layout

/-!
# Legible sheets

What a sheet keeps of its source is spelled by the texts that are written for tokens.  A text
is legible when what is written keeps every token, each token ends where the next one begins,
and trimming takes off nothing but white space.  A sheet that is read from legible pieces is
read back from its print.
-/

namespace StyleSieve

open Css Css.Component

/-! ## Pieces -/

/-- Components are read back from what is written for them before any seam. -/
theorem spells_write {components : List Component} (sound : SoundAll components) {seam : Char}
    (isSeam : seam ∈ seams) (legible : areLegible seam components = true) :
    SpellsBefore [seam] (Css.write components) (· = components) := by
  have areClean : ∀ seam ∈ seams, isClean seam = true := List.all_eq_true.1 (by decide)
  have cleanSeam : Clean [seam] := clean_singleton (areClean seam isSeam)
  have clean : Clean (Css.write components) := clean_writeFrom components sound .other
  intro rest
  refine ⟨_, rfl, ?_⟩
  rw [clean.normalize_append, cleanSeam.normalize_append]
  exact plain_write sound isSeam legible _

/-- Whether a piece is kept by its trimmed text: its components are legible before whatever
is printed after them, and only gaps are trimmed. -/
def isLegiblePiece (piece : List Component) : Bool :=
  seams.all (areLegible · (core piece)) &&
    Text.trim (Css.write (core piece)) == Css.write (core piece)

section Piece

variable {piece : List Component} (sound : SoundAll piece)

include sound

theorem core_sound : SoundAll (core piece) := by
  rw [soundAll_iff] at sound ⊢
  intro component member
  exact sound component (mem_of_mem_core member)

theorem trimmedText_core_gaps {before after : List Component}
    (gapsBefore : ∀ gap ∈ before, gap.isGap = true ∧ gap.Sound)
    (gapsAfter : ∀ gap ∈ after, gap.isGap = true ∧ gap.Sound) :
    trimmedText (before ++ (core piece ++ after)) = trimmedText piece := by
  rw [trimmedText_gaps _ gapsBefore gapsAfter, trimmedText_core sound]

variable (legible : isLegiblePiece piece = true)

include legible

theorem toList_trimmedText : (trimmedText piece).toList = Css.write (core piece) := by
  rw [isLegiblePiece, Bool.and_eq_true, beq_iff_eq] at legible
  rw [← trimmedText_core sound, trimmedText, String.toList_ofList, legible.2]

/-- The text of a legible piece is read as the piece before any seam. -/
theorem spells_piece {seam : Char} (isSeam : seam ∈ seams) :
    SpellsBefore [seam] (trimmedText piece).toList (· = core piece) := by
  rw [toList_trimmedText sound legible]
  rw [isLegiblePiece, Bool.and_eq_true] at legible
  exact spells_write (core_sound sound) isSeam (List.all_eq_true.1 legible.1 seam isSeam)

/-- The text of a legible piece is read as the piece and a gap before a space and a block. -/
theorem spells_piece_space :
    SpellsBefore ['\x7b'] ((trimmedText piece).toList ++ [' ']) fun read =>
      ∃ gaps, read = core piece ++ gaps ∧ ∀ gap ∈ gaps, gap.isGap = true ∧ gap.Sound := by
  have space : ∀ c ∈ [' '], isSpace c = true := List.all_eq_true.1 (by decide)
  have alone := spells_piece sound legible (by decide : ' ' ∈ seams)
  have spaced : Spells ([' '] ++ []) (· = blanks [' ']) := spells_blanks space
  apply alone.append (spaced.before _)
  rintro _ _ rfl rfl
  exact ⟨_, rfl, blanks_gaps space⟩

end Piece

/-! ## Selectors -/

/-- The pieces of a prelude that are kept as selectors. -/
def selectorPieces (prelude : List Component) : List (List Component) :=
  (splitAtEvery (·.isDelim ",") prelude).filter (trimmedText · ≠ "")

theorem selectorsOfPrelude_eq (prelude : List Component) :
    selectorsOfPrelude prelude = (selectorPieces prelude).map trimmedText := by
  rw [selectorsOfPrelude, selectorPieces, List.filter_map]
  rfl

/-- Whether a piece can open a style rule: it starts neither an at-rule nor with a component
that is passed over. -/
def Level.opens (level : Level) (piece : List Component) : Bool :=
  (core piece).head?.all fun first => first.atKeyword?.isNone && !level.skips first

/-- A piece of the prelude of a style rule that is kept by its text. -/
structure LegibleSelector (level : Level) (piece : List Component) : Prop where
  members : ∀ component ∈ piece, level.Admits component ∧ component.curlyContent? = none
  whole : ∀ component ∈ piece, component.isDelim "," = false
  filled : trimmedText piece ≠ ""
  legible : isLegiblePiece piece = true

namespace LegibleSelector

variable {level : Level} {piece : List Component} (isSelector : LegibleSelector level piece)

include isSelector

theorem sound : SoundAll piece :=
  soundAll_of_admits fun component member => (isSelector.members component member).1

theorem areSelectors : AreSelectors level (core piece) [trimmedText piece] := by
  constructor
  · intro component member
    exact isSelector.members component (mem_of_mem_core member)
  · have whole : ∀ component ∈ core piece, component.isDelim "," = false := by
      intro component member
      exact isSelector.whole component (mem_of_mem_core member)
    have split := splitAtEvery_append whole (show splitAtEvery (·.isDelim ",") [] = [[]] from rfl)
    rw [List.append_nil] at split
    rw [selectorsOfPrelude, split, List.map_singleton, trimmedText_core isSelector.sound]
    exact List.filter_eq_self.2 (by simp [isSelector.filled])

theorem arePrelude (opens : level.opens piece = true) :
    ArePrelude level (core piece) [trimmedText piece] := by
  refine ⟨isSelector.areSelectors, ?_⟩
  rw [dropWhile_core]
  intro first isFirst
  rw [Level.opens, isFirst, Option.all_some, Bool.and_eq_true, Option.isNone_iff_eq_none,
    Bool.not_eq_true'] at opens
  exact opens

theorem spells {kind : List Component → Prop}
    (append : ∀ {gaps}, (∀ gap ∈ gaps, gap.isGap = true ∧ gap.Sound) →
      kind (core piece ++ gaps)) : SpellsPiece (trimmedText piece) kind :=
  .of_gaps (spells_piece isSelector.sound isSelector.legible (by decide))
    (spells_piece_space isSelector.sound isSelector.legible) append

end LegibleSelector

/-! ## At-rules -/

/-- Whether an at-rule is kept by its text: its keyword ends where its prelude begins, and its
prelude and its body are legible. -/
def Css.AtRule.isLegible (rule : AtRule) : Bool :=
  match rule.body with
  | none => endsName (Css.write rule.prelude ++ [';']) && areLegible ';' rule.prelude
  | some content =>
      endsName (Css.write rule.prelude ++ ['\x7b']) && areLegible '\x7b' rule.prelude &&
        areLegible '\x7d' content

/-- The keyword and the prelude of an at-rule are read up to its end. -/
theorem spells_keyword {name : List Char} {prelude stop : List Component} {seam : Char}
    {after : List Char} (soundName : (Token.atKeyword name).Sound) (sound : SoundAll prelude)
    (isSeam : seam ∈ seams) (ends : endsName (Css.write prelude ++ [seam]) = true)
    (legible : areLegible seam prelude = true) (stops : Spells ([seam] ++ after) (· = stop)) :
    Spells ('@' :: (writeIdent name ++ (Css.write prelude ++ ([seam] ++ after))))
      (· = .token 0 (.atKeyword name) :: (prelude ++ stop)) := by
  have areClean : ∀ seam ∈ seams, isClean seam = true := List.all_eq_true.1 (by decide)
  have clean : Clean (Css.write prelude ++ [seam]) :=
    Clean.append (clean_writeFrom prelude sound .other) (clean_singleton (areClean seam isSeam))
  have keyword : SpellsBefore (Css.write prelude ++ [seam]) ('@' :: writeIdent name)
      (· = [.token 0 (.atKeyword name)]) := by
    apply spells_token soundName rfl clean
    intro rest
    have same := Token.endsBefore_seam isSeam (Css.write prelude) rest (.atKeyword name)
    rw [List.append_assoc, List.singleton_append, same]
    exact ends
  have later : Spells (Css.write prelude ++ ([seam] ++ after)) (· = prelude ++ stop) := by
    apply (spells_write sound isSeam legible).append stops
    rintro _ _ rfl rfl
    rfl
  rw [← List.append_assoc] at later
  have whole : Spells (('@' :: writeIdent name) ++ (Css.write prelude ++ [seam] ++ after))
      (· = .token 0 (.atKeyword name) :: (prelude ++ stop)) := by
    apply keyword.append later
    rintro _ _ rfl rfl
    rfl
  rw [List.cons_append, List.append_assoc] at whole
  exact whole

/-- A legible at-rule is read back from its text. -/
theorem spells_atRule {level : Level} {rule : AtRule} (sound : rule.Sound level)
    (legible : rule.isLegible = true) : Spells rule.write (· = ruleComponents rule) := by
  obtain ⟨name, prelude, body⟩ := rule
  obtain ⟨soundName, admits, inside⟩ := sound
  have soundPrelude : SoundAll prelude :=
    soundAll_of_admits fun component member => (admits component member).1
  cases body with
  | none =>
      rw [AtRule.isLegible, Bool.and_eq_true] at legible
      have stops : Spells ([';'] ++ []) (· = [.token 0 (.delim [';'])]) := spells_delim (by decide)
      have written : AtRule.write ⟨name, prelude, none⟩ =
          '@' :: (writeIdent name ++ (Css.write prelude ++ ([';'] ++ []))) := by
        simp [AtRule.write]
      rw [written]
      exact spells_keyword soundName soundPrelude (by decide) legible.1 legible.2 stops
  | some content =>
      rw [AtRule.isLegible, Bool.and_eq_true, Bool.and_eq_true] at legible
      obtain ⟨⟨ends, legiblePrelude⟩, legibleContent⟩ := legible
      have soundContent : SoundAll content := soundAll_of_admits (inside content rfl)
      have stops : Spells (['\x7b'] ++ (Css.write content ++ ['\x7d']))
          (· = [.block 0 .curly content]) := by
        apply (spells_curly (spells_write soundContent (by decide) legibleContent)).mono
        rintro _ ⟨_, rfl, rfl⟩
        rfl
      have written : AtRule.write ⟨name, prelude, some content⟩ = '@' :: (writeIdent name ++
          (Css.write prelude ++ (['\x7b'] ++ (Css.write content ++ ['\x7d'])))) := by
        simp [AtRule.write]
      rw [written]
      exact spells_keyword soundName soundPrelude (by decide) ends legiblePrelude stops

/-! ## Declarations -/

/-- Whether an entry that is kept is kept by its text: the name of a declaration needs no
escape, and its value is legible. -/
def Css.Entry.isLegible : Entry → Bool
  | .declaration name value _ => writeIdent name == name && isLegiblePiece value
  | .atRule rule => rule.isLegible
  | .invalid .. => true

/-- The components of a declaration up to its value. -/
def declarationComponents (name : List Char) (value : List Component) : List Component :=
  .token 0 (.ident name) :: .token 0 (.delim [':']) :: (blanks [' '] ++ value)

theorem entries_declarationComponents (name : List Char) {value : List Component}
    (endless : ∀ component ∈ value, component.isDelim ";" = false) :
    Css.entries (declarationComponents name value) =
      [Entry.ofDeclaration (.token 0 (.ident name))
        (.token 0 (.delim [':']) :: (blanks [' '] ++ value))] := by
  have endlessAll : ∀ component ∈ .token 0 (.delim [':']) :: (blanks [' '] ++ value),
      component.isDelim ";" = false := by
    rw [List.forall_mem_cons, List.forall_mem_append]
    exact ⟨rfl, isDelim_blanks ";" [' '], endless⟩
  have whole := entriesFrom_read (List.cons_ne_nil (.token 0 (.ident name)) []) _ [] endlessAll
    Bool.noConfusion
  rw [List.append_nil] at whole
  rw [Css.entries, declarationComponents, entriesFrom_first rfl rfl, whole]
  rfl

/-- The text of a declaration is read as its components, if the text of its value is. -/
theorem spells_declaration {name text next : List Char} {value : List Component}
    (sound : (Token.ident name).Sound) (plain : writeIdent name = name)
    (spells : SpellsBefore next text (· = value)) :
    SpellsBefore next (name ++ ([':'] ++ ([' '] ++ text)))
      (· = declarationComponents name value) := by
  have space : ∀ c ∈ [' '], isSpace c = true := List.all_eq_true.1 (by decide)
  have spaced : SpellsBefore next ([' '] ++ text) (· = blanks [' '] ++ value) := by
    apply (spells_blanks space).append spells
    rintro _ _ rfl rfl
    rfl
  have colon : SpellsBefore next ([':'] ++ ([' '] ++ text))
      (· = .token 0 (.delim [':']) :: (blanks [' '] ++ value)) := by
    apply (spells_delim (by decide)).append spaced
    rintro _ _ rfl rfl
    rfl
  have named : SpellsBefore [':'] name (· = [.token 0 (.ident name)]) := by
    have clean : Clean [':'] := clean_of_all rfl
    have notName : isNameChar ':' = false := by decide
    have token := spells_token sound rfl clean fun rest => by
      simp [Token.endsBefore, endsIdent, endsName, startsUnicodeRange, notName]
    rwa [Token.write, plain] at token
  apply named.append colon
  rintro _ _ rfl rfl
  rfl

/-- The components of a value and what they are read as. -/
theorem declarationsOf_of_reading {name : List Char} {value : List Component}
    (endless : ∀ component ∈ value, component.isDelim ";" = false) {text : String}
    (reads : declarationText? (Entry.ofDeclaration (.token 0 (.ident name))
      (.token 0 (.delim [':']) :: (blanks [' '] ++ value))) = some text) :
    declarationsOf (declarationComponents name value) = [text] := by
  rw [declarationsOf, entries_declarationComponents name endless, List.filterMap_cons, reads]
  rfl

theorem admits_declarationComponents {name : List Char} {value : List Component}
    (sound : (Token.ident name).Sound)
    (admits : ∀ component ∈ value, Level.inBlock.Admits component) :
    ∀ component ∈ declarationComponents name value, Level.inBlock.Admits component := by
  have space : ∀ c ∈ [' '], isSpace c = true := List.all_eq_true.1 (by decide)
  rw [declarationComponents, List.forall_mem_cons, List.forall_mem_cons, List.forall_mem_append]
  exact ⟨⟨sound, fun _ => nofun⟩, ⟨rfl, fun _ => nofun⟩, admits_blanks space .inBlock, admits⟩

/-- The words of a mark, with the gap before them. -/
def markComponents : List Component :=
  blanks [' '] ++ [.token 0 (.delim ['!']), .token 0 (.ident "important".toList)]

theorem sound_important : (Token.ident "important".toList).Sound :=
  ⟨by decide, by decide⟩

theorem spells_mark :
    SpellsBefore [';'] ([' '] ++ (['!'] ++ "important".toList)) (· = markComponents) := by
  have space : ∀ c ∈ [' '], isSpace c = true := List.all_eq_true.1 (by decide)
  have word : SpellsBefore [';'] "important".toList
      (· = [.token 0 (.ident "important".toList)]) :=
    spells_token sound_important rfl (clean_of_all rfl) fun _ => rfl
  have bang : SpellsBefore [';'] (['!'] ++ "important".toList)
      (· = [.token 0 (.delim ['!']), .token 0 (.ident "important".toList)]) := by
    apply (spells_delim (by decide)).append word
    rintro _ _ rfl rfl
    rfl
  apply (spells_blanks space).append bang
  rintro _ _ rfl rfl
  rfl

theorem admits_mark :
    ∀ component ∈ markComponents, Level.inBlock.Admits component ∧ component.isDelim ";" = false := by
  have space : ∀ c ∈ [' '], isSpace c = true := List.all_eq_true.1 (by decide)
  rw [markComponents, List.forall_mem_append]
  constructor
  · intro component member
    exact ⟨admits_blanks space .inBlock component member, isDelim_blanks ";" _ component member⟩
  · rw [List.forall_mem_cons, List.forall_mem_singleton]
    exact ⟨⟨⟨rfl, fun _ => nofun⟩, rfl⟩, ⟨sound_important, fun _ => nofun⟩, rfl⟩

/-- A declaration is a declaration again in a list, if it is read so alone. -/
theorem spellsDeclaration_of {name text : List Char} {value : List Component} {whole : String}
    (sound : (Token.ident name).Sound) (plain : writeIdent name = name)
    (admits : ∀ component ∈ value,
      Level.inBlock.Admits component ∧ component.isDelim ";" = false)
    (spells : SpellsBefore [';'] text (· = value))
    (written : whole.toList = name ++ ([':'] ++ ([' '] ++ text)))
    (reads : declarationText? (Entry.ofDeclaration (.token 0 (.ident name))
      (.token 0 (.delim [':']) :: (blanks [' '] ++ value))) = some whole) :
    SpellsDeclaration whole := by
  rw [SpellsDeclaration, written]
  apply (spells_declaration sound plain spells).mono
  rintro _ rfl
  have areDeclarations := AreDeclarations.ended (admits_declarationComponents sound
    fun component member => (admits component member).1)
  rw [declarationsOf_of_reading (fun component member => (admits component member).2) reads]
    at areDeclarations
  exact areDeclarations

theorem ofDeclaration_value (name : List Char) (value : List Component) :
    Entry.ofDeclaration (.token 0 (.ident name)) (.token 0 (.delim [':']) :: value) =
      if (ValueReading.ofComponents value).mixed then .invalid 0 .block
      else if (ValueReading.ofComponents value).marking = .important then
        .declaration name (ValueReading.ofComponents value).beforeBang true
      else .declaration name value false :=
  rfl

/-- A value that is not marked yet is marked by the words after it. -/
theorem ofComponents_marked {value : List Component}
    (plain : (ValueReading.ofComponents value).marking = .plain) :
    ValueReading.ofComponents
        (value ++ [.token 0 (.delim ['!'])] ++ [.token 0 (.ident "important".toList)]) =
      { ValueReading.ofComponents value with
        marking := .important
        beforeBang := value
        read := value ++ [.token 0 (.delim ['!'])] ++ [.token 0 (.ident "important".toList)] } := by
  have bang : (ValueReading.ofComponents value).step (.token 0 (.delim ['!'])) =
      { ValueReading.ofComponents value with
        marking := .bang
        beforeBang := value
        read := value ++ [.token 0 (.delim ['!'])] } := by
    rw [ValueReading.step, plain, read_ofComponents]
    rfl
  rw [ofComponents_concat, ofComponents_concat, bang]
  rfl

/-- A value without the gaps at its ends is read like the value, wherever it stands. -/
theorem ofComponents_core_gaps {value after : List Component} (sound : SoundAll value)
    (gapsAfter : ∀ gap ∈ after, gap.isGap = true ∧ gap.Sound) :
    SameReading (ValueReading.ofComponents (blanks [' '] ++ (core value ++ after)))
      (ValueReading.ofComponents value) := by
  have space : ∀ c ∈ [' '], isSpace c = true := List.all_eq_true.1 (by decide)
  have around := ofComponents_gaps (core value) (blanks_gaps space) gapsAfter
  have same := ofComponents_core sound
  exact ⟨around.marking.trans same.marking, around.solid.trans same.solid,
    around.mixed.trans same.mixed⟩

section Declaration

variable {name : List Char} {value : List Component}

/-- A legible declaration without a mark is read back from its text. -/
theorem spells_unmarked (sound : (Entry.declaration name value false).Sound)
    (legible : (Entry.declaration name value false).isLegible = true) :
    SpellsDeclaration (String.ofList name ++ ": " ++ trimmedText value ++ "") := by
  obtain ⟨soundName, admits, unmixed, unmarked, _⟩ := sound
  rw [Entry.isLegible, Bool.and_eq_true, beq_iff_eq] at legible
  have soundValue : SoundAll value :=
    soundAll_of_admits fun component member => (admits component member).1
  have space : ∀ c ∈ [' '], isSpace c = true := List.all_eq_true.1 (by decide)
  have same := ofComponents_core_gaps soundValue (List.forall_mem_nil _)
  have trimmed := trimmedText_core_gaps soundValue (blanks_gaps space) (List.forall_mem_nil _)
  rw [List.append_nil] at same trimmed
  apply spellsDeclaration_of soundName legible.1
    (fun component member => admits component (mem_of_mem_core member))
    (spells_piece soundValue legible.2 (by decide))
  · simp [String.toList_append]
  · rw [ofDeclaration_value, same.mixed, unmixed, same.marking, if_neg Bool.false_ne_true,
      if_neg unmarked, declarationText?, trimmed]
    rfl

/-- A legible declaration with a mark is read back from its text. -/
theorem spells_marked (sound : (Entry.declaration name value true).Sound)
    (legible : (Entry.declaration name value true).isLegible = true) :
    SpellsDeclaration (String.ofList name ++ ": " ++ trimmedText value ++ " !important") := by
  obtain ⟨soundName, admits, unmixed, _, plain⟩ := sound
  rw [Entry.isLegible, Bool.and_eq_true, beq_iff_eq] at legible
  have soundValue : SoundAll value :=
    soundAll_of_admits fun component member => (admits component member).1
  have space : ∀ c ∈ [' '], isSpace c = true := List.all_eq_true.1 (by decide)
  have same := ofComponents_core_gaps soundValue (blanks_gaps space)
  have marked := ofComponents_marked (same.marking.trans (plain rfl))
  have spells : SpellsBefore [';'] ((trimmedText value).toList ++ ([' '] ++
      (['!'] ++ "important".toList))) (· = core value ++ markComponents) := by
    apply (spells_piece soundValue legible.2 (by decide)).append spells_mark
    rintro _ _ rfl rfl
    rfl
  have shape : blanks [' '] ++ (core value ++ markComponents) =
      (blanks [' '] ++ (core value ++ blanks [' '])) ++ [.token 0 (.delim ['!'])] ++
        [.token 0 (.ident "important".toList)] := by
    simp [markComponents]
  apply spellsDeclaration_of soundName legible.1 ?_ spells
  · simp [String.toList_append]
  · rw [shape, ofDeclaration_value, marked, same.mixed, unmixed, if_neg Bool.false_ne_true,
      if_pos rfl, declarationText?,
      trimmedText_core_gaps soundValue (blanks_gaps space) (blanks_gaps space)]
    rfl
  · rw [List.forall_mem_append]
    exact ⟨fun component member => admits component (mem_of_mem_core member), admits_mark⟩

end Declaration

/-- A legible entry is read back from its text. -/
theorem spells_entry {entry : Entry} (sound : entry.Sound) (legible : entry.isLegible = true)
    {text : String} (written : declarationText? entry = some text) : SpellsDeclaration text := by
  cases entry with
  | declaration name value important =>
      cases important with
      | false =>
          cases written
          exact spells_unmarked sound legible
      | true =>
          cases written
          exact spells_marked sound legible
  | atRule rule =>
      cases written
      have reads : declarationsOf (ruleComponents rule) =
          [String.ofList (Text.trim rule.write)] := by
        rw [declarationsOf, entries_ruleComponents sound]
        rfl
      rw [SpellsDeclaration, String.toList_ofList, trim_write]
      apply ((spells_atRule sound legible).before [';']).mono
      rintro _ rfl
      have areDeclarations := AreDeclarations.ended (ruleComponents_admits sound)
      rw [reads] at areDeclarations
      rw [trim_write] at areDeclarations
      exact areDeclarations
  | invalid offset cause => cases written

/-! ## Statements -/

mutual

/-- Whether what is kept of a statement in a rule list is kept by its texts: the selectors and
the declarations of a style rule, the condition and the rules of a media rule, and any other
at-rule. -/
def Statement.isLegible (level : Level) : Statement → Bool
  | .style prelude content =>
      (selectorPieces prelude).all isLegiblePiece &&
        (selectorPieces prelude).head?.all level.opens && (entries content).all Entry.isLegible
  | .media prelude inner => isLegiblePiece prelude && Statement.areLegible .inBlock inner
  | .atRule rule => rule.isLegible

/-- Whether what is kept of some statements is kept by its texts. -/
def Statement.areLegible (level : Level) : List Statement → Bool
  | [] => true
  | statement :: rest => statement.isLegible level && Statement.areLegible level rest

end

/-- The pieces of a legible prelude that are kept are legible selectors. -/
theorem legibleSelector_of_mem {level : Level} {prelude piece : List Component}
    (members : ∀ component ∈ prelude, level.Admits component ∧ component.curlyContent? = none)
    (legible : (selectorPieces prelude).all isLegiblePiece = true)
    (member : piece ∈ selectorPieces prelude) : LegibleSelector level piece := by
  obtain ⟨isPiece, filled⟩ := List.mem_filter.1 member
  have origin := mem_splitAtEvery isPiece
  constructor
  · intro component inPiece
    exact members component (origin component inPiece).1
  · intro component inPiece
    exact (origin component inPiece).2
  · simpa using filled
  · exact List.all_eq_true.1 legible piece member

theorem style_spelled {level : Level} {prelude content : List Component}
    (sound : (Statement.style prelude content).Sound level)
    (legible : (Statement.style prelude content).isLegible level = true) :
    (Statement.style prelude content).toRule.Spelled level := by
  rw [Statement.Sound] at sound
  rw [Statement.isLegible, Bool.and_eq_true, Bool.and_eq_true] at legible
  obtain ⟨⟨legiblePieces, opens⟩, legibleEntries⟩ := legible
  have isSelector := fun piece => @legibleSelector_of_mem level prelude piece sound.1 legiblePieces
  rw [Statement.toRule, selectorsOfPrelude_eq, Rule.Spelled]
  refine ⟨?_, ?_, ?_⟩
  · intro text member
    obtain ⟨piece, isPiece, rfl⟩ := List.mem_map.1 member
    exact (isSelector piece isPiece).spells (isSelector piece isPiece).areSelectors.append_gaps
  · intro text isFirst
    rw [List.head?_map] at isFirst
    obtain ⟨piece, isHead, rfl⟩ := Option.map_eq_some_iff.1 isFirst
    have isPiece := List.mem_of_mem_head? isHead
    rw [isHead, Option.all_some] at opens
    have arePrelude := (isSelector piece isPiece).arePrelude opens
    exact (isSelector piece isPiece).spells arePrelude.append_gaps
  · intro text member
    obtain ⟨entry, isEntry, written⟩ := List.mem_filterMap.1 member
    exact spells_entry (entries_sound sound.2 entry isEntry)
      (List.all_eq_true.1 legibleEntries entry isEntry) written

theorem media_spelled {level : Level} {prelude : List Component}
    (admits : ∀ component ∈ prelude, level.AdmitsPrelude component)
    (legible : isLegiblePiece prelude = true) : SpellsCondition level (trimmedText prelude) := by
  have sound : SoundAll prelude :=
    soundAll_of_admits fun component member => (admits component member).1
  apply (spells_piece_space sound legible).mono
  rintro _ ⟨gaps, rfl, areGaps⟩
  constructor
  · rw [List.forall_mem_append]
    exact ⟨fun component member => admits component (mem_of_mem_core member),
      admitsPrelude_gaps areGaps level⟩
  · have trimmed : trimmedText ([] ++ (core prelude ++ gaps)) = trimmedText prelude :=
      trimmedText_core_gaps sound (List.forall_mem_nil _) areGaps
    exact trimmed

mutual

/-- The texts of a legible statement are read as themselves where they are printed. -/
theorem toRule_spelled (level : Level) (statement : Statement) (sound : statement.Sound level)
    (legible : statement.isLegible level = true) : statement.toRule.Spelled level := by
  cases statement with
  | style prelude content => exact style_spelled sound legible
  | media prelude inner =>
      rw [Statement.Sound] at sound
      rw [Statement.isLegible, Bool.and_eq_true] at legible
      rw [Statement.toRule, Rule.Spelled]
      exact ⟨media_spelled sound.1 legible.1, rulesOf_spelled .inBlock inner sound.2 legible.2⟩
  | atRule rule =>
      rw [Statement.Sound] at sound
      rw [Statement.isLegible] at legible
      rw [Statement.toRule, Rule.Spelled, String.toList_ofList, trim_write]
      apply ((spells_atRule sound.2 legible).before ['\n']).mono
      rintro _ rfl
      have areRules := AreRules.atRule sound.2 sound.1
      rw [trim_write] at areRules
      exact areRules

/-- The texts of legible statements are read as themselves where they are printed. -/
theorem rulesOf_spelled (level : Level) (statements : List Statement)
    (sound : Statement.SoundAll level statements)
    (legible : Statement.areLegible level statements = true) :
    Rule.SpelledAll level (rulesOf statements) := by
  cases statements with
  | nil => trivial
  | cons statement rest =>
      rw [Statement.SoundAll] at sound
      rw [Statement.areLegible, Bool.and_eq_true] at legible
      rw [rulesOf, Rule.SpelledAll]
      exact ⟨toRule_spelled level statement sound.1 legible.1,
        rulesOf_spelled level rest sound.2 legible.2⟩

end

/-! ## Sheets -/

/-- Whether what is kept of a source text is kept by its print. -/
def isLegibleSource (source : String) : Bool :=
  match statementsFrom .outermost [] (significantComponents source.toList) with
  | .ok statements => Statement.areLegible .outermost statements
  | .error _ => true

/-- A sheet that is read from a legible source is read back from its print, and so it is
printed again as the same text. -/
theorem parse_print_of_legible (source : String) (sheet : Stylesheet)
    (parsed : Stylesheet.parse source = .ok sheet) (legible : isLegibleSource source = true) :
    Stylesheet.parse sheet.print = .ok sheet ∧
      (Stylesheet.parse sheet.print).map Stylesheet.print = .ok sheet.print := by
  have readBack : Stylesheet.parse sheet.print = .ok sheet := by
    apply parse_print_of_spelled
    rw [Stylesheet.parse] at parsed
    rw [isLegibleSource] at legible
    cases read : statementsFrom .outermost [] (significantComponents source.toList) with
    | error offset =>
        rw [read] at parsed
        cases parsed
    | ok statements =>
        rw [read] at parsed legible
        cases parsed
        have sound := statementsFrom_sound .outermost [] _ (Level.Reads.nil _)
          (admits_outermost (significantComponents_sound source.toList)) read
        exact rulesOf_spelled .outermost statements sound legible
  constructor
  · exact readBack
  · rw [readBack]
    rfl

/-- A media rule in another one, with comments between tokens, an address, a declaration that
is dropped, a value that is marked, and an at-rule whose end is missing. -/
theorem parse_print_of_legible_nested :
    let source := "@media/**/a\x7b@media b\x7bc , d/**/e\x7bf:url(g)h;i\x7d\x7dj\x7bk:'l'!important\x7d\x7d@m"
    let sheet : Stylesheet := ⟨[.media "a" [.media "b" [.style ["c", "d/**/e"] ["f: url(g)h"]],
      .style ["j"] ["k: \"l\" !important"]], .verbatim "@m;"]⟩
    Stylesheet.parse source = .ok sheet ∧ Stylesheet.parse sheet.print = .ok sheet := by
  intro source sheet
  have parsed : Stylesheet.parse source = .ok sheet := by decide +kernel
  have legible : isLegibleSource source = true := by decide +kernel
  exact ⟨parsed, (parse_print_of_legible source sheet parsed legible).1⟩

/-- Whether the sheet of a source text is read back from its print. -/
def IsReadBack (source : String) : Prop :=
  ∀ sheet, Stylesheet.parse source = .ok sheet → Stylesheet.parse sheet.print = .ok sheet

instance (source : String) : Decidable (IsReadBack source) :=
  match parsed : Stylesheet.parse source with
  | .ok sheet =>
      decidable_of_iff (Stylesheet.parse sheet.print = .ok sheet)
        ⟨fun readBack other isOther => by cases parsed.symm.trans isOther; exact readBack,
          fun readBack => readBack sheet parsed⟩
  | .error _ => isTrue fun _ isOther => nomatch parsed.symm.trans isOther

/-- Sources that are not legible: a selector that ends with an escaped blank, the name of a
declaration with an escaped digit, a string without an end, a unit that reads as an exponent
once its escape is resolved, a selector that starts an at-rule once an empty one before it is
dropped, an address with a control character, and tokens that are joined when the comment
between them is dropped. -/
theorem illegible_not_readBack :
    ¬IsReadBack ".a\\ , .b \x7bc:d\x7d" ∧ ¬IsReadBack "x\x7b\\31 a:b\x7d" ∧
      ¬IsReadBack "x\x7ba:\"abc" ∧ ¬IsReadBack "x\x7ba:1\\65 3e\x7d" ∧
        ¬IsReadBack ", @b \x7b\x7d" ∧ ¬IsReadBack "x\x7ba:url(a\\1 b)\x7d" ∧
          ¬IsReadBack "x\x7ba:u/**/+a\x7d" := by
  decide +kernel

end StyleSieve
