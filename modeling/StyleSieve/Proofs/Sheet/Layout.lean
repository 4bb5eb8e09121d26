import Mathlib.Data.Bool.AllAny
import Mathlib.Data.List.TakeWhile
import StyleSieve.Proofs.Sheet.Listing
import StyleSieve.Proofs.Sheet.Spelling
import StyleSieve.Sheet.Printer

/-!
# The layout of printed rules

A rule is printed with commas, semicolons, blanks and brackets between its texts.  Where each
text is read as itself up to what is printed after it, the rule is read back from its print,
and so are rules one after the other, to any depth.
-/

namespace StyleSieve

open Css Css.Component

/-! ## Preludes -/

/-- A text that is read as components of a kind before a comma, and before a space and a
block. -/
structure SpellsPiece (text : String) (kind : List Component → Prop) : Prop where
  beforeComma : SpellsBefore [','] text.toList kind
  beforeBlock : SpellsBefore ['\x7b'] (text.toList ++ [' ']) kind

theorem blanks_gaps {text : List Char} (areBlank : ∀ c ∈ text, isSpace c = true) :
    ∀ gap ∈ blanks text, gap.isGap = true ∧ gap.Sound := by
  intro gap member
  have admits := admits_blanks areBlank .outermost gap member
  obtain ⟨c, _, rfl⟩ := List.mem_map.1 member
  exact ⟨rfl, admits.1⟩

/-- The prelude of a selector does not consist of gaps only. -/
theorem AreSelectors.dropWhile_ne_nil {level : Level} {components : List Component}
    {first : String} {others : List String}
    (areSelectors : AreSelectors level components (first :: others)) :
    components.dropWhile Component.isGap ≠ [] := by
  intro none
  have parts : components.takeWhile Component.isGap ++ components.dropWhile Component.isGap =
      components := List.takeWhile_append_dropWhile
  rw [none, List.append_nil] at parts
  have nothing : AreSelectors level components [] := by
    apply AreSelectors.gaps
    intro gap member
    have sound := (areSelectors.members gap member).1.1
    rw [← parts] at member
    exact ⟨List.all_eq_true.1 List.all_takeWhile gap member, sound⟩
  have reads := nothing.reads
  rw [areSelectors.reads] at reads
  cases reads

theorem ArePrelude.comma {level : Level} {first second : List Component} {selector : String}
    {others : List String} (arePrelude : ArePrelude level first [selector])
    (areSelectors : AreSelectors level second others) :
    ArePrelude level (first ++ .token 0 (.delim [',']) :: second) (selector :: others) := by
  have filled := arePrelude.dropWhile_ne_nil
  refine ⟨arePrelude.toAreSelectors.comma areSelectors, ?_⟩
  rw [List.dropWhile_append, if_neg (by simpa using filled), List.head?_append_of_ne_nil _ filled]
  exact arePrelude.starts

/-- Gaps after the prelude of a selector do not change how it starts. -/
theorem ArePrelude.append_gaps {level : Level} {components gaps : List Component}
    {selector : String} (arePrelude : ArePrelude level components [selector])
    (areGaps : ∀ gap ∈ gaps, gap.isGap = true ∧ gap.Sound) :
    ArePrelude level (components ++ gaps) [selector] := by
  have filled := arePrelude.dropWhile_ne_nil
  refine ⟨arePrelude.toAreSelectors.append_gaps areGaps, ?_⟩
  rw [List.dropWhile_append, if_neg (by simpa using filled), List.head?_append_of_ne_nil _ filled]
  exact arePrelude.starts

/-- A text that is read alone before a comma, and up to gaps before a block. -/
theorem SpellsPiece.of_gaps {text : String} {components : List Component}
    {kind : List Component → Prop}
    (alone : SpellsBefore [','] text.toList (· = components))
    (spaced : SpellsBefore ['\x7b'] (text.toList ++ [' ']) fun read =>
      ∃ gaps, read = components ++ gaps ∧ ∀ gap ∈ gaps, gap.isGap = true ∧ gap.Sound)
    (append : ∀ {gaps}, (∀ gap ∈ gaps, gap.isGap = true ∧ gap.Sound) → kind (components ++ gaps)) :
    SpellsPiece text kind := by
  constructor
  · apply alone.mono
    rintro _ rfl
    have whole := append (List.forall_mem_nil _)
    rwa [List.append_nil] at whole
  · apply spaced.mono
    rintro _ ⟨gaps, rfl, areGaps⟩
    exact append areGaps

/-- Selectors with commas and line breaks between them spell a prelude, whose kind is that of
the first one. -/
theorem spells_selectors {level : Level} {pad : List Char} (areBlank : ∀ c ∈ pad, isSpace c = true)
    {kind : List Component → List String → Prop}
    (comma : ∀ {components prelude text more}, kind components [text] →
      AreSelectors level prelude more →
        kind (components ++ .token 0 (.delim [',']) :: prelude) (text :: more))
    {first : String} {others : List String} (spellsFirst : SpellsPiece first (kind · [first]))
    (spells : ∀ text ∈ others, SpellsPiece text (AreSelectors level · [text])) :
    SpellsBefore ['\x7b']
      ((',' :: '\n' :: pad).intercalate ((first :: others).map String.toList) ++ [' '])
      (kind · (first :: others)) := by
  match others with
  | [] =>
      rw [List.map_singleton, List.intercalate_singleton]
      exact spellsFirst.beforeBlock
  | second :: more =>
      obtain ⟨spellsSecond, spellsMore⟩ := List.forall_mem_cons.1 spells
      have breaks : ∀ c ∈ '\n' :: pad, isSpace c = true := List.forall_mem_cons.2 ⟨rfl, areBlank⟩
      have later : SpellsBefore ['\x7b'] (('\n' :: pad) ++
          ((',' :: '\n' :: pad).intercalate ((second :: more).map String.toList) ++ [' ']))
          (AreSelectors level · (second :: more)) := by
        refine (spells_blanks breaks).append (spells_selectors areBlank
          (fun areFirst areSecond => areFirst.comma areSecond) spellsSecond spellsMore) ?_
        rintro _ _ rfl areSelectors
        exact areSelectors.gaps_append (blanks_gaps breaks)
      have separated : SpellsBefore ['\x7b'] ([','] ++ (('\n' :: pad) ++
          ((',' :: '\n' :: pad).intercalate ((second :: more).map String.toList) ++ [' '])))
          fun components => ∃ prelude, components = .token 0 (.delim [',']) :: prelude ∧
            AreSelectors level prelude (second :: more) := by
        refine (spells_delim (by decide)).append later ?_
        rintro _ prelude rfl areSelectors
        exact ⟨prelude, rfl, areSelectors⟩
      rw [List.map_cons, List.map_cons, List.intercalate_cons_cons, List.append_assoc,
        List.append_assoc]
      refine spellsFirst.beforeComma.append separated ?_
      rintro components _ isKind ⟨prelude, rfl, areSelectors⟩
      exact comma isKind areSelectors

/-- The selectors of a rule spell its prelude. -/
theorem spells_prelude {level : Level} {pad : List Char} (areBlank : ∀ c ∈ pad, isSpace c = true)
    {kind : List Component → List String → Prop}
    (gaps : ∀ {components}, (∀ gap ∈ components, gap.isGap = true ∧ gap.Sound) →
      kind components [])
    (comma : ∀ {components prelude text more}, kind components [text] →
      AreSelectors level prelude more →
        kind (components ++ .token 0 (.delim [',']) :: prelude) (text :: more))
    {selectors : List String}
    (spells : ∀ text ∈ selectors, SpellsPiece text (AreSelectors level · [text]))
    (spellsFirst : ∀ text ∈ selectors.head?, SpellsPiece text (kind · [text])) :
    SpellsBefore ['\x7b']
      ((',' :: '\n' :: pad).intercalate (selectors.map String.toList) ++ [' '])
      (kind · selectors) := by
  cases selectors with
  | nil =>
      have space : ∀ c ∈ [' '], isSpace c = true := List.all_eq_true.1 (by decide)
      refine ((spells_blanks space).before _).mono ?_
      rintro _ rfl
      exact gaps (blanks_gaps space)
  | cons first others =>
      obtain ⟨_, spellsOthers⟩ := List.forall_mem_cons.1 spells
      exact spells_selectors areBlank comma (spellsFirst first rfl) spellsOthers

theorem ArePrelude.gaps {gaps : List Component}
    (areGaps : ∀ gap ∈ gaps, gap.isGap = true ∧ gap.Sound) (level : Level) :
    ArePrelude level gaps [] := by
  refine ⟨.gaps areGaps level, ?_⟩
  have nothing : gaps.dropWhile Component.isGap = [] := by
    rw [List.dropWhile_eq_nil_iff]
    exact fun gap member => (areGaps gap member).1
  rw [nothing]
  exact fun first isFirst => by cases isFirst

/-! ## Declarations -/

/-- A text that is read as one declaration, or as one at-rule among declarations, before the
semicolon that is printed after it. -/
def SpellsDeclaration (text : String) : Prop :=
  SpellsBefore [';'] text.toList
    fun components => AreDeclarations (components ++ [.token 0 (.delim [';'])]) [text]

/-- Declarations, each on a line of its own, spell themselves. -/
theorem spells_declarations {pad : List Char} (areBlank : ∀ c ∈ pad, isSpace c = true)
    {declarations : List String} (spells : ∀ text ∈ declarations, SpellsDeclaration text) :
    Spells (declarations.flatMap fun text => pad ++ (text.toList ++ [';', '\n']))
      (AreDeclarations · declarations) := by
  induction declarations with
  | nil =>
      have nothing : ∀ c ∈ ([] : List Char), isSpace c = true := by simp
      refine (spells_blanks nothing).mono ?_
      rintro _ rfl
      exact .blanks nothing
  | cons text others ih =>
      obtain ⟨spellsText, spellsOthers⟩ := List.forall_mem_cons.1 spells
      have lineBreak : ∀ c ∈ ['\n'], isSpace c = true := List.all_eq_true.1 (by decide)
      have ended : Spells ([';'] ++ ['\n'])
          (· = [.token 0 (.delim [';'])] ++ blanks ['\n']) := by
        refine (spells_delim (by decide)).append (spells_blanks lineBreak) ?_
        rintro _ _ rfl rfl
        rfl
      have declared : Spells (text.toList ++ ([';'] ++ ['\n'])) (AreDeclarations · [text]) := by
        refine SpellsBefore.append spellsText ended ?_
        rintro components _ isDeclaration rfl
        have areDeclarations := isDeclaration.append (.blanks lineBreak)
        rw [List.append_assoc] at areDeclarations
        exact areDeclarations
      have line : Spells (pad ++ (text.toList ++ [';', '\n'])) (AreDeclarations · [text]) := by
        refine (spells_blanks areBlank).append declared ?_
        rintro _ _ rfl areDeclarations
        exact (AreDeclarations.blanks areBlank).append areDeclarations
      rw [List.flatMap_cons]
      exact line.append (ih spellsOthers) fun _ _ first later => first.append later

/-! ## Texts of rules -/

/-- The indentation at a nesting depth as characters. -/
def padding (depth : Nat) : List Char :=
  List.replicate (2 * depth) ' '

theorem toList_indentation (depth : Nat) : (indentation depth).toList = padding depth :=
  String.toList_ofList

theorem padding_blank (depth : Nat) : ∀ c ∈ padding depth, isSpace c = true := by
  intro c member
  rw [List.eq_of_mem_replicate member]
  rfl

theorem toList_print_style (depth : Nat) (selectors declarations : List String) :
    (Rule.print depth (.style selectors declarations)).toList =
      padding depth ++
        (((',' :: '\n' :: padding depth).intercalate (selectors.map String.toList) ++ [' ']) ++
          ('\x7b' :: (('\n' :: (declarations.flatMap (fun text =>
            padding (depth + 1) ++ (text.toList ++ [';', '\n'])) ++ padding depth)) ++
              ['\x7d']))) := by
  have body : ((declarations.map fun text => indentation (depth + 1) ++ text ++ ";\n").map
      String.toList).flatten =
      declarations.flatMap fun text => padding (depth + 1) ++ (text.toList ++ [';', '\n']) := by
    rw [List.map_map, List.flatMap_def]
    refine congrArg List.flatten (List.map_congr_left fun text _ => ?_)
    simp [String.toList_append, toList_indentation]
  rw [Rule.print]
  simp [String.toList_append, String.toList_intercalate, String.toList_join, toList_indentation,
    ← body, List.flatMap_def]

theorem toList_print_media (depth : Nat) (condition : String) (rules : List Rule) :
    (Rule.print depth (.media condition rules)).toList =
      padding depth ++ ("@media ".toList ++ ((condition.toList ++ [' ']) ++
        ('\x7b' :: (('\n' :: ((['\n'].intercalate
          ((Rule.printAll (depth + 1) rules).map String.toList) ++ ['\n']) ++ padding depth)) ++
            ['\x7d'])))) := by
  rw [Rule.print]
  simp [String.toList_append, String.toList_intercalate, toList_indentation]

/-- The keyword of a media rule, with the space after it. -/
theorem spells_media :
    Spells "@media ".toList (· = .token 0 (.atKeyword "media".toList) :: blanks [' ']) := by
  have sound : Token.Sound (.atKeyword "media".toList) := ⟨by decide, by decide⟩
  have space : ∀ c ∈ [' '], isSpace c = true := List.all_eq_true.1 (by decide)
  have clean : Clean [' '] := clean_of_all rfl
  have keyword : SpellsBefore [' '] "@media".toList (· = [.token 0 (.atKeyword "media".toList)]) :=
    spells_token sound rfl clean fun _ => rfl
  have spaced : Spells ([' '] ++ []) (· = blanks [' ']) := spells_blanks space
  refine keyword.append spaced ?_
  rintro _ _ rfl rfl
  rfl

/-! ## Rules -/

theorem spells_blanks_append {blankText text next : List Char} {kind : List Component → Prop}
    (areBlank : ∀ c ∈ blankText, isSpace c = true) (spells : SpellsBefore next text kind)
    (compose : ∀ components, kind components → kind (blanks blankText ++ components)) :
    SpellsBefore next (blankText ++ text) kind := by
  refine (spells_blanks areBlank).append spells ?_
  rintro _ components rfl isKind
  exact compose components isKind

theorem spells_append_blanks {blankText text : List Char} {kind : List Component → Prop}
    (areBlank : ∀ c ∈ blankText, isSpace c = true) (spells : Spells text kind)
    (compose : ∀ components, kind components → kind (components ++ blanks blankText)) :
    Spells (text ++ blankText) kind := by
  refine spells.append (spells_blanks areBlank) ?_
  rintro components _ isKind rfl
  exact compose components isKind

theorem AreDeclarations.pad {blankText : List Char} (areBlank : ∀ c ∈ blankText, isSpace c = true)
    {components : List Component} {declarations : List String}
    (areDeclarations : AreDeclarations components declarations) :
    AreDeclarations (StyleSieve.blanks blankText ++ components) declarations ∧
      AreDeclarations (components ++ StyleSieve.blanks blankText) declarations := by
  have last := areDeclarations.append (.blanks areBlank)
  rw [List.append_nil] at last
  exact ⟨(AreDeclarations.blanks areBlank).append areDeclarations, last⟩

/-- Components that spell rules in some sense: blanks spell none, and components one after
the other spell the rules of both. -/
structure Composes (kind : List Component → List Rule → Prop) : Prop where
  blanks : ∀ {text}, (∀ c ∈ text, isSpace c = true) → kind (StyleSieve.blanks text) []
  append : ∀ {components others rules more}, kind components rules → kind others more →
    kind (components ++ others) (rules ++ more)

theorem AreRules.composes (level : Level) : Composes (AreRules level) :=
  ⟨fun areBlank => .blanks areBlank level, fun first second => first.append second⟩

theorem Composes.pad {kind : List Component → List Rule → Prop} (composes : Composes kind)
    {blankText : List Char} (areBlank : ∀ c ∈ blankText, isSpace c = true)
    {components : List Component} {rules : List Rule} (isKind : kind components rules) :
    kind (StyleSieve.blanks blankText ++ components) rules ∧
      kind (components ++ StyleSieve.blanks blankText) rules := by
  have last := composes.append isKind (composes.blanks areBlank)
  rw [List.append_nil] at last
  exact ⟨composes.append (composes.blanks areBlank) isKind, last⟩

/-! ## Rules whose texts spell themselves -/

/-- A text that is read as the condition of a media rule before a space and a block. -/
def SpellsCondition (level : Level) (text : String) : Prop :=
  SpellsBefore ['\x7b'] (text.toList ++ [' ']) fun components =>
    (∀ component ∈ components, level.AdmitsPrelude component) ∧ trimmedText components = text

namespace Rule

mutual

/-- A rule in a list whose texts are read as themselves where they are printed. -/
def Spelled (level : Level) : Rule → Prop
  | .style selectors declarations =>
      (∀ text ∈ selectors, SpellsPiece text (AreSelectors level · [text])) ∧
        (∀ text ∈ selectors.head?, SpellsPiece text (ArePrelude level · [text])) ∧
          ∀ text ∈ declarations, SpellsDeclaration text
  | .media condition rules => SpellsCondition level condition ∧ SpelledAll .inBlock rules
  | .verbatim text => SpellsBefore ['\n'] text.toList (AreRules level · [.verbatim text])

/-- Rules of a list whose texts are read as themselves where they are printed. -/
def SpelledAll (level : Level) : List Rule → Prop
  | [] => True
  | rule :: rest => rule.Spelled level ∧ SpelledAll level rest

end

end Rule

section Composed

variable {kind : List Component → List Rule → Prop} (composes : Composes kind)

include composes

/-- A style rule is spelled where its prelude and its declarations are. -/
theorem spells_style (depth : Nat) {selectors declarations : List String}
    {isPrelude : List Component → Prop}
    (spellsPrelude : SpellsBefore ['\x7b']
      ((',' :: '\n' :: padding depth).intercalate (selectors.map String.toList) ++ [' '])
      isPrelude)
    (spells : ∀ text ∈ declarations, SpellsDeclaration text)
    (style : ∀ {prelude content}, isPrelude prelude → AreDeclarations content declarations →
      kind (prelude ++ [.block 0 .curly content]) [.style selectors declarations]) :
    Spells (Rule.print depth (.style selectors declarations)).toList
      (kind · [.style selectors declarations]) := by
  have areBlank := padding_blank depth
  have lineBreak : ∀ c ∈ ['\n'], isSpace c = true := List.all_eq_true.1 (by decide)
  have lines := spells_declarations (padding_blank (depth + 1)) spells
  have inside := spells_blanks_append lineBreak
    (spells_append_blanks areBlank lines fun _ areDeclarations => (areDeclarations.pad areBlank).2)
    fun _ areDeclarations => (areDeclarations.pad lineBreak).1
  have rule : Spells (((',' :: '\n' :: padding depth).intercalate (selectors.map String.toList) ++
      [' ']) ++ ('\x7b' :: (('\n' :: (declarations.flatMap (fun text =>
        padding (depth + 1) ++ (text.toList ++ [';', '\n'])) ++ padding depth)) ++ ['\x7d'])))
      (kind · [.style selectors declarations]) := by
    refine spellsPrelude.append (spells_curly (Spells.before inside ['\x7d'])) ?_
    rintro _ _ arePrelude ⟨content, areDeclarations, rfl⟩
    exact style arePrelude areDeclarations
  rw [toList_print_style]
  exact spells_blanks_append areBlank rule fun _ isKind => (composes.pad areBlank isKind).1

/-- A media rule is spelled where the rules in it are. -/
theorem spells_mediaRule {inner : List Component → List Rule → Prop}
    (composesInner : Composes inner) {level : Level} (depth : Nat) {condition : String}
    {rules : List Rule} (spells : SpellsCondition level condition)
    (inside : Spells (['\n'].intercalate ((Rule.printAll (depth + 1) rules).map String.toList) ++
      ['\n']) (inner · rules))
    (media : ∀ {prelude content}, (∀ component ∈ prelude, level.AdmitsPrelude component) →
      inner content rules → kind (.token 0 (.atKeyword "media".toList) ::
        (prelude ++ [.block 0 .curly content])) [.media (trimmedText prelude) rules]) :
    Spells (Rule.print depth (.media condition rules)).toList
      (kind · [.media condition rules]) := by
  have areBlank := padding_blank depth
  have lineBreak : ∀ c ∈ ['\n'], isSpace c = true := List.all_eq_true.1 (by decide)
  have space : ∀ c ∈ [' '], isSpace c = true := List.all_eq_true.1 (by decide)
  have content := spells_blanks_append lineBreak
    (spells_append_blanks areBlank inside fun _ isKind => (composesInner.pad areBlank isKind).2)
    fun _ isKind => (composesInner.pad lineBreak isKind).1
  have ruleBlock : Spells ((condition.toList ++ [' ']) ++ ('\x7b' :: (('\n' ::
      ((['\n'].intercalate ((Rule.printAll (depth + 1) rules).map String.toList) ++ ['\n']) ++
        padding depth)) ++ ['\x7d']))) fun components =>
      kind (.token 0 (.atKeyword "media".toList) :: (blanks [' '] ++ components))
        [.media condition rules] := by
    refine SpellsBefore.append spells (spells_curly (Spells.before content ['\x7d'])) ?_
    rintro components _ ⟨admits, rfl⟩ ⟨content, isKind, rfl⟩
    have admitsAll : ∀ component ∈ blanks [' '] ++ components, level.AdmitsPrelude component :=
      List.forall_mem_append.2 ⟨admitsPrelude_gaps (blanks_gaps space) level, admits⟩
    have isMedia := media admitsAll isKind
    have trimmed : trimmedText (blanks [' '] ++ (components ++ [])) = trimmedText components :=
      trimmedText_gaps components (blanks_gaps space) (by simp)
    rw [List.append_nil] at trimmed
    rw [trimmed, List.append_assoc] at isMedia
    exact isMedia
  rw [toList_print_media]
  refine spells_blanks_append areBlank ?_ fun _ isKind => (composes.pad areBlank isKind).1
  refine spells_media.append ruleBlock ?_
  rintro _ components rfl isKind
  exact isKind

/-- A text before a line break, and the text after the break and some blanks. -/
theorem spells_line {blankText text more : List Char} {rules others : List Rule}
    (areBlank : ∀ c ∈ blankText, isSpace c = true)
    (spells : SpellsBefore ['\n'] text (kind · rules)) (later : Spells more (kind · others)) :
    Spells (text ++ (['\n'] ++ (blankText ++ more))) (kind · (rules ++ others)) := by
  have lineBreak : ∀ c ∈ ['\n'], isSpace c = true := List.all_eq_true.1 (by decide)
  have padded := spells_blanks_append areBlank later fun _ isKind =>
    (composes.pad areBlank isKind).1
  have broken := spells_blanks_append lineBreak padded fun _ isKind =>
    (composes.pad lineBreak isKind).1
  exact spells.append broken fun _ _ first second => composes.append first second

/-- Rules that are spelled, with line breaks and blanks between them, are spelled together. -/
theorem spells_lines (depth : Nat) {blankText : List Char}
    (areBlank : ∀ c ∈ blankText, isSpace c = true) (rules : List Rule)
    (spells : ∀ rule ∈ rules, SpellsBefore ['\n'] (rule.print depth).toList (kind · [rule])) :
    Spells (('\n' :: blankText).intercalate ((Rule.printAll depth rules).map String.toList) ++
      ['\n']) (kind · rules) := by
  have nothing : ∀ c ∈ ([] : List Char), isSpace c = true := by simp
  have none : Spells [] (kind · []) := by
    refine (spells_blanks nothing).mono ?_
    rintro _ rfl
    exact composes.blanks nothing
  match rules with
  | [] =>
      have lineBreak : ∀ c ∈ ['\n'], isSpace c = true := List.all_eq_true.1 (by decide)
      exact spells_append_blanks lineBreak none fun _ isKind => (composes.pad lineBreak isKind).2
  | [rule] =>
      have line := spells_line composes nothing (spells rule List.mem_cons_self) none
      simpa [Rule.printAll] using line
  | rule :: next :: rest =>
      obtain ⟨spellsRule, spellsRest⟩ := List.forall_mem_cons.1 spells
      have lines := spells_line composes areBlank spellsRule
        (spells_lines depth areBlank (next :: rest) spellsRest)
      rw [Rule.printAll] at lines ⊢
      rw [Rule.printAll, List.map_cons, List.map_cons, List.intercalate_cons_cons]
      simpa using lines

end Composed

mutual

/-- A rule whose texts are read as themselves is read back from its print. -/
theorem spells_rule (level : Level) (depth : Nat) (rule : Rule) (spelled : rule.Spelled level) :
    SpellsBefore ['\n'] (rule.print depth).toList (AreRules level · [rule]) := by
  cases rule with
  | style selectors declarations =>
      rw [Rule.Spelled] at spelled
      have spellsPrelude := spells_prelude (padding_blank depth)
        (fun areGaps => ArePrelude.gaps areGaps level)
        (fun arePrelude areSelectors => arePrelude.comma areSelectors) spelled.1 spelled.2.1
      exact (spells_style (AreRules.composes level) depth spellsPrelude spelled.2.2
        fun arePrelude areDeclarations => .style arePrelude areDeclarations).before ['\n']
  | media condition rules =>
      rw [Rule.Spelled] at spelled
      have nothing : ∀ c ∈ ([] : List Char), isSpace c = true := by simp
      have inside := spells_lines (AreRules.composes .inBlock) (depth + 1) nothing rules
        (spells_each .inBlock (depth + 1) rules spelled.2)
      exact (spells_mediaRule (AreRules.composes level) (AreRules.composes .inBlock) depth
        spelled.1 inside fun admits areRules => .media admits areRules).before ['\n']
  | verbatim text =>
      rw [Rule.Spelled] at spelled
      have areBlank := padding_blank depth
      rw [Rule.print, String.toList_append, toList_indentation]
      exact spells_blanks_append areBlank spelled fun _ areRules =>
        ((AreRules.composes level).pad areBlank areRules).1

/-- Each of some rules whose texts are read as themselves is read back from its print. -/
theorem spells_each (level : Level) (depth : Nat) (rules : List Rule)
    (spelled : Rule.SpelledAll level rules) :
    ∀ rule ∈ rules, SpellsBefore ['\n'] (rule.print depth).toList (AreRules level · [rule]) := by
  cases rules with
  | nil => exact List.forall_mem_nil _
  | cons rule rest =>
      rw [Rule.SpelledAll] at spelled
      exact List.forall_mem_cons.2
        ⟨spells_rule level depth rule spelled.1, spells_each level depth rest spelled.2⟩

end

/-! ## Sheets -/

/-- A text is read as the rules of the components that it spells. -/
theorem parse_eq_ok_of_reads {text : String} {components : List Component}
    (sound : SoundAll components) (reads : plain (normalizeNewlines text.toList) =
      spreadAll (settledAll components)) {rules : List Rule} :
    Stylesheet.parse text = .ok ⟨rules⟩ ↔
      ∃ found, statementsFrom .outermost [] components = .ok found ∧ rulesOf found = rules := by
  have settled : settledAll (significantComponents text.toList) = settledAll components := by
    rw [settledAll_significantComponents, reads, nest_spreadAll_nil (settledAll_sound _ sound)]
  have same := toOption_rules (significantComponents_sound text.toList)
  rw [settled, ← toOption_rules sound] at same
  rw [Stylesheet.parse]
  cases parsed : statementsFrom .outermost [] (significantComponents text.toList) with
  | error offset =>
      rw [parsed] at same
      cases read : statementsFrom .outermost [] components with
      | error other => simp
      | ok found =>
          rw [read] at same
          cases same
  | ok statements =>
      rw [parsed] at same
      cases read : statementsFrom .outermost [] components with
      | error other =>
          rw [read] at same
          cases same
      | ok found =>
          rw [read] at same
          have sameRules : rulesOf statements = rulesOf found := Option.some.inj same
          simp [sameRules]

/-- A text that spells rules is read as a sheet of these rules. -/
theorem parse_of_spells {text : String} {rules : List Rule}
    (spells : Spells text.toList (AreRules .outermost · rules)) :
    Stylesheet.parse text = .ok ⟨rules⟩ := by
  obtain ⟨components, areRules, reads⟩ := spells []
  obtain ⟨found, finds, rulesFound⟩ := areRules.statements
  simp only [List.append_nil, normalizeNewlines, plain_nil] at reads
  rw [parse_eq_ok_of_reads (soundAll_of_admits areRules.admits) reads]
  exact ⟨found, statementsFrom_of_append finds, rulesFound⟩

/-- A printed sheet is spelled where its rules are. -/
theorem spells_sheet {kind : List Component → List Rule → Prop} (composes : Composes kind)
    (sheet : Stylesheet)
    (spells : ∀ rule ∈ sheet.rules, SpellsBefore ['\n'] (rule.print 0).toList (kind · [rule])) :
    Spells sheet.print.toList (kind · sheet.rules) := by
  rw [Stylesheet.print]
  split
  · rename_i isEmpty
    have nothing : ∀ c ∈ "".toList, isSpace c = true := by simp
    rw [List.isEmpty_iff.1 isEmpty]
    refine (spells_blanks nothing).mono ?_
    rintro _ rfl
    exact composes.blanks nothing
  · have lineBreak : ∀ c ∈ ['\n'], isSpace c = true := List.all_eq_true.1 (by decide)
    rw [String.toList_append, String.toList_intercalate]
    exact spells_lines composes 0 lineBreak sheet.rules spells

/-- A sheet whose texts are read as themselves is read back from its print. -/
theorem parse_print_of_spelled {sheet : Stylesheet}
    (spelled : Rule.SpelledAll .outermost sheet.rules) :
    Stylesheet.parse sheet.print = .ok sheet :=
  parse_of_spells (spells_sheet (AreRules.composes .outermost) sheet
    (spells_each .outermost 0 sheet.rules spelled))

end StyleSieve
