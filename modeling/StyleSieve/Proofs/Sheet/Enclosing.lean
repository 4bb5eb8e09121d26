import StyleSieve.Proofs.Css.Containment
import StyleSieve.Proofs.Sheet.Joining
import StyleSieve.Proofs.Sheet.Printing

/-!
# Sheets in media rules

A sheet that leaves nothing open, and in which nothing closes a block around it, may stand in
the block of a media rule, or of media rules that enclose each other.  It has the rules there
that it has alone, and it cannot be read there just if it cannot be read alone.
-/

namespace StyleSieve

open Css Css.Component

/-! ## Texts in media rules -/

/-- A text in media rules that enclose each other, the first condition outermost. -/
def inMedia (conditions : List String) (body : String) : String :=
  conditions.foldr (fun condition inner => "@media " ++ condition ++ " \x7b" ++ inner ++ "\x7d") body

/-- Rules in media rules that enclose each other, the first condition outermost. -/
def Rule.inMedia (conditions : List String) (rules : List Rule) : List Rule :=
  conditions.foldr (fun condition inner => [.media condition inner]) rules

/-- A text that may stand in a block: it leaves no string, address, comment or block open, its
last character does not escape the closer, no closer in it closes the block, and it holds no
delimiter of a markup comment, which only the outermost list passes over. -/
structure StandsInBlock (text : String) : Prop where
  lexemes : endsOpen (normalizeNewlines text.toList) = false
  blocks : Balanced (significant (lexemesFrom 0 (normalizeNewlines text.toList)))
  noEscape : text.toList.getLast? ≠ some '\\'
  noCloser : ∀ component ∈ componentsOf text, component.closer? = none
  noMarkup : ∀ component ∈ componentsOf text,
    component.isDelim "<!--" = false ∧ component.isDelim "-->" = false

instance (text : String) : Decidable (StandsInBlock text) :=
  decidable_of_iff (endsOpen (normalizeNewlines text.toList) = false ∧
      Balanced (significant (lexemesFrom 0 (normalizeNewlines text.toList))) ∧
        text.toList.getLast? ≠ some '\\' ∧
          (∀ component ∈ componentsOf text, component.closer? = none) ∧
            ∀ component ∈ componentsOf text,
              component.isDelim "<!--" = false ∧ component.isDelim "-->" = false)
    ⟨fun ⟨lexemes, blocks, noEscape, noCloser, noMarkup⟩ =>
      ⟨lexemes, blocks, noEscape, noCloser, noMarkup⟩,
      fun stands => ⟨stands.lexemes, stands.blocks, stands.noEscape, stands.noCloser,
        stands.noMarkup⟩⟩

/-! ## The two kinds of rule list -/

theorem Level.step_inBlock (read : List Component) {next : Component}
    (noMarkup : next.isDelim "<!--" = false ∧ next.isDelim "-->" = false) :
    Level.outermost.step read next = Level.inBlock.step read next := by
  have skips : Level.outermost.skips next = Level.inBlock.skips next := by
    simp [Level.skips, noMarkup]
  rw [Level.step, Level.step, skips]

/-- Without delimiters of markup comments, a list is read in a block as it is read outermost. -/
theorem statementsFrom_inBlock {components : List Component}
    (noMarkup : ∀ component ∈ components,
      component.isDelim "<!--" = false ∧ component.isDelim "-->" = false)
    (read : List Component) :
    statementsFrom .outermost read components = statementsFrom .inBlock read components := by
  induction components generalizing read with
  | nil => rw [statementsFrom, statementsFrom]
  | cons next rest ih =>
      obtain ⟨first, others⟩ := List.forall_mem_cons.1 noMarkup
      rw [statementsFrom_cons, statementsFrom_cons, Level.step_inBlock read first, ih others,
        ih others]

/-- The statements of a media rule are those that are read in its block. -/
theorem statementsFrom_media {level : Level} {prelude content : List Component}
    (flat : ∀ component ∈ prelude, level.AdmitsPrelude component) :
    statementsFrom level []
        (.token 0 (.atKeyword "media".toList) :: (prelude ++ [.block 0 .curly content])) =
      (statementsFrom .inBlock [] content).map fun inner => [.media prelude inner] := by
  rw [statementsFrom_mediaRule flat, statementsFrom]
  cases statementsFrom .inBlock [] content <;> rfl

/-! ## Components in a block -/

/-- Components that may stand in a block, and that make up the rules `outcome` in a list of
either kind, or no rules where `outcome` is missing. -/
structure ReadsAs (outcome : Option (List Rule)) (components : List Component) : Prop where
  admits : ∀ component ∈ components, Level.inBlock.Admits component
  reads : ∀ level, (statementsFrom level [] components).toOption.map rulesOf = outcome

/-- A media rule around components encloses the rules that they make up. -/
theorem ReadsAs.media {outcome : Option (List Rule)}
    {prelude content : List Component} (reads : ReadsAs outcome content)
    (flat : ∀ component ∈ prelude, Level.inBlock.AdmitsPrelude component) :
    ReadsAs (outcome.map fun rules => [.media (trimmedText prelude) rules])
      (.token 0 (.atKeyword "media".toList) :: (prelude ++ [.block 0 .curly content])) := by
  constructor
  · exact ruleComponents_admits (sound_media flat reads.admits)
  · intro level
    have flatHere : ∀ component ∈ prelude, level.AdmitsPrelude component := by
      intro component member
      obtain ⟨⟨sound, noCloser⟩, flatComponent⟩ := flat component member
      exact ⟨⟨sound, fun _ => noCloser rfl⟩, flatComponent⟩
    rw [statementsFrom_media flatHere, toOption_map, ← reads.reads .inBlock,
      Option.map_map, Option.map_map]
    rfl

/-- A text that spells components is read as the rules that these make up. -/
theorem parse_of_readsAs {text : String} {outcome : Option (List Rule)}
    (spells : Spells text.toList (ReadsAs outcome)) :
    (Stylesheet.parse text).toOption = outcome.map Stylesheet.mk := by
  obtain ⟨components, readsAs, reads⟩ := spells []
  simp only [List.append_nil, normalizeNewlines, plain_nil] at reads
  have sound := soundAll_of_admits readsAs.admits
  have outcomeHere := readsAs.reads .outermost
  cases found : statementsFrom .outermost [] components with
  | ok statements =>
      rw [found] at outcomeHere
      cases outcomeHere
      rw [(parse_eq_ok_of_reads sound reads).2 ⟨statements, found, rfl⟩]
      rfl
  | error offset =>
      rw [found] at outcomeHere
      cases outcomeHere
      cases parsed : Stylesheet.parse text with
      | error failure => rfl
      | ok sheet =>
          obtain ⟨statements, finds, -⟩ := (parse_eq_ok_of_reads sound reads).1 parsed
          rw [found] at finds
          cases finds

/-! ## Texts in a block -/

theorem getLast?_normalizeNewlines {text : List Char} (noEscape : text.getLast? ≠ some '\\') :
    (normalizeNewlines text).getLast? ≠ some '\\' := by
  rcases List.eq_nil_or_concat text with rfl | ⟨front, c, rfl⟩
  · nofun
  rw [List.concat_eq_append] at noEscape ⊢
  by_cases isFeed : c = '\n'
  · subst isFeed
    cases newlineAfter front [] with
    | own line _ =>
        rw [line, List.getLast?_concat]
        decide
    | shared _ line _ =>
        rw [line, List.getLast?_concat]
        decide
  · have last : c ≠ '\\' := by simpa using noEscape
    rw [normalizeNewlines_append isFeed, normalizeNewlines, normalizeNewlines,
      List.getLast?_concat]
    · intro same
      split at same
      · cases same
      · split at same
        · cases same
        · exact last (Option.some.inj same)
    · intro _ _ nothing
      cases nothing

/-- A text that may stand in a block spells its own components before the closer. -/
theorem StandsInBlock.spells {text : String} (stands : StandsInBlock text) :
    SpellsBefore ['\x7d'] text.toList (· = componentsOf text) := by
  intro rest
  refine ⟨_, rfl, ?_⟩
  have cleanCloser : Clean ['\x7d'] := clean_singleton (by decide)
  have uncut : Uncut (normalizeNewlines text.toList) :=
    ⟨stands.lexemes, getLast?_normalizeNewlines stands.noEscape⟩
  rw [componentsOf, spreadAll_of_balanced stands.blocks, List.singleton_append,
    normalizeNewlines_append (by decide), ← List.singleton_append, cleanCloser.normalize_append,
    List.singleton_append]
  exact (uncut.readBefore (by decide) rfl _).plain_append

theorem StandsInBlock.readsAs {text : String} (stands : StandsInBlock text) :
    ReadsAs ((Stylesheet.parse text).toOption.map (·.rules)) (componentsOf text) := by
  have sound := significantComponents_sound text.toList
  constructor
  · intro component member
    refine ⟨(soundAll_iff _).1 sound component member, fun _ => ?_⟩
    rw [stands.noCloser component member]
    exact (Option.some_ne_none _).symm
  · intro level
    have outermost : (statementsFrom .outermost [] (componentsOf text)).toOption.map rulesOf =
        (Stylesheet.parse text).toOption.map (·.rules) := by
      rw [Stylesheet.parse, componentsOf]
      cases statementsFrom .outermost [] (significantComponents text.toList) <;> rfl
    cases level with
    | outermost => exact outermost
    | inBlock => rw [← statementsFrom_inBlock stands.noMarkup, outermost]

/-- A media rule around a text that spells components spells a media rule. -/
theorem spells_inMedia {condition text : String} (fixed : FixedCondition condition)
    {outcome : Option (List Rule)} (inside : SpellsBefore ['\x7d'] text.toList (ReadsAs outcome)) :
    Spells ("@media " ++ condition ++ " \x7b" ++ text ++ "\x7d").toList
      (ReadsAs (outcome.map fun rules => [.media condition rules])) := by
  have space : ∀ c ∈ [' '], isSpace c = true := List.all_eq_true.1 (by decide)
  have block : Spells ((condition.toList ++ [' ']) ++ ('\x7b' :: (text.toList ++ ['\x7d'])))
      fun components => ReadsAs (outcome.map fun rules => [.media condition rules])
        (.token 0 (.atKeyword "media".toList) :: (blanks [' '] ++ components)) := by
    refine SpellsBefore.append (fixed.spells .inBlock) (spells_curly inside) ?_
    rintro components _ ⟨admits, rfl⟩ ⟨content, readsAs, rfl⟩
    have flat : ∀ component ∈ blanks [' '] ++ components,
        Level.inBlock.AdmitsPrelude component :=
      List.forall_mem_append.2 ⟨admitsPrelude_gaps (blanks_gaps space) .inBlock, admits⟩
    have trimmed : trimmedText (blanks [' '] ++ (components ++ [])) = trimmedText components :=
      trimmedText_gaps components (blanks_gaps space) (by simp)
    have media := readsAs.media flat
    rw [List.append_nil] at trimmed
    rw [trimmed, List.append_assoc] at media
    exact media
  have shape : ("@media " ++ condition ++ " \x7b" ++ text ++ "\x7d").toList =
      "@media ".toList ++ ((condition.toList ++ [' ']) ++ ('\x7b' :: (text.toList ++ ['\x7d']))) := by
    simp [String.toList_append]
  rw [shape]
  refine spells_media.append block ?_
  rintro _ components rfl readsAs
  exact readsAs

/-- A text in media rules spells the media rules, before the closer of a block around them. -/
theorem StandsInBlock.spells_inMedia {body : String} (stands : StandsInBlock body)
    {conditions : List String} (fixed : ∀ condition ∈ conditions, FixedCondition condition) :
    SpellsBefore ['\x7d'] (inMedia conditions body).toList
      (ReadsAs ((Stylesheet.parse body).toOption.map fun sheet =>
        Rule.inMedia conditions sheet.rules)) := by
  induction conditions with
  | nil =>
      refine stands.spells.mono ?_
      rintro _ rfl
      exact stands.readsAs
  | cons condition more ih =>
      obtain ⟨first, others⟩ := List.forall_mem_cons.1 fixed
      have outer := (StyleSieve.spells_inMedia first (ih others)).before ['\x7d']
      rw [Option.map_map] at outer
      exact outer

/-- A sheet that may stand in a block has the rules in media rules that it has alone, with the
media rules around them, and it cannot be read there just if it cannot be read alone. -/
theorem parse_inMedia (conditions : List String) (body : String)
    (fixed : ∀ condition ∈ conditions, FixedCondition condition) (stands : StandsInBlock body) :
    (Stylesheet.parse (inMedia conditions body)).toOption =
      (Stylesheet.parse body).toOption.map fun sheet =>
        ⟨Rule.inMedia conditions sheet.rules⟩ := by
  cases conditions with
  | nil =>
      change (Stylesheet.parse body).toOption = _
      cases Stylesheet.parse body <;> rfl
  | cons condition more =>
      obtain ⟨first, others⟩ := List.forall_mem_cons.1 fixed
      have outer := parse_of_readsAs (StyleSieve.spells_inMedia first (stands.spells_inMedia others))
      rw [Option.map_map, Option.map_map] at outer
      exact outer

/-- Two media rules, the second one with an escape at the end of its condition, around a sheet
with a broken string, a comment, a closer that closes nothing and an at-rule that the end of the
sheet ends, and around a sheet that cannot be read. -/
theorem parse_inMedia_twice :
    let conditions := ["(a: b)", "\\31"]
    let body := "c, d:not(e) \x7bf: \"g\r\x7d /**/ @h (\x7d) i"
    (∀ condition ∈ conditions, FixedCondition condition) ∧ StandsInBlock body ∧
      StandsInBlock "c \x7b\x7d d" ∧
      Stylesheet.parse (inMedia conditions body) = .ok ⟨[.media "(a: b)" [.media "\\31"
        [.style ["c", "d:not(e)"] ["f: \"[bad string]"], .verbatim "@h (\x7d) i;"]]]⟩ ∧
      (Stylesheet.parse (inMedia conditions "c \x7b\x7d d")).toOption = none := by
  intro conditions body
  have fixed : ∀ condition ∈ conditions, FixedCondition condition := by decide +kernel
  have stands : StandsInBlock body := by decide +kernel
  have standsUnread : StandsInBlock "c \x7b\x7d d" := by decide +kernel
  have reads : Stylesheet.parse body =
      .ok ⟨[.style ["c", "d:not(e)"] ["f: \"[bad string]"], .verbatim "@h (\x7d) i;"]⟩ := by
    decide +kernel
  have fails : Stylesheet.parse "c \x7b\x7d d" = .error ⟨⟨1, 6⟩⟩ := by decide +kernel
  refine ⟨fixed, stands, standsUnread, ?_, ?_⟩
  · have outer := parse_inMedia conditions body fixed stands
    rw [reads] at outer
    cases parsed : Stylesheet.parse (inMedia conditions body) with
    | error failure =>
        rw [parsed] at outer
        cases outer
    | ok sheet =>
        rw [parsed] at outer
        exact congrArg Except.ok (Option.some.inj outer)
  · have outer := parse_inMedia conditions _ fixed standsUnread
    rw [fails] at outer
    exact outer

end StyleSieve
