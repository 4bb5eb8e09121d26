import StyleSieve.Proofs.Sheet.Edges

/-!
# Lists that compose

Components that are declarations, the prelude of a style rule or rules, wherever they stand
in their list.  They compose: those of a list are those of its parts.
-/

namespace StyleSieve

open Css Css.Component

/-! ## Declarations -/

/-- Some components are declarations in a list, wherever they stand in it. -/
structure AreDeclarations (components : List Component) (declarations : List String) : Prop where
  admits : ∀ component ∈ components, Level.inBlock.Admits component
  entries : ∃ found, (∀ more, entriesFrom [] (components ++ more) = found ++ entriesFrom [] more) ∧
    found.filterMap declarationText? = declarations

theorem AreDeclarations.append {components others : List Component}
    {declarations more : List String} (first : AreDeclarations components declarations)
    (second : AreDeclarations others more) :
    AreDeclarations (components ++ others) (declarations ++ more) := by
  obtain ⟨found, read, rfl⟩ := first.entries
  obtain ⟨foundMore, readMore, rfl⟩ := second.entries
  constructor
  · exact List.forall_mem_append.2 ⟨first.admits, second.admits⟩
  · refine ⟨found ++ foundMore, ?_, List.filterMap_append⟩
    intro rest
    rw [List.append_assoc, read, readMore, List.append_assoc]

theorem admits_blanks {text : List Char} (areBlank : ∀ c ∈ text, isSpace c = true) (level : Level) :
    ∀ component ∈ blanks text, level.Admits component := by
  intro component member
  obtain ⟨c, inText, rfl⟩ := List.mem_map.1 member
  refine ⟨⟨by simp, ?_⟩, fun _ => nofun⟩
  intro d isChar
  rw [List.mem_singleton.1 isChar]
  exact areBlank c inText

theorem AreDeclarations.blanks {text : List Char} (areBlank : ∀ c ∈ text, isSpace c = true) :
    AreDeclarations (blanks text) [] := by
  constructor
  · exact admits_blanks areBlank .inBlock
  · refine ⟨[], ?_, rfl⟩
    intro more
    rw [entriesFrom_blanks]
    rfl

/-- A semicolon ends an entry. -/
theorem entriesFrom_semicolon (read : List Component) {semicolon : Component}
    (isEnd : semicolon.isDelim ";" = true) (more : List Component) :
    entriesFrom read (semicolon :: more) =
      entriesFrom.finish read none ++ entriesFrom [] more := by
  rw [entriesFrom, isEnd]
  simp

/-- A semicolon ends what is read before it, whatever that is. -/
theorem entriesFrom_append_semicolon (read components : List Component) {semicolon : Component}
    (isEnd : semicolon.isDelim ";" = true) (more : List Component) :
    entriesFrom read (components ++ semicolon :: more) =
      entriesFrom read components ++ entriesFrom [] more := by
  induction components generalizing read with
  | nil => exact entriesFrom_semicolon read isEnd more
  | cons next rest ih =>
      rw [List.cons_append, entriesFrom_cons, entriesFrom_cons]
      cases endedBody? read next with
      | some body =>
          dsimp only
          rw [ih, List.append_assoc]
      | none => exact ih (entryStep read next)

/-- A component that is no gap starts an entry. -/
theorem entriesFrom_first {first : Component} (counts : first.isGap = false)
    (endless : first.isDelim ";" = false) (more : List Component) :
    entriesFrom [] (first :: more) = entriesFrom [first] more := by
  rw [entriesFrom, endless]
  simp [startsAtRule, counts]

/-- Components before a semicolon are the declarations that they are alone. -/
theorem AreDeclarations.ended {components : List Component}
    (admits : ∀ component ∈ components, Level.inBlock.Admits component) :
    AreDeclarations (components ++ [.token 0 (.delim [';'])]) (declarationsOf components) := by
  constructor
  · exact List.forall_mem_append.2 ⟨admits, List.forall_mem_singleton.2 ⟨rfl, fun _ => nofun⟩⟩
  · refine ⟨Css.entries components, ?_, rfl⟩
    intro more
    rw [List.append_assoc, List.singleton_append, entriesFrom_append_semicolon [] _ rfl]
    rfl

theorem AreDeclarations.declarationsOf_eq {components : List Component}
    {declarations : List String} (areDeclarations : AreDeclarations components declarations) :
    declarationsOf components = declarations := by
  obtain ⟨found, read, rfl⟩ := areDeclarations.entries
  have whole := read []
  rw [List.append_nil] at whole
  rw [declarationsOf, Css.entries, whole, List.filterMap_append]
  exact List.append_nil _

/-! ## At-rules -/

/-- The components of an at-rule, its end included. -/
def ruleComponents (rule : AtRule) : List Component :=
  .token 0 (.atKeyword rule.name) :: (rule.prelude ++
    match rule.body with
    | none => [.token 0 (.delim [';'])]
    | some content => [.block 0 .curly content])

theorem ruleComponents_admits {level : Level} {rule : AtRule} (sound : rule.Sound level) :
    ∀ component ∈ ruleComponents rule, level.Admits component := by
  obtain ⟨soundName, admits, inside⟩ := sound
  intro component member
  rcases List.mem_cons.1 member with rfl | later
  · exact ⟨soundName, fun _ => nofun⟩
  · rcases List.mem_append.1 later with inPrelude | isEnd
    · exact (admits component inPrelude).1
    · cases isBody : rule.body with
      | none =>
          rw [isBody] at isEnd
          rw [List.mem_singleton.1 isEnd]
          exact ⟨rfl, fun _ => nofun⟩
      | some content =>
          rw [isBody] at isEnd
          rw [List.mem_singleton.1 isEnd]
          exact ⟨(sound_curly 0 content).2 (inside content isBody), fun _ => nofun⟩

/-- An at-rule among declarations is one entry. -/
theorem entries_ruleComponents {rule : AtRule} (sound : rule.Sound .inBlock) :
    Css.entries (ruleComponents rule) = [.atRule rule] := by
  obtain ⟨name, prelude, body⟩ := rule
  obtain ⟨_, admits, _⟩ := sound
  rw [Css.entries, ruleComponents, entriesFrom_first rfl rfl,
    entriesFrom_read (List.cons_ne_nil _ _) prelude _
      (fun component member => (admits component member).2.2)
      fun _ component member => (admits component member).2.1]
  cases body with
  | none =>
      rw [entriesFrom_semicolon _ rfl]
      rfl
  | some content =>
      rw [entriesFrom]
      rfl

/-! ## Preludes -/

theorem splitAtEvery_append_separator {separates : Component → Bool} {separator : Component}
    (separated : separates separator = true) (first second : List Component) :
    splitAtEvery separates (first ++ separator :: second) =
      splitAtEvery separates first ++ splitAtEvery separates second := by
  induction first with
  | nil => exact splitAtEvery_separator separated second
  | cons next rest ih =>
      obtain ⟨piece, pieces, split⟩ := exists_splitAtEvery separates rest
      rw [split] at ih
      rw [List.cons_append]
      cases separatedNext : separates next with
      | true =>
          rw [splitAtEvery_separator separatedNext, splitAtEvery_separator separatedNext, ih, split]
          rfl
      | false =>
          rw [splitAtEvery_other separatedNext ih, splitAtEvery_other separatedNext split]
          rfl

/-- The selectors before a comma stand before those after it. -/
theorem selectorsOfPrelude_comma {comma : Component} (isComma : comma.isDelim "," = true)
    (first second : List Component) :
    selectorsOfPrelude (first ++ comma :: second) =
      selectorsOfPrelude first ++ selectorsOfPrelude second := by
  rw [selectorsOfPrelude, splitAtEvery_append_separator isComma, List.map_append,
    List.filter_append]
  rfl

theorem isDelim_of_isGap {component : Component} (isGap : component.isGap = true)
    (text : String) : component.isDelim text = false := by
  cases component with
  | block offset opening content => rfl
  | token offset value =>
      cases value with
      | delim other => cases isGap
      | _ => rfl

/-- Gaps before a prelude do not change its selectors. -/
theorem selectorsOfPrelude_gaps {gaps : List Component}
    (areGaps : ∀ component ∈ gaps, component.isGap = true ∧ component.Sound)
    (components : List Component) :
    selectorsOfPrelude (gaps ++ components) = selectorsOfPrelude components := by
  obtain ⟨piece, pieces, split⟩ := exists_splitAtEvery (·.isDelim ",") components
  have others : ∀ component ∈ gaps, component.isDelim "," = false :=
    fun component member => isDelim_of_isGap (areGaps component member).1 ","
  have trimmed : trimmedText (gaps ++ (piece ++ [])) = trimmedText piece :=
    trimmedText_gaps piece areGaps (by simp)
  rw [List.append_nil] at trimmed
  rw [selectorsOfPrelude, selectorsOfPrelude, splitAtEvery_append others split, split,
    List.map_cons, List.map_cons, trimmed]

theorem selectorsOfPrelude_dropWhile {components : List Component} (sound : SoundAll components) :
    selectorsOfPrelude (components.dropWhile Component.isGap) = selectorsOfPrelude components := by
  have parts : components.takeWhile Component.isGap ++ components.dropWhile Component.isGap =
      components := List.takeWhile_append_dropWhile
  rw [soundAll_iff] at sound
  conv_rhs => rw [← parts]
  refine (selectorsOfPrelude_gaps ?_ _).symm
  intro component member
  exact ⟨List.all_eq_true.1 List.all_takeWhile component member,
    sound component ((List.takeWhile_sublist _).subset member)⟩

theorem splitAtEvery_concat {separates : Component → Bool} (components : List Component)
    {gaps : List Component} (others : ∀ component ∈ gaps, separates component = false) :
    ∃ pieces piece, splitAtEvery separates components = pieces ++ [piece] ∧
      splitAtEvery separates (components ++ gaps) = pieces ++ [piece ++ gaps] := by
  induction components with
  | nil =>
      have nothing : splitAtEvery separates [] = [] :: [] := rfl
      have split := splitAtEvery_append others nothing
      rw [List.append_nil] at split
      exact ⟨[], [], rfl, split⟩
  | cons next rest ih =>
      obtain ⟨pieces, piece, split, splitGaps⟩ := ih
      cases separated : separates next with
      | true =>
          refine ⟨[] :: pieces, piece, ?_, ?_⟩
          · rw [splitAtEvery_separator separated, split, List.cons_append]
          · rw [List.cons_append, splitAtEvery_separator separated, splitGaps, List.cons_append]
      | false =>
          cases pieces with
          | nil =>
              refine ⟨[], next :: piece, ?_, ?_⟩
              · exact splitAtEvery_other separated split
              · exact splitAtEvery_other separated splitGaps
          | cons first more =>
              refine ⟨(next :: first) :: more, piece, ?_, ?_⟩
              · exact splitAtEvery_other separated split
              · exact splitAtEvery_other separated splitGaps

/-- Gaps after a prelude do not change its selectors. -/
theorem selectorsOfPrelude_append_gaps (components : List Component) {gaps : List Component}
    (areGaps : ∀ component ∈ gaps, component.isGap = true ∧ component.Sound) :
    selectorsOfPrelude (components ++ gaps) = selectorsOfPrelude components := by
  have others : ∀ component ∈ gaps, component.isDelim "," = false :=
    fun component member => isDelim_of_isGap (areGaps component member).1 ","
  obtain ⟨pieces, piece, split, splitGaps⟩ := splitAtEvery_concat components others
  have trimmed : trimmedText ([] ++ (piece ++ gaps)) = trimmedText piece :=
    trimmedText_gaps piece (by simp) areGaps
  rw [List.nil_append] at trimmed
  rw [selectorsOfPrelude, selectorsOfPrelude, split, splitGaps, List.map_append, List.map_append,
    List.map_singleton, List.map_singleton, trimmed]

/-- Some components spell selectors in the prelude of a style rule. -/
structure AreSelectors (level : Level) (components : List Component) (selectors : List String) :
    Prop where
  members : ∀ component ∈ components, level.Admits component ∧ component.curlyContent? = none
  reads : selectorsOfPrelude components = selectors

theorem admitsPrelude_gaps {gaps : List Component}
    (areGaps : ∀ gap ∈ gaps, gap.isGap = true ∧ gap.Sound) (level : Level) :
    ∀ gap ∈ gaps, level.AdmitsPrelude gap := by
  intro gap member
  obtain ⟨isGap, sound⟩ := areGaps gap member
  obtain ⟨offset, text, rfl, _⟩ := isGap_cases isGap sound
  exact ⟨⟨sound, fun _ => nofun⟩, rfl, rfl⟩

theorem AreSelectors.gaps_append {level : Level} {gaps components : List Component}
    {selectors : List String} (areGaps : ∀ gap ∈ gaps, gap.isGap = true ∧ gap.Sound)
    (areSelectors : AreSelectors level components selectors) :
    AreSelectors level (gaps ++ components) selectors := by
  refine ⟨List.forall_mem_append.2 ⟨?_, areSelectors.members⟩, ?_⟩
  · intro gap member
    have admits := admitsPrelude_gaps areGaps level gap member
    exact ⟨admits.1, admits.2.1⟩
  · rw [selectorsOfPrelude_gaps areGaps, areSelectors.reads]

theorem AreSelectors.append_gaps {level : Level} {gaps components : List Component}
    {selectors : List String} (areSelectors : AreSelectors level components selectors)
    (areGaps : ∀ gap ∈ gaps, gap.isGap = true ∧ gap.Sound) :
    AreSelectors level (components ++ gaps) selectors := by
  refine ⟨List.forall_mem_append.2 ⟨areSelectors.members, ?_⟩, ?_⟩
  · intro gap member
    have admits := admitsPrelude_gaps areGaps level gap member
    exact ⟨admits.1, admits.2.1⟩
  · rw [selectorsOfPrelude_append_gaps _ areGaps, areSelectors.reads]

theorem AreSelectors.comma {level : Level} {first second : List Component}
    {selectors others : List String} (areFirst : AreSelectors level first selectors)
    (areSecond : AreSelectors level second others) :
    AreSelectors level (first ++ .token 0 (.delim [',']) :: second) (selectors ++ others) := by
  refine ⟨List.forall_mem_append.2 ⟨areFirst.members, ?_⟩, ?_⟩
  · exact List.forall_mem_cons.2 ⟨⟨⟨rfl, fun _ => nofun⟩, rfl⟩, areSecond.members⟩
  · rw [selectorsOfPrelude_comma rfl, areFirst.reads, areSecond.reads]

theorem AreSelectors.gaps {gaps : List Component}
    (areGaps : ∀ gap ∈ gaps, gap.isGap = true ∧ gap.Sound) (level : Level) :
    AreSelectors level gaps [] := by
  have nothing : AreSelectors level [] [] := ⟨by simp, by decide⟩
  have areSelectors := nothing.append_gaps areGaps
  rwa [List.nil_append] at areSelectors

/-- Some components are the prelude of a style rule in a rule list. -/
structure ArePrelude (level : Level) (components : List Component) (selectors : List String) :
    Prop extends AreSelectors level components selectors where
  starts : ∀ first ∈ (components.dropWhile Component.isGap).head?,
    first.atKeyword? = none ∧ level.skips first = false

/-! ## Rules -/

/-- Some components are statements in a rule list, wherever they stand in it, and spell
some rules. -/
structure AreRules (level : Level) (components : List Component) (rules : List Rule) : Prop where
  admits : ∀ component ∈ components, level.Admits component
  statements : ∃ found, (∀ more, statementsFrom level [] (components ++ more) =
    (found ++ ·) <$> statementsFrom level [] more) ∧ rulesOf found = rules

/-- Components that are read alike in front of any others are read so on their own. -/
theorem statementsFrom_of_append {level : Level} {components : List Component}
    {found : List Statement}
    (reads : ∀ more, statementsFrom level [] (components ++ more) =
      (found ++ ·) <$> statementsFrom level [] more) :
    statementsFrom level [] components = .ok found := by
  have whole := reads []
  rw [List.append_nil] at whole
  rw [whole, statementsFrom]
  exact congrArg Except.ok (List.append_nil found)

theorem rulesOf_append (first second : List Statement) :
    rulesOf (first ++ second) = rulesOf first ++ rulesOf second := by
  induction first with
  | nil => rfl
  | cons statement rest ih => rw [List.cons_append, rulesOf, rulesOf, ih, List.cons_append]

theorem AreRules.append {level : Level} {components others : List Component}
    {rules more : List Rule} (first : AreRules level components rules)
    (second : AreRules level others more) :
    AreRules level (components ++ others) (rules ++ more) := by
  obtain ⟨found, read, rfl⟩ := first.statements
  obtain ⟨foundMore, readMore, rfl⟩ := second.statements
  constructor
  · exact List.forall_mem_append.2 ⟨first.admits, second.admits⟩
  · refine ⟨found ++ foundMore, ?_, rulesOf_append found foundMore⟩
    intro rest
    rw [List.append_assoc, read, readMore]
    cases statementsFrom level [] rest with
    | error offset => rfl
    | ok statements => simp [Functor.map, Except.map]

theorem AreRules.blanks {text : List Char} (areBlank : ∀ c ∈ text, isSpace c = true)
    (level : Level) : AreRules level (blanks text) [] := by
  constructor
  · exact admits_blanks areBlank level
  · refine ⟨[], ?_, rfl⟩
    intro more
    rw [statementsFrom_blanks, List.isEmpty_nil, if_pos rfl]
    cases statementsFrom level [] more with
    | error offset => rfl
    | ok statements => rfl

/-- A component that is not passed over starts a statement. -/
theorem statementsFrom_first (level : Level) {first : Component}
    (flat : first.curlyContent? = none) (counts : level.skips first = false)
    (more : List Component) :
    statementsFrom level [] (first :: more) = statementsFrom level [first] more := by
  rw [statementsFrom, flat]
  simp [startsAtRule, counts]

/-- A prelude that starts no at-rule makes up a style rule with the block after it. -/
theorem statementsFrom_style (level : Level) {prelude : List Component}
    (starts : ∀ first ∈ prelude.head?, first.atKeyword? = none ∧ level.skips first = false)
    (flat : ∀ component ∈ prelude, component.curlyContent? = none) (content more : List Component) :
    statementsFrom level [] (prelude ++ .block 0 .curly content :: more) =
      (Statement.style prelude content :: ·) <$> statementsFrom level [] more := by
  have block : AtRule.ofComponents? prelude (some content) = none →
      statementsFrom level prelude (.block 0 .curly content :: more) =
        (Statement.style prelude content :: ·) <$> statementsFrom level [] more := by
    intro noRule
    rw [statementsFrom]
    simp only [curlyContent?, noRule]
    rfl
  cases prelude with
  | nil => exact block rfl
  | cons first rest =>
      obtain ⟨noKeyword, counts⟩ := starts first rfl
      have noRule : ∀ body, AtRule.ofComponents? (first :: rest) body = none := by
        intro body
        rw [AtRule.ofComponents?, noKeyword]
        rfl
      have noStart : startsAtRule [first] = false := by
        rw [startsAtRule, noKeyword]
        rfl
      rw [List.cons_append, statementsFrom_first level (flat first List.mem_cons_self) counts,
        statementsFrom_read level (by simp) rest _
          (fun component member => flat component (List.mem_cons_of_mem first member))
          (fun begun => by rw [noStart] at begun; cases begun)]
      exact block (noRule _)

theorem Level.skips_flat {level : Level} {component : Component}
    (skipped : level.skips component = true) : component.curlyContent? = none := by
  cases component with
  | token offset value => rfl
  | block offset opening content => cases level <;> cases skipped

/-- Components that are passed over do not count between two statements. -/
theorem statementsFrom_skips (level : Level) {skipped : List Component}
    (areSkipped : ∀ component ∈ skipped, level.skips component = true) (more : List Component) :
    statementsFrom level [] (skipped ++ more) = statementsFrom level [] more := by
  induction skipped with
  | nil => rfl
  | cons first rest ih =>
      obtain ⟨isSkipped, others⟩ := List.forall_mem_cons.1 areSkipped
      rw [List.cons_append, statementsFrom, Level.skips_flat isSkipped]
      simp [startsAtRule, isSkipped, ih others]

theorem statementsFrom_gaps (level : Level) {gaps : List Component}
    (areGaps : ∀ component ∈ gaps, component.isGap = true) (more : List Component) :
    statementsFrom level [] (gaps ++ more) = statementsFrom level [] more := by
  apply statementsFrom_skips
  intro component member
  rw [Level.skips, areGaps component member, Bool.true_or]

/-- A prelude and a block of declarations make up a style rule. -/
theorem AreRules.style {level : Level} {prelude content : List Component}
    {selectors declarations : List String} (arePrelude : ArePrelude level prelude selectors)
    (areDeclarations : AreDeclarations content declarations) :
    AreRules level (prelude ++ [.block 0 .curly content]) [.style selectors declarations] := by
  obtain ⟨⟨members, rfl⟩, starts⟩ := arePrelude
  have admits := fun component member => (members component member).1
  have flat := fun component member => (members component member).2
  have sound := soundAll_of_admits admits
  have parts : prelude.takeWhile Component.isGap ++ prelude.dropWhile Component.isGap = prelude :=
    List.takeWhile_append_dropWhile
  have gaps : ∀ component ∈ prelude.takeWhile Component.isGap, component.isGap = true :=
    fun component member => List.all_eq_true.1 List.all_takeWhile component member
  constructor
  · exact List.forall_mem_append.2 ⟨admits,
      List.forall_mem_singleton.2
        ⟨(sound_curly 0 content).2 areDeclarations.admits, fun _ => nofun⟩⟩
  · refine ⟨[.style (prelude.dropWhile Component.isGap) content], ?_, ?_⟩
    · intro more
      have solid := statementsFrom_style level starts
        (fun component member => flat component ((List.dropWhile_sublist _).subset member))
        content more
      conv_lhs => rw [← parts, List.append_assoc, List.append_assoc, statementsFrom_gaps level gaps]
      exact solid
    · rw [← areDeclarations.declarationsOf_eq, rulesOf, rulesOf, Statement.toRule,
        selectorsOfPrelude_dropWhile sound]

/-- The at-keyword and the prelude of an at-rule are read up to its end. -/
theorem statementsFrom_prelude {level : Level} {prelude : List Component}
    (flat : ∀ component ∈ prelude, level.AdmitsPrelude component) (name : List Char)
    (more : List Component) :
    statementsFrom level [] (.token 0 (.atKeyword name) :: (prelude ++ more)) =
      statementsFrom level (.token 0 (.atKeyword name) :: prelude) more := by
  rw [statementsFrom_first level rfl (by cases level <;> rfl)]
  exact statementsFrom_read level (List.cons_ne_nil _ _) prelude more
    (fun component member => (flat component member).2.1)
    (fun _ component member => (flat component member).2.2)

/-- An at-rule that encloses no rules is one statement. -/
theorem statementsFrom_ruleComponents {level : Level} {rule : AtRule} (sound : rule.Sound level)
    (encloses : encloses rule = false) (more : List Component) :
    statementsFrom level [] (ruleComponents rule ++ more) =
      ([.atRule rule] ++ ·) <$> statementsFrom level [] more := by
  rw [ruleComponents, List.cons_append, List.append_assoc, statementsFrom_prelude sound.2.1]
  cases rule with
  | mk name prelude body =>
      cases body with
      | none =>
          rw [List.singleton_append, statementsFrom]
          rfl
      | some content =>
          rw [List.singleton_append, statementsFrom]
          simp only [curlyContent?, AtRule.ofComponents?, atKeyword?, Option.map_some, encloses]
          rfl

/-- An at-rule that encloses no rules is kept as it is written. -/
theorem AreRules.atRule {level : Level} {rule : AtRule} (sound : rule.Sound level)
    (encloses : encloses rule = false) :
    AreRules level (ruleComponents rule) [.verbatim (String.ofList (Text.trim rule.write))] :=
  ⟨ruleComponents_admits sound, [.atRule rule], statementsFrom_ruleComponents sound encloses, rfl⟩

theorem sound_media {level : Level} {prelude content : List Component}
    (flat : ∀ component ∈ prelude, level.AdmitsPrelude component)
    (inside : ∀ component ∈ content, Level.inBlock.Admits component) :
    (AtRule.mk "media".toList prelude (some content)).Sound level := by
  have soundName : (Token.atKeyword "media".toList).Sound := ⟨by decide, by decide⟩
  exact ⟨soundName, flat, fun body isBody => by cases isBody; exact inside⟩

/-- A media rule is one statement, which holds what is read in its block. -/
theorem statementsFrom_mediaRule {level : Level} {prelude : List Component}
    (flat : ∀ component ∈ prelude, level.AdmitsPrelude component)
    (content more : List Component) :
    statementsFrom level []
        (.token 0 (.atKeyword "media".toList) :: (prelude ++ .block 0 .curly content :: more)) = do
      let inner ← statementsFrom .inBlock [] content
      let later ← statementsFrom level [] more
      return .media prelude inner :: later := by
  rw [statementsFrom_prelude flat, statementsFrom_cons, ended?_media rfl rfl]
  cases statementsFrom .inBlock [] content <;> rfl

/-- A media rule encloses the rules in its block. -/
theorem AreRules.media {level : Level} {prelude content : List Component} {rules : List Rule}
    (flat : ∀ component ∈ prelude, level.AdmitsPrelude component)
    (inside : AreRules .inBlock content rules) :
    AreRules level
      (.token 0 (.atKeyword "media".toList) :: (prelude ++ [.block 0 .curly content]))
      [.media (trimmedText prelude) rules] := by
  obtain ⟨admits, found, read, rfl⟩ := inside
  constructor
  · exact ruleComponents_admits (sound_media flat admits)
  · refine ⟨[.media prelude found], ?_, rfl⟩
    intro more
    rw [List.cons_append, List.append_assoc, List.singleton_append,
      statementsFrom_mediaRule flat, statementsFrom_of_append read]
    cases statementsFrom level [] more <;> rfl

end StyleSieve
