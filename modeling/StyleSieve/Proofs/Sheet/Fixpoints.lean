import StyleSieve.Proofs.Sheet.Excerpts
import StyleSieve.Proofs.Sheet.Listing
import StyleSieve.Proofs.Sheet.Origins
import StyleSieve.Proofs.Sheet.Spelling

/-!
# Fixpoints of reading

A selector, a declaration, a condition or an at-rule that is read alone as itself.  Such a
text is sealed: it is equal to what is written for a part of its own components.
-/

namespace StyleSieve

open Css Css.Component

/-! ## Texts that are read as themselves -/

/-- The components of a text that stands alone. -/
def componentsOf (text : String) : List Component :=
  significantComponents text.toList

/-- A text that is read as one selector. -/
structure FixedSelector (text : String) : Prop where
  faultless : areFaultless (componentsOf text) = true
  reads : selectorsOfPrelude (componentsOf text) = [text]
  flat : ∀ component ∈ componentsOf text, component.curlyContent? = none

instance (text : String) : Decidable (FixedSelector text) :=
  decidable_of_iff (areFaultless (componentsOf text) = true ∧
      selectorsOfPrelude (componentsOf text) = [text] ∧
        ∀ component ∈ componentsOf text, component.curlyContent? = none)
    ⟨fun ⟨faultless, reads, flat⟩ => ⟨faultless, reads, flat⟩,
      fun fixed => ⟨fixed.faultless, fixed.reads, fixed.flat⟩⟩

/-- A text that can open a style rule: it starts neither an at-rule nor a comment of markup. -/
def OpensRule (text : String) : Prop :=
  ∀ first ∈ ((componentsOf text).dropWhile Component.isGap).head?,
    first.atKeyword? = none ∧ first.isDelim "<!--" = false ∧ first.isDelim "-->" = false

instance (text : String) : Decidable (OpensRule text) :=
  inferInstanceAs (Decidable (∀ first ∈ _, _))

/-- A text that is read as one declaration. -/
structure FixedDeclaration (text : String) : Prop where
  faultless : areFaultless (componentsOf text) = true
  reads : declarationsOf (componentsOf text) = [text]

instance (text : String) : Decidable (FixedDeclaration text) :=
  decidable_of_iff (areFaultless (componentsOf text) = true ∧
      declarationsOf (componentsOf text) = [text])
    ⟨fun ⟨faultless, reads⟩ => ⟨faultless, reads⟩, fun fixed => ⟨fixed.faultless, fixed.reads⟩⟩

/-- A text that is written for its own components and can stand before the rules of a media
rule. -/
structure FixedCondition (text : String) : Prop where
  faultless : areFaultless (componentsOf text) = true
  reads : trimmedText (componentsOf text) = text
  flat : ∀ component ∈ componentsOf text,
    component.curlyContent? = none ∧ component.isDelim ";" = false

instance (text : String) : Decidable (FixedCondition text) :=
  decidable_of_iff (areFaultless (componentsOf text) = true ∧
      trimmedText (componentsOf text) = text ∧ ∀ component ∈ componentsOf text,
        component.curlyContent? = none ∧ component.isDelim ";" = false)
    ⟨fun ⟨faultless, reads, flat⟩ => ⟨faultless, reads, flat⟩,
      fun fixed => ⟨fixed.faultless, fixed.reads, fixed.flat⟩⟩

/-- A text that is read as one rule that is kept as it is written. -/
structure FixedVerbatim (text : String) : Prop where
  faultless : areFaultless (componentsOf text) = true
  reads : Stylesheet.parse text = .ok ⟨[.verbatim text]⟩

namespace Rule

mutual

/-- A rule whose texts are read as themselves. -/
def Fixed : Rule → Prop
  | .style selectors declarations =>
      (∀ text ∈ selectors, FixedSelector text) ∧ (∀ text ∈ selectors.head?, OpensRule text) ∧
        ∀ text ∈ declarations, FixedDeclaration text
  | .media condition rules => FixedCondition condition ∧ FixedAll rules
  | .verbatim text => FixedVerbatim text

/-- Rules whose texts are read as themselves. -/
def FixedAll : List Rule → Prop
  | [] => True
  | rule :: rest => rule.Fixed ∧ FixedAll rest

end

end Rule

/-! ## Trimmed texts -/

theorem exists_trimEnd (text : List Char) :
    ∃ blanks, text = Text.trimEnd text ++ blanks ∧ ∀ c ∈ blanks, Text.isBlank c = true := by
  refine ⟨(text.reverse.takeWhile Text.isBlank).reverse, ?_, ?_⟩
  · rw [Text.trimEnd, ← List.reverse_append, List.takeWhile_append_dropWhile, List.reverse_reverse]
  · intro c member
    exact List.all_eq_true.1 List.all_takeWhile c (List.mem_reverse.1 member)

/-- A text is its trimmed text with blanks around it. -/
theorem exists_trim (text : List Char) :
    ∃ x y, text = x ++ (Text.trim text ++ y) ∧ (∀ c ∈ x, Text.isBlank c = true) ∧
      ∀ c ∈ y, Text.isBlank c = true := by
  obtain ⟨y, whole, areBlank⟩ := exists_trimEnd (text.dropWhile Text.isBlank)
  refine ⟨text.takeWhile Text.isBlank, y, ?_, ?_, areBlank⟩
  · rw [Text.trim, ← whole, List.takeWhile_append_dropWhile]
  · exact fun c member => List.all_eq_true.1 List.all_takeWhile c member

theorem Css.Clean.of_append {x text y : List Char} (clean : Clean (x ++ (text ++ y))) : Clean text :=
  fun c member => clean c (List.mem_append_right x (List.mem_append_left y member))

theorem exists_trimmedText {components : List Component} (sound : SoundAll components) :
    ∃ x y, Css.write components = x ++ ((trimmedText components).toList ++ y) ∧
      (∀ c ∈ y, Text.isBlank c = true) ∧ Clean (trimmedText components).toList := by
  obtain ⟨x, y, written, _, areBlank⟩ := exists_trim (Css.write components)
  rw [trimmedText, String.toList_ofList]
  have clean := clean_writeFrom components sound .other
  rw [← Css.write, written] at clean
  exact ⟨x, y, written, areBlank, clean.of_append⟩

/-! ## Selectors and conditions -/

theorem sealed_nil : Sealed [] := by
  constructor
  · rw [settledAll_significantComponents, normalizeNewlines, plain_nil]
    rfl
  · intro edge isEdge rest
    left
    rw [normalizeNewlines, plain_nil]
    rfl

/-- A text that is written for a part of its components is sealed. -/
theorem sealed_of_trimmedText {text : String} {left piece right : List Component}
    (faultless : areFaultless (componentsOf text) = true)
    (parts : componentsOf text = left ++ (piece ++ right)) (written : trimmedText piece = text) :
    Sealed text.toList ∧ Clean text.toList := by
  have sound : SoundAll piece := by
    have sound := significantComponents_sound text.toList
    rw [← componentsOf, parts, soundAll_append, soundAll_append] at sound
    exact sound.2.1
  obtain ⟨x, y, whole, areBlank, clean⟩ := exists_trimmedText sound
  rw [written] at whole clean
  refine ⟨?_, clean⟩
  by_cases isNil : piece = []
  · rw [← written, isNil]
    exact sealed_nil
  · obtain ⟨excerpt⟩ := exists_excerpt left piece right faultless parts (.inl (by simp [isNil]))
    have alone : normalizeNewlines text.toList = [] ++ text.toList := clean.normalize
    refine (excerpt.isClosed alone (Nat.zero_le _) whole areBlank).isSealed ?_
    rw [clean.normalize]
    exact fun isLast => ⟨x, text.toList, y, whole, areBlank, isLast⟩

theorem FixedSelector.isSealed {text : String} (fixed : FixedSelector text) :
    Sealed text.toList ∧ Clean text.toList := by
  have member : text ∈ selectorsOfPrelude (componentsOf text) := by
    rw [fixed.reads]
    exact List.mem_singleton_self text
  obtain ⟨inTexts, _⟩ := List.mem_filter.1 member
  obtain ⟨piece, isPiece, written⟩ := List.mem_map.1 inTexts
  obtain ⟨left, right, parts⟩ := exists_piece isPiece
  exact sealed_of_trimmedText fixed.faultless parts written

theorem FixedCondition.isSealed {text : String} (fixed : FixedCondition text) :
    Sealed text.toList ∧ Clean text.toList := by
  have whole : componentsOf text = [] ++ (componentsOf text ++ []) := by simp
  exact sealed_of_trimmedText fixed.faultless whole fixed.reads

/-! ## At-rules -/

/-- The text of an at-rule starts with its at-keyword and ends with a closer. -/
theorem exists_ends (rule : AtRule) :
    ∃ middle last, rule.write = '@' :: (middle ++ [last]) ∧ isCloser last = true := by
  cases rule with
  | mk name prelude body =>
      cases body with
      | none => exact ⟨writeIdent name ++ Css.write prelude, ';', by simp [AtRule.write], rfl⟩
      | some content =>
          exact ⟨writeIdent name ++ (Css.write prelude ++ '\x7b' :: Css.write content), '\x7d',
            by simp [AtRule.write], rfl⟩

/-- What is written for an at-rule is written for its components.  At the end of a list a
semicolon is written that no component stands for. -/
theorem exists_extra {body : Option (List Component)} {stop right : List Component}
    (isStop : Stop body stop right) (offset : Nat) (name : List Char) (prelude : List Component) :
    ∃ extra, ([[.token offset (.atKeyword name)], prelude, stop].map Css.write).flatten ++ extra =
        (AtRule.mk name prelude body).write ∧ extra.all isCloser = true ∧
      (extra = [] ∨ stop ++ right = []) ∧
        (extra = [] → settledAll (.token offset (.atKeyword name) :: (prelude ++ stop)) =
          settledAll (ruleComponents ⟨name, prelude, body⟩)) := by
  have settledRule : ∀ others, settledAll stop = settledAll others →
      settledAll (.token offset (.atKeyword name) :: (prelude ++ stop)) =
        settledAll (.token 0 (.atKeyword name) :: (prelude ++ others)) := by
    intro others same
    rw [settledAll, settledAll_append, same, settledAll, settledAll_append]
    rfl
  cases isStop with
  | @semicolon semicolon _ isSemicolon =>
      obtain ⟨place, rfl⟩ := eq_delim isSemicolon
      refine ⟨[], ?_, rfl, .inl rfl, fun _ => settledRule _ rfl⟩
      simp [AtRule.write, Css.write, writeFrom, separator_quiet, Component.write, Token.write]
  | @block block content _ isBlock =>
      obtain ⟨place, rfl⟩ := eq_curly isBlock
      refine ⟨[], ?_, rfl, .inl rfl, fun _ => settledRule _ rfl⟩
      simp [AtRule.write, Css.write, writeFrom, separator_quiet, Component.write, Token.write]
  | finish =>
      refine ⟨[';'], ?_, rfl, .inr rfl, fun nothing => absurd nothing (List.cons_ne_nil _ _)⟩
      simp [AtRule.write, Css.write, writeFrom, separator_quiet, Component.write, Token.write]

theorem clean_parts {parts : List (List Component)} (sound : SoundAll parts.flatten) :
    Clean (parts.map Css.write).flatten := by
  induction parts with
  | nil => exact fun c member => by cases member
  | cons part rest ih =>
      rw [List.flatten_cons, soundAll_append] at sound
      exact (clean_writeFrom part sound.1 .other).append (ih sound.2)

theorem clean_closers {text : List Char} (closers : text.all isCloser = true) : Clean text :=
  fun c member => isClean_of (List.all_eq_true.1 closers c member) rfl rfl rfl

/-- The text of an at-rule that is read from it. -/
structure RuleText (text : List Char) (left : List Component) (rule : AtRule) : Prop where
  isSealed : Sealed text
  written : text = rule.write
  clean : Clean text
  reads : ∃ count, plain text = spreadAll (settledAll left) ++
    (spreadAll (settledAll (ruleComponents rule)) ++ List.replicate count (blank ' '))

theorem ruleText_of_stop {text : String} {left used stop right : List Component}
    {body : Option (List Component)} {rule : AtRule}
    (faultless : areFaultless (componentsOf text) = true)
    (parts : componentsOf text = left ++ (used ++ (stop ++ right))) (isStop : Stop body stop right)
    (found : AtRule.ofComponents? used body = some rule)
    (written : String.ofList (Text.trim rule.write) = text) : RuleText text.toList left rule := by
  have same : text.toList = rule.write := by
    rw [← written, String.toList_ofList, trim_write]
  obtain ⟨offset, rfl, rfl⟩ := exists_keyword found
  obtain ⟨extra, whole, closers, atEnd, settled⟩ :=
    exists_extra isStop offset rule.name rule.prelude
  have flat : [[Component.token offset (.atKeyword rule.name)], rule.prelude, stop].flatten =
      .token offset (.atKeyword rule.name) :: (rule.prelude ++ stop) := by simp
  obtain ⟨excerpt⟩ := exists_excerpt left
    (.token offset (.atKeyword rule.name) :: (rule.prelude ++ stop)) right faultless
    (by rw [← componentsOf, parts]; simp) (.inl (List.cons_ne_nil _ _))
  have clean : Clean text.toList := by
    rw [same, ← whole]
    refine (clean_parts ?_).append (clean_closers closers)
    rw [flat]
    exact excerpt.soundParts.2.1
  have keyword : ∃ c ∈ ([[Component.token offset (.atKeyword rule.name)], rule.prelude, stop].map
      Css.write).flatten, c ≠ ' ' ∧ isCloser c = false :=
    ⟨'@', List.mem_append_left _ List.mem_cons_self, by decide, rfl⟩
  have alone : normalizeNewlines text.toList = [] ++ text.toList := clean.normalize
  rw [← same, ← List.nil_append text.toList, ← List.append_nil text.toList] at whole
  -- the text is written from the very components that it is read as, so no closer is added
  obtain ⟨closed, noExtra⟩ := excerpt.isClosed_of_parts flat closers
    (atEnd.imp_right fun none => (List.append_eq_nil_iff.1 none).2) (fun _ => keyword) alone
    (Nat.zero_le _) whole (by simp)
  refine ⟨closed.isSealed ?_, same, clean, excerpt.others.length, ?_⟩
  · obtain ⟨middle, last, ends, closes⟩ := exists_ends rule
    intro isLast
    rw [clean.normalize, same, ends, ← List.cons_append, List.getLast?_concat] at isLast
    cases isLast
    cases closes
  · have spaces : excerpt.others = List.replicate excerpt.others.length (blank ' ') :=
      List.eq_replicate_of_mem (excerpt.readsAfter.onlySpaces closed.spaces)
    have lexemes : spreadAll (settledAll (ruleComponents rule)) = excerpt.lexemes := by
      rw [← settled noExtra, excerpt.spread, closed.missing, List.append_nil]
    have lexed := excerpt.lexed
    rw [clean.normalize] at lexed
    rw [lexed, lexemes, ← spaces]

/-! ## Rules kept as they are written -/

theorem closer?_of_faultless {component : Component} (faultless : component.isFaultless = true) :
    component.closer? = none := by
  cases component with
  | block offset opening content => rfl
  | token offset value =>
      cases value with
      | fault cause => cases faultless
      | _ => rfl

theorem admits_of_faultless {components : List Component} (sound : SoundAll components)
    (faultless : areFaultless components = true) (level : Level) :
    ∀ component ∈ components, level.Admits component := by
  induction components with
  | nil => exact fun component member => by cases member
  | cons component rest ih =>
      rw [areFaultless, Bool.and_eq_true] at faultless
      refine List.forall_mem_cons.2 ⟨⟨sound.1, fun _ => ?_⟩, ih sound.2 faultless.2⟩
      rw [closer?_of_faultless faultless.1]
      exact nofun

/-- An at sign is read as the first character of an at-keyword or as a delimiter. -/
theorem plain_at (rest : List Char) :
    ∃ value lexemes, plain ('@' :: rest) = (0, .token value) :: lexemes ∧
      ((∃ name, value = .atKeyword name) ∨ value = .delim ['@']) := by
  have symbol : scan '@' rest = scanSymbol '@' rest :=
    scan_symbol (by decide) (by decide) rfl (takeNumber?_none (by decide) (by decide) (by decide) _)
  rw [plain_cons, symbol, scanSymbol]
  split
  · exact ⟨_, _, rfl, .inl ⟨_, rfl⟩⟩
  · exact ⟨_, _, rfl, .inr rfl⟩

/-- A component that counts for nothing is not read from an at sign. -/
theorem not_skips {text : List Char} {first : Component} {rest : List Component}
    (sound : first.Sound) (complete : spreadAll (settledAll (first :: rest)) = plain ('@' :: text)) :
    Level.outermost.skips first = false := by
  obtain ⟨value, lexemes, read, isAt⟩ := plain_at text
  rw [read] at complete
  rw [← Bool.not_eq_true]
  intro skips
  simp only [Level.skips, Bool.or_eq_true, Bool.and_eq_true] at skips
  rcases skips with isGap | ⟨_, isDelim | isDelim⟩
  · rcases settles_cases sound with ⟨offset, spaces, rfl, filled⟩ | ⟨piece, settles⟩
    · obtain ⟨c, more, rfl⟩ := List.exists_cons_of_ne_nil filled
      rw [settledAll_blanks] at complete
      cases complete
      rcases isAt with ⟨name, isKeyword⟩ | isDelim
      · cases isKeyword
      · cases isDelim
    · rw [settles.notGap] at isGap
      cases isGap
  all_goals
    obtain ⟨offset, rfl⟩ := eq_delim isDelim
    cases complete
    rcases isAt with ⟨name, isKeyword⟩ | isDelim
    · cases isKeyword
    · cases isDelim

theorem Css.AtRule.Sound.of_faultless {rule : AtRule} {level other : Level} (sound : rule.Sound level)
    (faultless : areFaultless rule.prelude = true) : rule.Sound other := by
  obtain ⟨soundName, admits, inside⟩ := sound
  have soundPrelude := soundAll_of_admits fun component member => (admits component member).1
  refine ⟨soundName, fun component member => ⟨?_, (admits component member).2⟩, inside⟩
  exact admits_of_faultless soundPrelude faultless other component member

theorem rulesOf_verbatim {statements : List Statement} {text : String}
    (rules : rulesOf statements = [.verbatim text]) :
    ∃ rule, statements = [.atRule rule] ∧ String.ofList (Text.trim rule.write) = text := by
  match statements with
  | [] => cases rules
  | [statement] =>
      have same := (List.cons.inj rules).1
      cases statement with
      | style prelude content => cases same
      | media prelude inner => cases same
      | atRule rule =>
          cases same
          exact ⟨rule, rfl, rfl⟩
  | _ :: _ :: _ => cases (List.cons.inj rules).2

/-- The at-rule that a text is read as wherever it stands. -/
structure SpellsRule (text : List Char) (rule : AtRule) : Prop where
  text : RuleText text [] rule
  other : encloses rule = false
  sound : ∀ level, rule.Sound level

theorem FixedVerbatim.spellsRule {text : String} (fixed : FixedVerbatim text) :
    ∃ rule, SpellsRule text.toList rule ∧ String.ofList (Text.trim rule.write) = text := by
  obtain ⟨statements, parsed, rules⟩ : ∃ statements,
      statementsFrom .outermost [] (componentsOf text) = .ok statements ∧
        rulesOf statements = [.verbatim text] := by
    have reads := fixed.reads
    rw [Stylesheet.parse, ← componentsOf] at reads
    cases parsed : statementsFrom .outermost [] (componentsOf text) with
    | error offset =>
        rw [parsed] at reads
        cases reads
    | ok statements =>
        rw [parsed] at reads
        exact ⟨statements, rfl, congrArg Stylesheet.rules (Except.ok.inj reads)⟩
  obtain ⟨rule, rfl, written⟩ := rulesOf_verbatim rules
  obtain ⟨left, used, stop, right, body, parts, skips, isStop, found⟩ := exists_statement parsed
  rw [List.nil_append] at parts
  have ruleText := ruleText_of_stop fixed.faultless parts isStop found written
  have sound := significantComponents_sound text.toList
  have soundRule := statementsFrom_sound .outermost [] _ (Level.Reads.nil _)
    (admits_outermost sound) parsed
  have faultless := fixed.faultless
  rw [← componentsOf, parts] at sound
  rw [parts] at faultless
  simp only [areFaultless_append, Bool.and_eq_true] at faultless
  -- the text starts with an at sign, so that nothing is skipped
  have none : left = [] := by
    cases left with
    | nil => rfl
    | cons first rest =>
        obtain ⟨middle, last, ends, _⟩ := exists_ends rule
        have complete := ruleText.isSealed.complete
        rw [← componentsOf, parts, ruleText.clean.normalize, ruleText.written, ends] at complete
        have counts := not_skips sound.1 complete
        rw [skips first List.mem_cons_self] at counts
        cases counts
  subst none
  obtain ⟨offset, rfl, _⟩ := exists_keyword found
  have faultlessRule := faultless.2.1
  rw [areFaultless, Bool.and_eq_true] at faultlessRule
  exact ⟨rule, ⟨ruleText, soundRule.1.1,
    fun level => soundRule.1.2.of_faultless faultlessRule.2⟩, written⟩

/-! ## Declarations -/

theorem length_normalizeNewlines_le (text : List Char) :
    (normalizeNewlines text).length ≤ text.length := by
  fun_induction normalizeNewlines text with
  | case1 => exact Nat.le_refl _
  | case2 rest ih => exact Nat.succ_le_succ (Nat.le_succ_of_le ih)
  | case3 c rest _ ih => exact Nat.succ_le_succ ih

/-- How many characters some components are spelled with at least. -/
def weight (components : List Component) : Nat :=
  weightOf (spreadAll (settledAll components))

@[simp] theorem weight_append (first second : List Component) :
    weight (first ++ second) = weight first + weight second := by
  rw [weight, settledAll_append, spreadAll_append, weightOf_append]
  rfl

theorem weight_cons (component : Component) (rest : List Component) :
    weight (component :: rest) = weight [component] + weight rest :=
  weight_append [component] rest

theorem Excerpt.weight_le {source : List Char} {first part last : List Component}
    (excerpt : Excerpt source first part last) : weight first ≤ size excerpt.before :=
  excerpt.readsBefore.weight_le

/-- The name of a declaration with a colon is spelled with as many characters as it is
written with. -/
theorem size_front_le (name : List Char) :
    size (normalizeNewlines name ++ [':', ' ']) ≤ name.length + 1 := by
  rw [size_append]
  exact Nat.add_le_add_right (Nat.le_trans (size_le_length _) (length_normalizeNewlines_le name)) 1

theorem normalize_declaration (name : List Char) {rest : List Char} (clean : Clean rest) :
    normalizeNewlines (name ++ (':' :: ' ' :: rest)) =
      (normalizeNewlines name ++ [':', ' ']) ++ rest := by
  have cleanRest : Clean (':' :: ' ' :: rest) := clean_cons rfl (clean_cons rfl clean)
  rw [normalizeNewlines_append (by decide), cleanRest.normalize]
  simp

/-- A declaration is sealed when its value is written as it is read. -/
theorem sealed_of_value {name : List Char} {text : String} {first value rest : List Component}
    (faultless : areFaultless (componentsOf text) = true)
    (parts : componentsOf text = first ++ (value ++ rest)) (long : name.length + 1 ≤ weight first)
    (solid : ∃ read ∈ (spreadAll (settledAll first)).getLast?, IsSolid read)
    (written : text.toList = name ++ (':' :: ' ' :: (trimmedText value).toList)) :
    Sealed text.toList := by
  obtain ⟨excerpt⟩ := exists_excerpt first value rest faultless parts (.inr solid)
  obtain ⟨x, y, whole, areBlank, clean⟩ := exists_trimmedText excerpt.soundParts.2.1
  have normalized := normalize_declaration name clean
  rw [← written] at normalized
  have longBefore := Nat.le_trans (size_front_le name) (Nat.le_trans long excerpt.weight_le)
  refine (excerpt.isClosed normalized longBefore whole areBlank).isSealed ?_
  intro isLast
  refine ⟨x, (trimmedText value).toList, y, whole, areBlank, ?_⟩
  rw [normalized, List.getLast?_append] at isLast
  cases final : (trimmedText value).toList.getLast? with
  | some c =>
      rw [final] at isLast
      exact isLast
  | none =>
      rw [final, Option.none_or, List.getLast?_append] at isLast
      cases isLast

/-! ## Marked declarations -/

/-- With how many characters the words of a mark are written. -/
def Css.Marking.length : Marking → Nat
  | .plain => 0
  | .bang => 1
  | .important => 10

theorem Marked.length_le {marking : Marking} {mark : List Component}
    (marked : Marked marking mark) : marking.length ≤ weight mark := by
  induction marked with
  | bang isBang =>
      obtain ⟨offset, rfl⟩ := eq_delim isBang
      exact Nat.le_refl 1
  | @word mark word marked isWord ih =>
      have letters : 9 ≤ weight [word] := by
        unfold ValueReading.step.isImportant at isWord
        split at isWord
        · have length := congrArg List.length (beq_iff_eq.1 isWord)
          rw [lowerAscii, List.length_map] at length
          exact Nat.le_of_eq length.symm
        · cases isWord
      rw [weight_append]
      exact Nat.add_le_add ih letters
  | gap marked isGap ih =>
      rw [weight_append]
      exact Nat.le_trans ih (Nat.le_add_right _ _)

/-- The words of a mark are no closers. -/
theorem Marked.solid {marking : Marking} {mark : List Component} (marked : Marked marking mark)
    (sound : SoundAll mark) : ∀ read ∈ spreadAll (settledAll mark), IsSolid read := by
  induction marked with
  | bang isBang =>
      obtain ⟨offset, rfl⟩ := eq_delim isBang
      intro read member closer
      rw [List.mem_singleton.1 member]
      exact Lexeme.noConfusion
  | word marked isWord ih =>
      rw [soundAll_append] at sound
      rw [settledAll_append, spreadAll_append]
      refine List.forall_mem_append.2 ⟨ih sound.1, ?_⟩
      unfold ValueReading.step.isImportant at isWord
      split at isWord
      · intro read member closer
        rw [List.mem_singleton.1 member]
        exact Lexeme.noConfusion
      · cases isWord
  | gap marked isGap ih =>
      rw [soundAll_append] at sound
      rw [settledAll_append, spreadAll_append]
      refine List.forall_mem_append.2 ⟨ih sound.1, ?_⟩
      obtain ⟨offset, text, rfl, _⟩ := isGap_cases isGap sound.2.1
      rw [settledAll_blanks, settledAll, List.append_nil, spreadAll_blanks]
      intro read member closer
      obtain ⟨c, _, rfl⟩ := List.mem_map.1 member
      exact Lexeme.noConfusion

theorem Marked.ne_nil {marking : Marking} {mark : List Component} (marked : Marked marking mark) :
    mark ≠ [] := by
  cases marked <;> simp

/-- A declaration is sealed when the words that mark it are written as they are read. -/
theorem sealed_of_marked {name : List Char} {text : String} {first value mark rest : List Component}
    (faultless : areFaultless (componentsOf text) = true)
    (parts : componentsOf text = first ++ ((value ++ mark) ++ rest))
    (long : name.length + 1 ≤ weight first) (marked : Marked .important mark)
    (written : text.toList =
      name ++ (':' :: ' ' :: ((trimmedText value).toList ++ " !important".toList))) :
    Sealed text.toList := by
  obtain ⟨excerpt⟩ := exists_excerpt first (value ++ mark) rest faultless parts
    (.inl (by simp [marked.ne_nil]))
  obtain ⟨soundValue, soundMark⟩ := (soundAll_append _ _).1 excerpt.soundParts.2.1
  have faultlessValue := excerpt.faultlessParts.2.1
  rw [areFaultless_append, Bool.and_eq_true] at faultlessValue
  have spread := excerpt.spread
  rw [settledAll_append, spreadAll_append] at spread
  obtain ⟨x, y, whole, areBlank, clean⟩ := exists_trimmedText soundValue
  have cleanMark : Clean " !important".toList := clean_of_all rfl
  have normalized := normalize_declaration name (clean.append cleanMark)
  rw [← written] at normalized
  -- the closers that are missing would have to stand among the words of the mark
  obtain ⟨words, spreadMark, lexemes⟩ := split_closers excerpt.closersMissing spread.symm
    (.inl (spreadAll_head (settledAll_ne_nil soundMark marked.ne_nil)
      (settledAll_faultless _ faultlessValue.2)))
  have complete : excerpt.missing = [] := by
    rw [List.eq_nil_iff_forall_not_mem]
    intro read member
    obtain ⟨closer, rfl, _⟩ := excerpt.closersMissing read member
    exact marked.solid soundMark _ (spreadMark ▸ List.mem_append_right words member) closer rfl
  rw [complete, List.append_nil] at spreadMark
  have reads := excerpt.reads
  rw [lexemes, ← spreadMark] at reads
  obtain ⟨readValue, readMark, isRead, readsValue, readsMark⟩ := reads.split
  have leadsValue : NeverLeads (unspaced x ++ unspaced (trimmedText value).toList)
      (unspaced readValue) := by
    have lags := readsValue.lags
    rw [render_settledAll soundValue faultlessValue.1, whole] at lags
    have leads := lags.neverLeads
    rw [unspaced_append, unspaced_append, ← List.append_assoc] at leads
    exact leads.take
  have leadsMark : NeverLeads (unspaced " !important".toList) (unspaced readMark) :=
    .of_length_le (Nat.le_trans marked.length_le readsMark.weight_le)
  obtain ⟨lead, aligned⟩ := unspaced_align (normalized.symm.trans excerpt.whole)
    (Nat.le_trans (size_front_le name) (Nat.le_trans long excerpt.weight_le)) x []
  have nothing : unspaced (excerpt.after ++ excerpt.tail) = [] := by
    refine leadsValue.append leadsMark lead _ ?_
    rw [isRead] at aligned
    simp only [unspaced_append, unspaced_nil, List.append_nil] at aligned ⊢
    rw [List.append_assoc, aligned]
  refine (Excerpt.IsClosed.of_spaces complete nothing).isSealed ?_
  intro isLast
  rw [normalized, ← List.append_assoc, List.getLast?_append] at isLast
  cases isLast

theorem ofDeclaration_ne_atRule (first : Component) (more : List Component) (rule : AtRule) :
    Entry.ofDeclaration first more ≠ .atRule rule := by
  unfold Entry.ofDeclaration
  split
  · split
    · exact Entry.noConfusion
    · split
      · exact Entry.noConfusion
      · dsimp only
        split
        · exact Entry.noConfusion
        · split <;> exact Entry.noConfusion
  · exact Entry.noConfusion

/-- The name and the colon of a declaration, after other components. -/
theorem declaration_head (left gaps : List Component) (offset colon : Nat) (name : List Char) :
    name.length + 1 ≤ weight (left ++ .token offset (.ident name) ::
      (gaps ++ [.token colon (.delim [':'])])) ∧
    ∃ read ∈ (spreadAll (settledAll (left ++ .token offset (.ident name) ::
      (gaps ++ [.token colon (.delim [':'])])))).getLast?, IsSolid read := by
  constructor
  · have letters : weight [Component.token offset (.ident name)] = name.length := rfl
    have point : weight [Component.token colon (.delim [':'])] = 1 := rfl
    rw [weight_append, weight_cons, weight_append, letters, point]
    omega
  · refine ⟨(0, .token (.delim [':'])), ?_, fun closer => Lexeme.noConfusion⟩
    rw [← List.cons_append, ← List.append_assoc, settledAll_append, spreadAll_append]
    exact List.getLast?_concat

theorem FixedDeclaration.isSealed {text : String} (fixed : FixedDeclaration text) :
    Sealed text.toList := by
  have member : text ∈ declarationsOf (componentsOf text) := by
    rw [fixed.reads]
    exact List.mem_singleton_self text
  obtain ⟨entry, inEntries, written⟩ := List.mem_filterMap.1 member
  obtain ⟨left, used, stop, right, body, parts, isStop, finished⟩ := exists_entry inEntries
  rw [List.nil_append] at parts
  unfold entriesFrom.finish at finished
  -- among declarations an at-rule may stand, which is sealed as one is in a rule list
  cases found : AtRule.ofComponents? used body with
  | some rule =>
      simp only [found] at finished
      rw [List.mem_singleton.1 finished] at written
      exact (ruleText_of_stop fixed.faultless parts isStop found (Option.some.inj written)).isSealed
  | none =>
      cases used with
      | nil =>
          simp only [found] at finished
          cases finished
      | cons first more =>
          simp only [found] at finished
          have declared := List.mem_singleton.1 finished
          cases entry with
          | atRule rule => exact absurd declared.symm (ofDeclaration_ne_atRule first more rule)
          | invalid offset cause => cases written
          | declaration name value important =>
              obtain ⟨offset, gaps, colon, mark, rfl, rfl, marks⟩ := exists_declaration declared.symm
              obtain ⟨long, solid⟩ := declaration_head left gaps offset colon name
              have written := Option.some.inj written
              cases important with
              | false =>
                  subst marks
                  have valueParts : componentsOf text = (left ++ .token offset (.ident name) ::
                      (gaps ++ [.token colon (.delim [':'])])) ++ (value ++ (stop ++ right)) := by
                    rw [parts]
                    simp
                  refine sealed_of_value fixed.faultless valueParts long solid ?_
                  rw [← written]
                  simp [String.toList_append]
              | true =>
                  have valueParts : componentsOf text = (left ++ .token offset (.ident name) ::
                      (gaps ++ [.token colon (.delim [':'])])) ++
                        ((value ++ mark) ++ (stop ++ right)) := by
                    rw [parts]
                    simp
                  refine sealed_of_marked fixed.faultless valueParts long marks ?_
                  rw [← written]
                  simp [String.toList_append]

end StyleSieve
