import StyleSieve.Proofs.Sheet.Partition
import StyleSieve.Proofs.Sheet.Printing
import StyleSieve.Proofs.Sheet.Pruning

/-!
# Reading filtered sheets

Filtering deletes texts of a sheet and changes none of the others, but it may bring another
selector to the start of its rule.  There a text is read in another way than behind a comma:
an at-keyword starts an at-rule, and outside of blocks the delimiters of markup comments are
passed over.  A sheet of texts that are read as themselves is read back from its print just
if none of its rules starts with such a selector, and so is what filtering leaves of it.
-/

namespace StyleSieve

open Css Css.Component

/-! ## The starts of rules -/

/-- Whether a style rule can start with some components: they start neither an at-rule nor
with a component that is passed over. -/
def Level.starts (level : Level) (components : List Component) : Bool :=
  (components.dropWhile Component.isGap).head?.all fun first =>
    first.atKeyword?.isNone && !level.skips first

namespace Rule

mutual

/-- Whether the style rules in a rule start with selectors that can stand there. -/
def opens (level : Level) : Rule → Bool
  | .style selectors _ => selectors.head?.all fun text => level.starts (componentsOf text)
  | .media _ rules => allOpen .inBlock rules
  | .verbatim _ => true

/-- Whether the style rules in some rules start with selectors that can stand there. -/
def allOpen (level : Level) : List Rule → Bool
  | [] => true
  | rule :: rest => rule.opens level && allOpen level rest

end

theorem allOpen_append (level : Level) (first second : List Rule) :
    allOpen level (first ++ second) = (allOpen level first && allOpen level second) := by
  induction first with
  | nil => rfl
  | cons rule rest ih => rw [List.cons_append, allOpen, allOpen, ih, Bool.and_assoc]

theorem allOpen_singleton (level : Level) (rule : Rule) : allOpen level [rule] = rule.opens level :=
  Bool.and_true _

end Rule

/-- How a selector starts does not depend on what follows it. -/
theorem AreSelectors.starts_append {level : Level} {components : List Component} {selector : String}
    (areSelectors : AreSelectors level components [selector]) (more : List Component) :
    level.starts (components ++ more) = level.starts components := by
  have filled := areSelectors.dropWhile_ne_nil
  rw [Level.starts, Level.starts, List.dropWhile_append, if_neg (by simpa using filled),
    List.head?_append_of_ne_nil _ filled]

theorem arePrelude_of_starts {level : Level} {components : List Component} {selectors : List String}
    (areSelectors : AreSelectors level components selectors)
    (starts : level.starts components = true) : ArePrelude level components selectors := by
  refine ⟨areSelectors, fun first isFirst => ?_⟩
  rw [Level.starts, Option.mem_def.1 isFirst, Option.all_some, Bool.and_eq_true,
    Option.isNone_iff_eq_none, Bool.not_eq_true'] at starts
  exact starts

/-! ## Selectors that lose a delimiter -/

theorem length_trimEnd_append {front : List Char} (solid : ∀ c ∈ front, Text.isBlank c = false)
    (text : List Char) :
    (Text.trimEnd (front ++ text)).length = front.length + (Text.trimEnd text).length := by
  have kept : front.reverse.dropWhile Text.isBlank = front.reverse := by
    cases reversed : front.reverse with
    | nil => rfl
    | cons last others =>
        have member : last ∈ front := List.mem_reverse.1 (reversed ▸ List.mem_cons_self)
        exact List.dropWhile_cons_of_neg (by simp [solid last member])
  rw [Text.trimEnd, Text.trimEnd, List.reverse_append, List.dropWhile_append]
  split
  · rename_i nothing
    rw [List.isEmpty_iff.1 nothing, kept]
    simp
  · simp

theorem length_trim_le (text : List Char) :
    (Text.trim text).length ≤ (Text.trimEnd text).length := by
  have parts : text.takeWhile Text.isBlank ++ text.dropWhile Text.isBlank = text :=
    List.takeWhile_append_dropWhile
  conv_rhs => rw [← parts]
  rw [Text.trim, Text.trimEnd, Text.trimEnd, List.reverse_append, List.dropWhile_append]
  split
  · rename_i nothing
    rw [List.isEmpty_iff.1 nothing]
    exact Nat.zero_le _
  · simp

/-- The delimiters of markup comments. -/
def markupDelims : List (List Char) :=
  ["<!--".toList, "-->".toList]

/-- What is passed over outside of blocks and is no gap is a delimiter of a markup comment. -/
theorem markupDelim_of_skips {level : Level} {component : Component}
    (skipped : level.skips component = true) (noGap : component.isGap = false) :
    ∃ offset, ∃ text ∈ markupDelims, component = .token offset (.delim text) := by
  rw [Level.skips, noGap, Bool.false_or, Bool.and_eq_true, Bool.or_eq_true] at skipped
  rcases skipped.2 with isDelim | isDelim
  · obtain ⟨offset, rfl⟩ := eq_delim isDelim
    exact ⟨offset, _, List.mem_cons_self, rfl⟩
  · obtain ⟨offset, rfl⟩ := eq_delim isDelim
    exact ⟨offset, _, List.mem_cons_of_mem _ List.mem_cons_self, rfl⟩

/-- The text of a piece is longer than that of the piece without a delimiter before it. -/
theorem length_trimmedText_lt {text : List Char} (isMarkup : text ∈ markupDelims) (offset : Nat)
    (piece : List Component) :
    (trimmedText piece).length < (trimmedText (.token offset (.delim text) :: piece)).length := by
  simp only [markupDelims, List.mem_cons, List.not_mem_nil, or_false] at isMarkup
  have filled : 0 < text.length := by rcases isMarkup with rfl | rfl <;> exact Nat.succ_pos _
  have solid : ∀ c ∈ text, Text.isBlank c = false := by
    have all : (text.all fun c => !Text.isBlank c) = true := by
      rcases isMarkup with rfl | rfl <;> rfl
    intro c member
    simpa using List.all_eq_true.1 all c member
  have written : Css.write (.token offset (.delim text) :: piece) = text ++ Css.write piece := by
    rcases isMarkup with rfl | rfl <;> cases piece <;> rfl
  have starts : (text ++ Css.write piece).dropWhile Text.isBlank = text ++ Css.write piece := by
    cases text with
    | nil => cases filled
    | cons c more => exact List.dropWhile_cons_of_neg (by simp [solid c List.mem_cons_self])
  have shorter := length_trim_le (Css.write piece)
  have longer : (Text.trim (text ++ Css.write piece)).length =
      text.length + (Text.trimEnd (Css.write piece)).length := by
    rw [Text.trim, starts, length_trimEnd_append solid]
  rw [trimmedText, trimmedText, String.length_ofList, String.length_ofList, written, longer]
  omega

/-- How many characters the selectors of a prelude have. -/
def selectorLength (prelude : List Component) : Nat :=
  ((selectorsOfPrelude prelude).flatMap String.toList).length

theorem selectorLength_eq (prelude : List Component) :
    selectorLength prelude =
      ((splitAtEvery (·.isDelim ",") prelude).flatMap fun piece =>
        (trimmedText piece).toList).length := by
  rw [selectorLength, selectorsOfPrelude]
  refine congrArg List.length ?_
  induction splitAtEvery (·.isDelim ",") prelude with
  | nil => rfl
  | cons piece pieces ih =>
      rw [List.map_cons, List.flatMap_cons, ← ih]
      by_cases isEmpty : trimmedText piece = ""
      · rw [List.filter_cons_of_neg (by simpa using isEmpty), isEmpty]
        rfl
      · rw [List.filter_cons_of_pos (by simpa using isEmpty), List.flatMap_cons]

theorem selectorLength_markupDelim {text : List Char} (isMarkup : text ∈ markupDelims)
    (offset : Nat) (rest : List Component) :
    selectorLength rest < selectorLength (.token offset (.delim text) :: rest) := by
  have noComma : (Component.token offset (.delim text)).isDelim "," = false := by
    simp only [markupDelims, List.mem_cons, List.not_mem_nil, or_false] at isMarkup
    rcases isMarkup with rfl | rfl <;> rfl
  obtain ⟨piece, pieces, split⟩ := exists_splitAtEvery (·.isDelim ",") rest
  rw [selectorLength_eq, selectorLength_eq, splitAtEvery_other noComma split, split,
    List.flatMap_cons, List.flatMap_cons, List.length_append, List.length_append,
    String.length_toList, String.length_toList]
  exact Nat.add_lt_add_right (length_trimmedText_lt isMarkup offset piece) _

/-- Passing over components does not make selectors longer. -/
theorem selectorLength_dropWhile_le (level : Level) {prelude : List Component}
    (sound : SoundAll prelude) :
    selectorLength (prelude.dropWhile level.skips) ≤ selectorLength prelude := by
  induction prelude with
  | nil => exact Nat.le_refl _
  | cons first rest ih =>
      by_cases skipped : level.skips first = true
      · rw [List.dropWhile_cons_of_pos skipped]
        refine Nat.le_trans (ih sound.2) ?_
        cases isGap : first.isGap with
        | true =>
            have same : selectorsOfPrelude ([first] ++ rest) = selectorsOfPrelude rest :=
              selectorsOfPrelude_gaps (by simpa using ⟨isGap, sound.1⟩) rest
            exact Nat.le_of_eq (congrArg (fun texts => (texts.flatMap String.toList).length) same).symm
        | false =>
            obtain ⟨offset, text, isMarkup, rfl⟩ := markupDelim_of_skips skipped isGap
            exact Nat.le_of_lt (selectorLength_markupDelim isMarkup offset rest)
      · rw [List.dropWhile_cons_of_neg skipped]

/-! ## Rules that are read as others -/

/-- Components that are never read as some rules at the start of a rule list. -/
def Misread (level : Level) (components : List Component) (rules : List Rule) : Prop :=
  ∀ more found later, statementsFrom level [] (components ++ more) = .ok found →
    rulesOf found ≠ rules ++ later

/-- A statement that starts with an at-keyword is no style rule. -/
theorem no_style_of_keyword {level : Level} {keyword : Component} {name : List Char}
    (isKeyword : keyword.atKeyword? = some name) {read components : List Component}
    {found : List Statement}
    (parsed : statementsFrom level (keyword :: read) components = .ok found)
    (prelude content : List Component) : found.head? ≠ some (.style prelude content) := by
  induction components generalizing read with
  | nil =>
      simp only [statementsFrom, AtRule.ofComponents?, isKeyword, Option.map_some] at parsed
      cases parsed
      simp
  | cons next rest ih =>
      rw [statementsFrom_cons] at parsed
      cases ends : ended? (keyword :: read) next with
      | some first =>
          rw [ends] at parsed
          obtain ⟨here, rfl, later⟩ := bind_eq_ok parsed
          obtain ⟨more, -, same⟩ := bind_eq_ok later
          cases same
          intro isStyle
          cases ends_of_ended? ends with
          | style _ noRule =>
              rw [AtRule.ofComponents?, isKeyword] at noRule
              cases noRule
          | _ => cases isStyle
      | none =>
          rw [ends] at parsed
          dsimp only at parsed
          obtain ⟨-, -, ⟨nothing, -⟩ | step⟩ := step_of_not_ended level ends
          · cases nothing
          · rw [step] at parsed
            exact ih parsed

/-- A style rule that is read at the start of a rule list has the prelude that is left when
components are passed over, and that starts with no at-keyword. -/
theorem prelude_of_style {level : Level} {prelude content more : List Component}
    (flat : ∀ component ∈ prelude, component.curlyContent? = none) {found : List Statement}
    (parsed : statementsFrom level [] (prelude ++ .block 0 .curly content :: more) = .ok found)
    {read body : List Component} (isFirst : found.head? = some (.style read body)) :
    read = prelude.dropWhile level.skips ∧ ∀ first ∈ read.head?, first.atKeyword? = none := by
  have parts : prelude.takeWhile level.skips ++ prelude.dropWhile level.skips = prelude :=
    List.takeWhile_append_dropWhile
  have flatLeft : ∀ component ∈ prelude.dropWhile level.skips, component.curlyContent? = none :=
    fun component member => flat component ((List.dropWhile_sublist _).subset member)
  have counts : ∀ first ∈ (prelude.dropWhile level.skips).head?, level.skips first = false := by
    intro first isHead
    have head := List.head?_dropWhile_not level.skips prelude
    rw [Option.mem_def.1 isHead] at head
    simpa using head
  rw [← parts, List.append_assoc, statementsFrom_skips level
    fun component member => List.all_eq_true.1 List.all_takeWhile component member] at parsed
  generalize prelude.dropWhile level.skips = left at parsed flatLeft counts ⊢
  by_cases noKeyword : ∀ first ∈ left.head?, first.atKeyword? = none
  · have starts := fun first isHead => And.intro (noKeyword first isHead) (counts first isHead)
    rw [statementsFrom_style level starts flatLeft] at parsed
    cases later : statementsFrom level [] more with
    | error offset =>
        rw [later] at parsed
        cases parsed
    | ok statements =>
        rw [later] at parsed
        cases parsed
        cases isFirst
        exact ⟨rfl, noKeyword⟩
  · simp only [not_forall] at noKeyword
    obtain ⟨first, isHead, keyword⟩ := noKeyword
    obtain ⟨rest, rfl⟩ := List.head?_eq_some_iff.1 isHead
    obtain ⟨name, isKeyword⟩ := Option.ne_none_iff_exists'.1 keyword
    rw [List.cons_append, statementsFrom_first level (flatLeft first List.mem_cons_self)
      (counts first rfl)] at parsed
    exact absurd isFirst (no_style_of_keyword isKeyword parsed read body)

/-- Where a rule cannot start with a prelude, but with what is left when components are
passed over, the selectors that are left are others. -/
theorem selectors_ne_of_starts {level : Level} {prelude : List Component}
    (sound : SoundAll prelude) (starts : level.starts prelude = false)
    (noKeyword : ∀ first ∈ (prelude.dropWhile level.skips).head?, first.atKeyword? = none) :
    selectorsOfPrelude (prelude.dropWhile level.skips) ≠ selectorsOfPrelude prelude := by
  cases solid : prelude.dropWhile Component.isGap with
  | nil =>
      rw [Level.starts, solid] at starts
      cases starts
  | cons first rest =>
      have parts : prelude.takeWhile Component.isGap ++ first :: rest = prelude := by
        rw [← solid, List.takeWhile_append_dropWhile]
      have dropped : prelude.dropWhile level.skips = (first :: rest).dropWhile level.skips := by
        rw [← parts, List.dropWhile_append_of_pos]
        intro component member
        rw [Level.skips, List.all_eq_true.1 List.all_takeWhile component member, Bool.true_or]
      rw [dropped] at noKeyword ⊢
      rw [← selectorsOfPrelude_dropWhile sound, solid]
      cases skipped : level.skips first with
      | true =>
          obtain ⟨offset, text, isMarkup, rfl⟩ :=
            markupDelim_of_skips skipped (dropWhile_gap_head solid)
          have soundRest : SoundAll rest := by
            rw [← parts, soundAll_append] at sound
            exact sound.2.2
          have shorter := Nat.lt_of_le_of_lt (selectorLength_dropWhile_le level soundRest)
            (selectorLength_markupDelim isMarkup offset rest)
          rw [List.dropWhile_cons_of_pos skipped]
          intro same
          rw [selectorLength, selectorLength, same] at shorter
          exact absurd shorter (Nat.lt_irrefl _)
      | false =>
          rw [List.dropWhile_cons_of_neg (by simp [skipped])] at noKeyword
          rw [Level.starts, solid, List.head?_cons, Option.all_some, noKeyword first rfl,
            skipped] at starts
          cases starts

/-- A style rule that cannot start with its first selector is read as another rule. -/
theorem misread_style {level : Level} {prelude : List Component} {selectors : List String}
    (areSelectors : AreSelectors level prelude selectors) (starts : level.starts prelude = false)
    (content : List Component) (declarations : List String) :
    Misread level (prelude ++ [.block 0 .curly content]) [.style selectors declarations] := by
  intro more found later parsed same
  rw [List.append_assoc, List.singleton_append] at parsed
  -- what is read first would be a style rule with the same selectors
  obtain ⟨read, body, isFirst, reads⟩ : ∃ read body, found.head? = some (.style read body) ∧
      selectorsOfPrelude read = selectors := by
    cases found with
    | nil => cases same
    | cons first others =>
        cases first with
        | style read body =>
            cases same
            exact ⟨read, body, rfl, rfl⟩
        | media condition inner => cases same
        | atRule rule => cases same
  obtain ⟨rfl, noKeyword⟩ := prelude_of_style
    (fun component member => (areSelectors.members component member).2) parsed isFirst
  have sound : SoundAll prelude :=
    soundAll_of_admits fun component member => (areSelectors.members component member).1
  exact selectors_ne_of_starts sound starts noKeyword (reads.trans areSelectors.reads.symm)

/-- A media rule is read as another one where the rules in it are. -/
theorem misread_media {level : Level} {prelude content : List Component} {rules : List Rule}
    (flat : ∀ component ∈ prelude, level.AdmitsPrelude component)
    (inside : Misread .inBlock content rules) (condition : String) :
    Misread level (.token 0 (.atKeyword "media".toList) :: (prelude ++ [.block 0 .curly content]))
      [.media condition rules] := by
  intro more found later parsed same
  rw [List.cons_append, List.append_assoc, List.singleton_append,
    statementsFrom_mediaRule flat] at parsed
  obtain ⟨inner, isInner, parsed⟩ := bind_eq_ok parsed
  obtain ⟨others, _, parsed⟩ := bind_eq_ok parsed
  cases parsed
  have sameInner : rulesOf inner = rules := by
    cases same
    rfl
  refine inside [] inner [] ?_ ?_
  · rw [List.append_nil]
    exact isInner
  · rw [List.append_nil]
    exact sameInner

/-! ## Components of printed rules -/

/-- The components that printed rules are read as: they make up the rules if the rules start
with selectors that can stand there, and are read as other rules if not. -/
structure ArePrinted (level : Level) (components : List Component) (rules : List Rule) : Prop where
  admits : ∀ component ∈ components, level.Admits component
  areRules : Rule.allOpen level rules = true → AreRules level components rules
  misread : Rule.allOpen level rules = false → Misread level components rules

theorem AreRules.printed {level : Level} {components : List Component} {rules : List Rule}
    (areRules : AreRules level components rules) (opens : Rule.allOpen level rules = true) :
    ArePrinted level components rules :=
  ⟨areRules.admits, fun _ => areRules, fun closed => by rw [opens] at closed; cases closed⟩

theorem ArePrinted.append {level : Level} {components others : List Component}
    {rules more : List Rule} (first : ArePrinted level components rules)
    (second : ArePrinted level others more) :
    ArePrinted level (components ++ others) (rules ++ more) := by
  constructor
  · exact List.forall_mem_append.2 ⟨first.admits, second.admits⟩
  · intro opens
    rw [Rule.allOpen_append, Bool.and_eq_true] at opens
    exact (first.areRules opens.1).append (second.areRules opens.2)
  · intro closed further found later parsed same
    rw [List.append_assoc] at parsed same
    rw [Rule.allOpen_append] at closed
    cases opens : Rule.allOpen level rules with
    | false => exact first.misread opens _ found _ parsed same
    | true =>
        rw [opens, Bool.true_and] at closed
        obtain ⟨begun, reads, rfl⟩ := (first.areRules opens).statements
        rw [reads] at parsed
        cases parsedLater : statementsFrom level [] (others ++ further) with
        | error offset =>
            rw [parsedLater] at parsed
            cases parsed
        | ok rest =>
            rw [parsedLater] at parsed
            cases parsed
            rw [rulesOf_append] at same
            exact second.misread closed further rest later parsedLater
              (List.append_cancel_left same)

theorem ArePrinted.composes (level : Level) : Composes (ArePrinted level) :=
  ⟨fun areBlank => (AreRules.blanks areBlank level).printed rfl, fun first second =>
    first.append second⟩

/-! ## Printed sheets -/

namespace Rule

mutual

/-- A rule whose texts are read as themselves, wherever its selectors stand among them. -/
def Steady : Rule → Prop
  | .style selectors declarations =>
      (∀ text ∈ selectors, FixedSelector text) ∧ ∀ text ∈ declarations, FixedDeclaration text
  | .media condition rules => FixedCondition condition ∧ AllSteady rules
  | .verbatim text => FixedVerbatim text

/-- Rules whose texts are read as themselves, wherever the selectors stand in them. -/
def AllSteady : List Rule → Prop
  | [] => True
  | rule :: rest => rule.Steady ∧ AllSteady rest

end

end Rule

/-- The prelude of a style rule that starts as its first selector does. -/
structure IsPrelude (level : Level) (components : List Component) (selectors : List String) :
    Prop extends AreSelectors level components selectors where
  starts : level.starts components =
    selectors.head?.all fun text => level.starts (componentsOf text)

theorem IsPrelude.gaps {gaps : List Component}
    (areGaps : ∀ gap ∈ gaps, gap.isGap = true ∧ gap.Sound) (level : Level) :
    IsPrelude level gaps [] := by
  refine ⟨.gaps areGaps level, ?_⟩
  have nothing : gaps.dropWhile Component.isGap = [] := by
    rw [List.dropWhile_eq_nil_iff]
    exact fun gap member => (areGaps gap member).1
  rw [Level.starts, nothing]
  rfl

theorem IsPrelude.comma {level : Level} {first second : List Component} {selector : String}
    {others : List String} (isPrelude : IsPrelude level first [selector])
    (areSelectors : AreSelectors level second others) :
    IsPrelude level (first ++ .token 0 (.delim [',']) :: second) (selector :: others) := by
  refine ⟨isPrelude.toAreSelectors.comma areSelectors, ?_⟩
  rw [isPrelude.starts_append, isPrelude.starts]
  rfl

theorem FixedSelector.spellsPrelude {text : String} (fixed : FixedSelector text) (level : Level) :
    SpellsPiece text (IsPrelude level · [text]) := by
  have areSelectors := fixed.areSelectors level
  exact fixed.spells fun areGaps =>
    ⟨areSelectors.append_gaps areGaps, areSelectors.starts_append _⟩

namespace Rule

mutual

/-- A rule whose texts are read as themselves is printed as components that make up the rule,
or other rules. -/
theorem Steady.printed (level : Level) (depth : Nat) {rule : Rule} (steady : rule.Steady) :
    SpellsBefore ['\n'] (rule.print depth).toList (ArePrinted level · [rule]) := by
  cases rule with
  | style selectors declarations =>
      rw [Steady] at steady
      have spellsPrelude := spells_prelude (padding_blank depth)
        (fun areGaps => IsPrelude.gaps areGaps level)
        (fun isPrelude areSelectors => isPrelude.comma areSelectors)
        (fun text member => (steady.1 text member).spells
          ((steady.1 text member).areSelectors level).append_gaps)
        fun text isFirst =>
          (steady.1 text (List.mem_of_mem_head? isFirst)).spellsPrelude level
      refine (spells_style (ArePrinted.composes level) depth spellsPrelude
        (fun text member => (steady.2 text member).spells) ?_).before ['\n']
      rintro prelude content isPrelude areDeclarations
      -- whether the rule opens as a style rule is seen from the prelude alone
      have opens : allOpen level [.style selectors declarations] = level.starts prelude := by
        rw [allOpen_singleton, Rule.opens, isPrelude.starts]
      constructor
      · rw [List.forall_mem_append, List.forall_mem_singleton]
        exact ⟨fun component member => (isPrelude.members component member).1,
          (sound_curly 0 content).2 areDeclarations.admits, fun _ => nofun⟩
      · intro isOpen
        rw [opens] at isOpen
        exact .style (arePrelude_of_starts isPrelude.toAreSelectors isOpen) areDeclarations
      · intro closed
        rw [opens] at closed
        exact misread_style isPrelude.toAreSelectors closed content declarations
  | media condition rules =>
      rw [Steady] at steady
      have nothing : ∀ c ∈ ([] : List Char), isSpace c = true := by simp
      have inside := spells_lines (ArePrinted.composes .inBlock) (depth + 1) nothing rules
        (AllSteady.printed .inBlock (depth + 1) steady.2)
      refine (spells_mediaRule (ArePrinted.composes level) (ArePrinted.composes .inBlock) depth
        (steady.1.spells level) inside ?_).before ['\n']
      intro prelude content admits arePrinted
      constructor
      · exact ruleComponents_admits (sound_media admits arePrinted.admits)
      · intro isOpen
        rw [allOpen_singleton, Rule.opens] at isOpen
        exact .media admits (arePrinted.areRules isOpen)
      · intro closed
        rw [allOpen_singleton, Rule.opens] at closed
        exact misread_media admits (arePrinted.misread closed) _
  | verbatim text =>
      rw [Steady] at steady
      have areBlank := padding_blank depth
      rw [Rule.print, String.toList_append, toList_indentation]
      exact spells_blanks_append areBlank
        ((steady.spells level).mono fun _ areRules => areRules.printed rfl)
        fun _ arePrinted => ((ArePrinted.composes level).pad areBlank arePrinted).1

theorem AllSteady.printed (level : Level) (depth : Nat) {rules : List Rule}
    (steady : AllSteady rules) :
    ∀ rule ∈ rules, SpellsBefore ['\n'] (rule.print depth).toList (ArePrinted level · [rule]) := by
  cases rules with
  | nil => exact List.forall_mem_nil _
  | cons rule rest =>
      rw [AllSteady] at steady
      exact List.forall_mem_cons.2
        ⟨steady.1.printed level depth, steady.2.printed level depth⟩

end

end Rule

/-- Whether a sheet is read back from its print. -/
def Stylesheet.ReadsBack (sheet : Stylesheet) : Prop :=
  Stylesheet.parse sheet.print = .ok sheet

instance (sheet : Stylesheet) : Decidable sheet.ReadsBack :=
  inferInstanceAs (Decidable (_ = _))

/-- A sheet whose texts are read as themselves is read back from its print just if its rules
start with selectors that can stand there. -/
theorem Rule.AllSteady.readsBack_iff {sheet : Stylesheet} (steady : Rule.AllSteady sheet.rules) :
    sheet.ReadsBack ↔ Rule.allOpen .outermost sheet.rules = true := by
  have spells := spells_sheet (ArePrinted.composes .outermost) sheet (steady.printed .outermost 0)
  constructor
  · intro readsBack
    obtain ⟨components, arePrinted, reads⟩ := spells []
    simp only [List.append_nil, normalizeNewlines, plain_nil] at reads
    obtain ⟨found, parsed, same⟩ :=
      (parse_eq_ok_of_reads (soundAll_of_admits arePrinted.admits) reads).1 readsBack
    by_contra closed
    refine arePrinted.misread (Bool.eq_false_iff.2 closed) [] found [] ?_ ?_
    · rw [List.append_nil, parsed]
    · rw [List.append_nil, same]
  · intro isOpen
    exact parse_of_spells (spells.mono fun _ arePrinted => arePrinted.areRules isOpen)

/-! ## Filtering -/

namespace Rule

theorem AllSteady.append {first second : List Rule} (steadyFirst : AllSteady first)
    (steadySecond : AllSteady second) : AllSteady (first ++ second) := by
  induction first with
  | nil => exact steadySecond
  | cons rule rest ih =>
      rw [AllSteady] at steadyFirst
      rw [List.cons_append, AllSteady]
      exact ⟨steadyFirst.1, ih steadyFirst.2⟩

mutual

theorem Steady.sift? (wanted : String → Bool) {rule : Rule} (steady : rule.Steady) :
    AllSteady (rule.sift? wanted).toList := by
  cases rule with
  | style selectors declarations =>
      rw [Steady] at steady
      rw [Rule.sift?]
      split
      · trivial
      · simp only [Option.toList_some, AllSteady, Steady, and_true]
        exact ⟨fun text member => steady.1 text (List.mem_filter.1 member).1, steady.2⟩
  | media condition rules =>
      rw [Steady] at steady
      have inner := AllSteady.siftAll wanted steady.2
      rw [Rule.sift?]
      split
      · trivial
      · simp only [Option.toList_some, AllSteady, Steady, and_true]
        exact ⟨steady.1, inner⟩
  | verbatim text => exact ⟨steady, trivial⟩

/-- Sifting leaves the texts of rules as they are. -/
theorem AllSteady.siftAll (wanted : String → Bool) {rules : List Rule}
    (steady : AllSteady rules) : AllSteady (siftAll wanted rules) := by
  cases rules with
  | nil => trivial
  | cons rule rest =>
      rw [AllSteady] at steady
      rw [Rule.siftAll]
      exact (steady.1.sift? wanted).append (steady.2.siftAll wanted)

end

end Rule

/-- What filtering leaves of a sheet whose texts are read as themselves is read back from its
print just if the rules that are left start with selectors that can stand there. -/
theorem filter_readsBack_iff (sheet : Stylesheet) (entries : List Selector.KeepEntry)
    (used : List String) (steady : Rule.AllSteady sheet.rules) :
    (sheet.filter entries used).ReadsBack ↔
      Rule.allOpen .outermost (sheet.filter entries used).rules = true := by
  apply Rule.AllSteady.readsBack_iff
  rw [Stylesheet.filter_eq_sift]
  exact steady.siftAll _

/-- Two rules in a media rule, of which one loses its first selector and the other one all, an
at-rule, and a selector like an at-rule that is read back behind another one only. -/
theorem filter_readsBack_iff_nested :
    let sheet : Stylesheet := ⟨[.media "m" [.style ["a", "b:not(c)"] ["d: e"], .style ["f"] []],
      .verbatim "@g h;", .style ["i", "j", "@page"] ["k: l !important"]]⟩
    (sheet.filter [.exact "j"] ["b:not(c)"]).ReadsBack ∧
      ¬(sheet.filter [] ["b:not(c)"]).ReadsBack := by
  intro sheet
  have selectors : ∀ text ∈ ["a", "b:not(c)", "f", "i", "j", "@page"], FixedSelector text := by
    decide +kernel
  have declarations : ∀ text ∈ ["d: e", "k: l !important"], FixedDeclaration text := by
    decide +kernel
  have condition : FixedCondition "m" := by decide +kernel
  have verbatim : FixedVerbatim "@g h;" := ⟨by decide +kernel, by decide +kernel⟩
  have steady : Rule.AllSteady sheet.rules := by
    simp only [List.forall_mem_cons] at selectors declarations
    simp [sheet, Rule.AllSteady, Rule.Steady, selectors, declarations, condition, verbatim]
  rw [filter_readsBack_iff sheet [.exact "j"] ["b:not(c)"] steady,
    filter_readsBack_iff sheet [] ["b:not(c)"] steady]
  decide +kernel

/-- Sheets that are read back from their print, but not after filtering: a selector that
starts like an at-rule stays alone, and so does one that starts like a delimiter of a markup
comment, which is passed over. -/
theorem filter_not_readsBack :
    let sheet (kept : String) : Stylesheet := ⟨[.style ["a", kept] ["c: d"]]⟩
    let filtered (kept : String) := (sheet kept).filter [.exact kept] []
    ((sheet "@page").ReadsBack ∧ ¬(filtered "@page").ReadsBack) ∧
      ((sheet "--> b").ReadsBack ∧ ¬(filtered "--> b").ReadsBack) ∧
        (sheet "<!-- b").ReadsBack ∧ ¬(filtered "<!-- b").ReadsBack := by
  decide +kernel

end StyleSieve
