import Mathlib.Data.Bool.AllAny
import StyleSieve.Proofs.Sheet.Fixpoints
import StyleSieve.Proofs.Sheet.Layout

/-!
# Reading printed sheets

A sheet whose texts are read alone as themselves is read back from its print: a text that is
sealed is read alone before the comma, the semicolon, the blank or the block that is printed
after it.
-/

namespace StyleSieve

open Css Css.Component

/-! ## Sealed texts before other text -/

/-- A sealed text is read alone before a comma or a semicolon. -/
theorem Sealed.spells {text : List Char} (isSealed : Sealed text) {edge : Char}
    (isEdge : edge ∈ [',', ';']) :
    SpellsBefore [edge] text (· = significantComponents text) := by
  have apart : ∀ c ∈ [',', ';'], c ∈ edges ∧ isSpace c = false ∧ c ≠ '\n' ∧ isClean c = true :=
    List.all_iff_forall_prop.1 (by decide)
  obtain ⟨inEdges, notSpace, noFeed, isClean⟩ := apart edge isEdge
  intro rest
  refine ⟨_, rfl, ?_⟩
  have normalized : normalizeNewlines (edge :: rest) = edge :: normalizeNewlines rest :=
    (clean_singleton isClean).normalize_append rest
  rw [List.singleton_append, normalizeNewlines_append noFeed, normalized, isSealed.complete]
  rcases isSealed.joins edge inEdges (normalizeNewlines rest) with same | ⟨isBlank, _⟩
  · exact same
  · rw [notSpace] at isBlank
    cases isBlank

/-- A sealed text is read alone before a space and a block, except that its last escape may
take the space. -/
theorem Sealed.spells_space {text : List Char} (isSealed : Sealed text) :
    SpellsBefore ['\x7b'] (text ++ [' ']) fun components =>
      ∃ gaps, components = significantComponents text ++ gaps ∧
        ∀ gap ∈ gaps, gap.isGap = true ∧ gap.Sound := by
  intro rest
  have normalized : normalizeNewlines (text ++ [' '] ++ (['\x7b'] ++ rest)) =
      normalizeNewlines text ++ ' ' :: '\x7b' :: normalizeNewlines rest := by
    rw [List.append_assoc, List.singleton_append, normalizeNewlines_append (by decide)]
    rfl
  have opened : normalizeNewlines (['\x7b'] ++ rest) = '\x7b' :: normalizeNewlines rest :=
    (clean_singleton (by decide)).normalize_append rest
  rw [normalized, opened]
  rcases isSealed.joins ' ' (by decide) ('\x7b' :: normalizeNewlines rest) with same | ⟨_, _, same⟩
  · refine ⟨_, ⟨blanks [' '], rfl, ?_⟩, ?_⟩
    · intro gap member
      rw [List.mem_singleton.1 member]
      exact ⟨rfl, by simp, by simp [isSpace]⟩
    · rw [same, settledAll_append, spreadAll_append, settledAll_of_blanks, spreadAll_blanks,
        isSealed.complete, plain_space rfl, List.append_assoc]
      rfl
  · refine ⟨_, ⟨[], rfl, by simp⟩, ?_⟩
    rw [same _ rfl, List.append_nil, isSealed.complete]

theorem not_endsInHex {text : List Char} {rule : AtRule} (written : text = rule.write) :
    ¬EndsInHex text := by
  obtain ⟨middle, last, ends, closes⟩ := exists_ends rule
  rintro ⟨digit, isLast, isHex⟩
  rw [written, ends, ← List.cons_append, List.getLast?_concat] at isLast
  cases isLast
  simp only [isCloser, Bool.or_eq_true, beq_iff_eq] at closes
  rcases closes with ((rfl | rfl) | rfl) | rfl <;> cases isHex

/-- The text of an at-rule is read as the at-rule before a line break. -/
theorem SpellsRule.spells {text : List Char} {rule : AtRule} (spells : SpellsRule text rule)
    (level : Level) :
    SpellsBefore ['\n'] text (AreRules level · [.verbatim (String.ofList (Text.trim rule.write))]) := by
  obtain ⟨⟨isSealed, written, clean, count, reads⟩, other, sound⟩ := spells
  intro rest
  have spaces : ∀ c ∈ List.replicate count ' ', isSpace c = true := by
    intro c member
    rw [List.eq_of_mem_replicate member]
    rfl
  refine ⟨_, (AreRules.atRule (sound level) other).append (.blanks spaces level), ?_⟩
  have opened : normalizeNewlines (['\n'] ++ rest) = '\n' :: normalizeNewlines rest :=
    (clean_singleton (by decide)).normalize_append rest
  have same : plain (text ++ '\n' :: normalizeNewlines rest) =
      plain text ++ plain ('\n' :: normalizeNewlines rest) := by
    rcases isSealed.joins '\n' (by decide) (normalizeNewlines rest) with same | ⟨_, endsInHex, _⟩
    · rwa [clean.normalize] at same
    · rw [clean.normalize] at endsInHex
      exact absurd endsInHex (not_endsInHex written)
  rw [clean.normalize_append, opened, same, reads, settledAll_append, spreadAll_append,
    settledAll_of_blanks, spreadAll_blanks, List.map_replicate]
  rfl

/-! ## Texts that are fixpoints -/

theorem componentsOf_admits {text : String} (faultless : areFaultless (componentsOf text) = true)
    (level : Level) : ∀ component ∈ componentsOf text, level.Admits component :=
  admits_of_faultless (significantComponents_sound text.toList) faultless level

theorem FixedSelector.areSelectors {text : String} (fixed : FixedSelector text) (level : Level) :
    AreSelectors level (componentsOf text) [text] :=
  ⟨fun component member => ⟨componentsOf_admits fixed.faultless level component member,
    fixed.flat component member⟩, fixed.reads⟩

theorem FixedSelector.arePrelude {text : String} (fixed : FixedSelector text)
    (opens : OpensRule text) (level : Level) : ArePrelude level (componentsOf text) [text] := by
  refine ⟨fixed.areSelectors level, ?_⟩
  intro first isFirst
  obtain ⟨noKeyword, notOpening, notClosing⟩ := opens first isFirst
  obtain ⟨later, dropped⟩ := List.head?_eq_some_iff.1 isFirst
  refine ⟨noKeyword, ?_⟩
  rw [Level.skips, dropWhile_gap_head dropped, notOpening, notClosing]
  cases level <;> rfl

/-- A selector is read alone before a comma, and up to a gap before a block. -/
theorem FixedSelector.spells {text : String} (fixed : FixedSelector text)
    {kind : List Component → Prop}
    (append : ∀ {gaps}, (∀ gap ∈ gaps, gap.isGap = true ∧ gap.Sound) →
      kind (componentsOf text ++ gaps)) : SpellsPiece text kind :=
  .of_gaps (fixed.isSealed.1.spells (by decide)) fixed.isSealed.1.spells_space append

theorem FixedDeclaration.spells {text : String} (fixed : FixedDeclaration text) :
    SpellsDeclaration text := by
  refine (fixed.isSealed.spells (by decide)).mono ?_
  rintro _ rfl
  have areDeclarations := AreDeclarations.ended (componentsOf_admits fixed.faultless .inBlock)
  rw [fixed.reads] at areDeclarations
  exact areDeclarations

theorem FixedCondition.spells {text : String} (fixed : FixedCondition text) (level : Level) :
    SpellsCondition level text := by
  refine fixed.isSealed.1.spells_space.mono ?_
  rintro _ ⟨gaps, rfl, areGaps⟩
  constructor
  · refine List.forall_mem_append.2 ⟨?_, admitsPrelude_gaps areGaps level⟩
    intro component member
    exact ⟨componentsOf_admits fixed.faultless level component member, fixed.flat component member⟩
  · have trimmed : trimmedText ([] ++ (componentsOf text ++ gaps)) = trimmedText (componentsOf text) :=
      trimmedText_gaps _ (by simp) areGaps
    exact trimmed.trans fixed.reads

theorem FixedVerbatim.spells {text : String} (fixed : FixedVerbatim text) (level : Level) :
    SpellsBefore ['\n'] text.toList (AreRules level · [.verbatim text]) := by
  obtain ⟨rule, spells, written⟩ := fixed.spellsRule
  have reads := spells.spells level
  rw [written] at reads
  exact reads

/-! ## Sheets -/

mutual

/-- A rule whose texts are read alone as themselves is printed so that they are read as
themselves. -/
theorem Rule.Fixed.spelled (level : Level) (rule : Rule) (fixed : rule.Fixed) :
    rule.Spelled level := by
  cases rule with
  | style selectors declarations =>
      rw [Rule.Fixed] at fixed
      obtain ⟨fixedSelectors, opens, fixedDeclarations⟩ := fixed
      rw [Rule.Spelled]
      refine ⟨fun text member => (fixedSelectors text member).spells
          ((fixedSelectors text member).areSelectors level).append_gaps, ?_,
        fun text member => (fixedDeclarations text member).spells⟩
      intro text isFirst
      have fixed := fixedSelectors text (List.mem_of_mem_head? isFirst)
      exact fixed.spells (fixed.arePrelude (opens text isFirst) level).append_gaps
  | media condition rules =>
      rw [Rule.Fixed] at fixed
      rw [Rule.Spelled]
      exact ⟨fixed.1.spells level, Rule.FixedAll.spelled .inBlock rules fixed.2⟩
  | verbatim text =>
      rw [Rule.Fixed] at fixed
      rw [Rule.Spelled]
      exact fixed.spells level

theorem Rule.FixedAll.spelled (level : Level) (rules : List Rule) (fixed : Rule.FixedAll rules) :
    Rule.SpelledAll level rules := by
  cases rules with
  | nil => trivial
  | cons rule rest =>
      rw [Rule.FixedAll] at fixed
      rw [Rule.SpelledAll]
      exact ⟨Rule.Fixed.spelled level rule fixed.1, Rule.FixedAll.spelled level rest fixed.2⟩

end

/-- A sheet whose texts are read as themselves is read back from its print. -/
theorem parse_print (sheet : Stylesheet) (fixed : Rule.FixedAll sheet.rules) :
    Stylesheet.parse sheet.print = .ok sheet := by
  exact parse_print_of_spelled (Rule.FixedAll.spelled .outermost sheet.rules fixed)

/-- A sheet with rules without selectors and without declarations, an empty media rule in
another one, and texts with escapes and brackets. -/
theorem parse_print_nested :
    let sheet : Stylesheet := ⟨[.style [] ["c: d"], .media "(min-width: 1px) and x"
      [.style ["a\\:b:not(.c, d)", "[e=\"\x7b;\"]"] [], .media "" [],
        .verbatim "@f g\x7bh, i\x7d", .style [".j"] ["k: url(l) !important", "@m n;"]]]⟩
    Stylesheet.parse sheet.print = .ok sheet := by
  intro sheet
  have verbatim : FixedVerbatim "@f g\x7bh, i\x7d" := ⟨by decide +kernel, by decide +kernel⟩
  have conditions : ∀ text ∈ ["(min-width: 1px) and x", ""], FixedCondition text := by
    decide +kernel
  have selectors : ∀ text ∈ ["a\\:b:not(.c, d)", "[e=\"\x7b;\"]", ".j"], FixedSelector text := by
    decide +kernel
  have openings : ∀ text ∈ ["a\\:b:not(.c, d)", ".j"], OpensRule text := by decide +kernel
  have declarations : ∀ text ∈ ["c: d", "k: url(l) !important", "@m n;"],
      FixedDeclaration text := by
    decide +kernel
  refine parse_print sheet ?_
  simp only [List.forall_mem_cons] at conditions selectors openings declarations
  simp [sheet, Rule.FixedAll, Rule.Fixed, verbatim, conditions, selectors, openings, declarations]

end StyleSieve
