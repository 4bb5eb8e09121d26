import StyleSieve.Proofs.Sheet.SettledEntries

/-!
# The edges of a piece

A selector, a condition or a value is read with the gaps around it and printed without
them.  The gaps at its edges change neither its trimmed text nor the marking of a value.
-/

namespace StyleSieve

open Css Css.Component

/-! ## Blank edges of a text -/

theorem trim_blank_append {blankText : List Char} (areBlank : ∀ c ∈ blankText, Text.isBlank c = true)
    (text : List Char) : Text.trim (blankText ++ text) = Text.trim text := by
  rw [Text.trim, Text.trim, List.dropWhile_append_of_pos areBlank]

theorem trimEnd_append_blank {blankText : List Char}
    (areBlank : ∀ c ∈ blankText, Text.isBlank c = true) (text : List Char) :
    Text.trimEnd (text ++ blankText) = Text.trimEnd text := by
  rw [Text.trimEnd, Text.trimEnd, List.reverse_append, List.dropWhile_append_of_pos]
  intro c member
  exact areBlank c (List.mem_reverse.1 member)

theorem trim_append_blank {blankText : List Char}
    (areBlank : ∀ c ∈ blankText, Text.isBlank c = true) (text : List Char) :
    Text.trim (text ++ blankText) = Text.trim text := by
  rw [Text.trim, Text.trim, List.dropWhile_append]
  split
  · rename_i allBlank
    rw [List.isEmpty_iff.1 allBlank, ← List.nil_append (List.dropWhile Text.isBlank blankText),
      trimEnd_append_blank]
    intro c member
    exact areBlank c ((List.dropWhile_sublist _).subset member)
  · exact trimEnd_append_blank areBlank _

/-- A text with no blank at its two ends is trimmed already. -/
theorem trim_eq_self {first last : Char} {middle : List Char}
    (startsSolid : Text.isBlank first = false) (endsSolid : Text.isBlank last = false) :
    Text.trim (first :: (middle ++ [last])) = first :: (middle ++ [last]) := by
  rw [Text.trim, List.dropWhile_cons_of_neg (by rw [startsSolid]; exact Bool.false_ne_true),
    Text.trimEnd, ← List.cons_append, List.reverse_concat,
    List.dropWhile_cons_of_neg (by rw [endsSolid]; exact Bool.false_ne_true), List.reverse_cons,
    List.reverse_reverse]

/-- The text of an at-rule starts with its at-keyword and ends with its end. -/
theorem trim_write (rule : AtRule) : Text.trim rule.write = rule.write := by
  obtain ⟨name, prelude, body⟩ := rule
  cases body with
  | none =>
      have shape : AtRule.write ⟨name, prelude, none⟩ =
          '@' :: ((writeIdent name ++ Css.write prelude) ++ [';']) := rfl
      rw [shape, trim_eq_self rfl rfl]
  | some content =>
      have shape : AtRule.write ⟨name, prelude, some content⟩ =
          '@' :: ((writeIdent name ++ Css.write prelude ++ '\x7b' :: Css.write content) ++
            ['\x7d']) := by
        simp [AtRule.write]
      rw [shape, trim_eq_self rfl rfl]

/-! ## Edges -/

/-- The components of a piece without the gaps at its two ends. -/
def core (piece : List Component) : List Component :=
  ((piece.dropWhile Component.isGap).reverse.dropWhile Component.isGap).reverse

theorem exists_edges (piece : List Component) :
    ∃ before after, piece = before ++ (core piece ++ after) ∧
      (∀ component ∈ before, component.isGap = true) ∧
        ∀ component ∈ after, component.isGap = true := by
  refine ⟨piece.takeWhile Component.isGap,
    ((piece.dropWhile Component.isGap).reverse.takeWhile Component.isGap).reverse, ?_, ?_, ?_⟩
  · rw [core, ← List.reverse_append, List.takeWhile_append_dropWhile, List.reverse_reverse,
      List.takeWhile_append_dropWhile]
  · exact fun component member => List.all_eq_true.1 List.all_takeWhile component member
  · intro component member
    exact List.all_eq_true.1 List.all_takeWhile component (List.mem_reverse.1 member)

theorem mem_of_mem_core {piece : List Component} {component : Component}
    (member : component ∈ core piece) : component ∈ piece := by
  obtain ⟨before, after, whole, _, _⟩ := exists_edges piece
  rw [whole]
  exact List.mem_append_right before (List.mem_append_left after member)

/-- The core of a piece starts with no gap. -/
theorem dropWhile_core (piece : List Component) :
    (core piece).dropWhile Component.isGap = core piece := by
  have inPiece : core piece <+: piece.dropWhile Component.isGap := by
    have dropped := List.dropWhile_suffix Component.isGap
      (l := (piece.dropWhile Component.isGap).reverse)
    rw [← List.reverse_prefix, List.reverse_reverse] at dropped
    exact dropped
  cases shape : core piece with
  | nil => rfl
  | cons first rest =>
      obtain ⟨more, whole⟩ := shape ▸ inPiece
      have noGap := dropWhile_gap_head whole.symm
      exact List.dropWhile_cons_of_neg (by simp [noGap])

/-- The edges of a sound piece are sound gaps. -/
theorem exists_soundEdges {piece : List Component} (sound : SoundAll piece) :
    ∃ before after, piece = before ++ (core piece ++ after) ∧
      (∀ component ∈ before, component.isGap = true ∧ component.Sound) ∧
        ∀ component ∈ after, component.isGap = true ∧ component.Sound := by
  obtain ⟨before, after, whole, gapsBefore, gapsAfter⟩ := exists_edges piece
  rw [soundAll_iff, whole] at sound
  refine ⟨before, after, whole, ?_, ?_⟩
  · intro component member
    exact ⟨gapsBefore component member, sound component (List.mem_append_left _ member)⟩
  · intro component member
    exact ⟨gapsAfter component member,
      sound component (List.mem_append_right _ (List.mem_append_right _ member))⟩

/-! ## Gaps around components -/

theorem isGap_cases {component : Component} (isGap : component.isGap = true) (sound : component.Sound) :
    ∃ offset text, component = .token offset (.whitespace text) ∧
      ∀ c ∈ text, Text.isBlank c = true := by
  rcases settles_cases sound with ⟨offset, text, rfl, filled⟩ | ⟨piece, settles⟩
  · refine ⟨offset, text, rfl, ?_⟩
    intro c member
    have isSpaceChar := sound.2 c member
    simp only [isSpace, Bool.or_eq_true, beq_iff_eq] at isSpaceChar
    rcases isSpaceChar with (rfl | rfl) | rfl <;> rfl
  · rw [settles.notGap] at isGap
    cases isGap

/-- Nothing is written between white space and what follows it. -/
theorem writeFrom_whitespace (components : List Component) :
    writeFrom .whitespace components = Css.write components := by
  cases components with
  | nil => rfl
  | cons next rest => rw [writeFrom_eq, separator]; rfl

theorem write_gaps_append {before : List Component}
    (areGaps : ∀ component ∈ before, component.isGap = true ∧ component.Sound)
    (components : List Component) :
    ∃ text, Css.write (before ++ components) = text ++ Css.write components ∧
      ∀ c ∈ text, Text.isBlank c = true := by
  induction before with
  | nil => exact ⟨[], rfl, by simp⟩
  | cons gap rest ih =>
      obtain ⟨isGap, others⟩ := List.forall_mem_cons.1 areGaps
      obtain ⟨offset, blankText, rfl, areBlank⟩ := isGap_cases isGap.1 isGap.2
      obtain ⟨text, written, restBlank⟩ := ih others
      refine ⟨blankText ++ text, ?_, ?_⟩
      · rw [List.cons_append, Css.write, writeFrom_cons, List.append_assoc, ← written]
        exact congrArg (blankText ++ ·) (writeFrom_whitespace _)
      · exact List.forall_mem_append.2 ⟨areBlank, restBlank⟩

theorem isBlank_separator (before : Kind) (offset : Nat) (text : List Char) :
    ∀ c ∈ separator before (.token offset (.whitespace text)), Text.isBlank c = true := by
  have apart : before.runsInto .whitespace = false := by
    unfold Kind.runsInto
    split <;> rfl
  rw [separator, Component.kind, apart]
  simp only [Bool.false_eq_true, if_false]
  split
  · intro c member
    rw [List.mem_singleton.1 member]
    rfl
  · simp

theorem writeFrom_append_gaps (before : Kind) (components : List Component)
    {after : List Component}
    (areGaps : ∀ component ∈ after, component.isGap = true ∧ component.Sound) :
    ∃ text, writeFrom before (components ++ after) = writeFrom before components ++ text ∧
      ∀ c ∈ text, Text.isBlank c = true := by
  induction components generalizing before with
  | nil =>
      refine ⟨writeFrom before after, rfl, ?_⟩
      cases after with
      | nil => simp [writeFrom]
      | cons gap rest =>
          obtain ⟨isGap, _⟩ := List.forall_mem_cons.1 areGaps
          obtain ⟨offset, spaces, rfl, _⟩ := isGap_cases isGap.1 isGap.2
          obtain ⟨text, written, areBlank⟩ := write_gaps_append areGaps []
          rw [List.append_nil] at written
          rw [writeFrom_eq, written]
          intro c member
          rcases List.mem_append.1 member with inSeparator | inText
          · exact isBlank_separator before offset spaces c inSeparator
          · exact areBlank c (by simpa [Css.write, writeFrom] using inText)
  | cons component rest ih =>
      obtain ⟨text, written, areBlank⟩ := ih component.kind
      refine ⟨text, ?_, areBlank⟩
      rw [List.cons_append, writeFrom_cons, writeFrom_cons, written]
      simp

/-- Gaps around components do not change their trimmed text. -/
theorem trimmedText_gaps {before after : List Component} (components : List Component)
    (gapsBefore : ∀ component ∈ before, component.isGap = true ∧ component.Sound)
    (gapsAfter : ∀ component ∈ after, component.isGap = true ∧ component.Sound) :
    trimmedText (before ++ (components ++ after)) = trimmedText components := by
  obtain ⟨first, written, firstBlank⟩ := write_gaps_append gapsBefore (components ++ after)
  obtain ⟨last, writtenLast, lastBlank⟩ := writeFrom_append_gaps .other components gapsAfter
  rw [trimmedText, trimmedText, written, trim_blank_append firstBlank, Css.write, writtenLast,
    trim_append_blank lastBlank, Css.write]

theorem trimmedText_core {piece : List Component} (sound : SoundAll piece) :
    trimmedText (core piece) = trimmedText piece := by
  obtain ⟨before, after, whole, gapsBefore, gapsAfter⟩ := exists_soundEdges sound
  conv_rhs => rw [whole]
  exact (trimmedText_gaps (core piece) gapsBefore gapsAfter).symm

/-! ## Values -/

/-- Two readings that agree on the marking and on the blocks of a value. -/
structure SameReading (first second : ValueReading) : Prop where
  marking : first.marking = second.marking
  solid : first.solid = second.solid
  mixed : first.mixed = second.mixed

theorem SameReading.step {first second : ValueReading} (same : SameReading first second)
    (next : Component) : SameReading (first.step next) (second.step next) := by
  obtain ⟨marking, solid, mixed⟩ := same
  unfold ValueReading.step
  rw [marking, solid, mixed]
  by_cases isBang : (decide (second.marking = .plain) && next.isDelim "!") = true
  · rw [if_pos isBang, if_pos isBang]
    exact ⟨rfl, rfl, rfl⟩
  · rw [if_neg isBang, if_neg isBang]
    by_cases isWord : (decide (second.marking = .bang) &&
        ValueReading.step.isImportant next) = true
    · rw [if_pos isWord, if_pos isWord]
      exact ⟨rfl, rfl, rfl⟩
    · rw [if_neg isWord, if_neg isWord]
      by_cases isGap : next.isGap = true
      · rw [if_pos isGap, if_pos isGap]
        exact ⟨rfl, rfl, rfl⟩
      · rw [if_neg isGap, if_neg isGap]
        exact ⟨rfl, rfl, rfl⟩

theorem SameReading.foldl {first second : ValueReading} (same : SameReading first second)
    (components : List Component) :
    SameReading (components.foldl ValueReading.step first)
      (components.foldl ValueReading.step second) := by
  induction components generalizing first second with
  | nil => exact same
  | cons next rest ih => exact ih (same.step next)

theorem sameReading_gaps {gaps : List Component} (value : ValueReading)
    (areGaps : ∀ component ∈ gaps, component.isGap = true ∧ component.Sound) :
    SameReading (gaps.foldl ValueReading.step value) value := by
  induction gaps generalizing value with
  | nil => exact ⟨rfl, rfl, rfl⟩
  | cons gap rest ih =>
      obtain ⟨isGap, others⟩ := List.forall_mem_cons.1 areGaps
      obtain ⟨offset, text, rfl, _⟩ := isGap_cases isGap.1 isGap.2
      have step := step_gap value (.token offset (.whitespace text)) rfl
        (fun _ => rfl) rfl
      have later := ih (value.step (.token offset (.whitespace text))) others
      rw [List.foldl_cons]
      exact ⟨later.marking.trans (by rw [step]), later.solid.trans (by rw [step]),
        later.mixed.trans (by rw [step])⟩

/-- Gaps around a value do not change how it is marked. -/
theorem ofComponents_gaps {before after : List Component} (components : List Component)
    (gapsBefore : ∀ component ∈ before, component.isGap = true ∧ component.Sound)
    (gapsAfter : ∀ component ∈ after, component.isGap = true ∧ component.Sound) :
    SameReading (ValueReading.ofComponents (before ++ (components ++ after)))
      (ValueReading.ofComponents components) := by
  rw [ValueReading.ofComponents, List.foldl_append, List.foldl_append]
  have trailing := sameReading_gaps (components.foldl ValueReading.step
    (before.foldl ValueReading.step {})) gapsAfter
  have leading := (sameReading_gaps {} gapsBefore).foldl components
  exact ⟨trailing.marking.trans leading.marking, trailing.solid.trans leading.solid,
    trailing.mixed.trans leading.mixed⟩

theorem ofComponents_core {value : List Component} (sound : SoundAll value) :
    SameReading (ValueReading.ofComponents (core value)) (ValueReading.ofComponents value) := by
  obtain ⟨before, after, whole, gapsBefore, gapsAfter⟩ := exists_soundEdges sound
  have same := ofComponents_gaps (core value) gapsBefore gapsAfter
  rw [← whole] at same
  exact ⟨same.marking.symm, same.solid.symm, same.mixed.symm⟩

end StyleSieve
