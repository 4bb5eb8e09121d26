import StyleSieve.Proofs.Css.Balance
import StyleSieve.Proofs.Css.Spreading

/-!
# Texts that may stand in a block

A text that leaves nothing open is read before a closer as it is read alone, unless its last
character escapes the closer.  Where the text also closes every block that it opens, it is
known by its components: its lexemes are those of the components.
-/

namespace StyleSieve.Css

open Component

/-! ## Texts before a closer -/

/-- A text that leaves nothing open, and whose last character does not escape the next one. -/
structure Uncut (text : List Char) : Prop where
  nothingOpen : endsOpen text = false
  noEscape : text.getLast? ≠ some '\\'

theorem Uncut.step {c : Char} {rest : List Char} (uncut : Uncut (c :: rest)) :
    leavesOpen c rest = false ∧ Uncut (scan c rest).2 := by
  have closed := uncut.nothingOpen
  rw [endsOpen, Bool.or_eq_false_iff] at closed
  refine ⟨closed.1, closed.2, fun isLast => uncut.noEscape ?_⟩
  obtain ⟨before, shape⟩ := (scan_suffix c rest).trans (List.suffix_cons c rest)
  rw [← shape]
  exact getLast?_append_of isLast

/-- An uncut text is read before an edge that is no blank as it is read alone. -/
theorem Uncut.readBefore {text : List Char} (uncut : Uncut text) {edge : Char}
    (isEdge : edge ∈ edges) (notBlank : isSpace edge = false) (more : List Char) :
    ReadBefore (edge :: more) text := by
  refine readBefore_of_steps Uncut (fun c rest isUncut => isUncut.step.2)
    (fun c rest isUncut notSpace => ?_) uncut
  cases scan_edge isEdge rest more notSpace with
  | ends same => exact same
  | faulty faulty => exact scan_faulty isEdge faulty isUncut.step.1 more
  | @opened inner isComment opened =>
      cases isComment
      have opens := isUncut.step.1
      rw [leavesOpen_of_comment inner opened] at opens
      cases opens
  | cut _ isLast _ => exact absurd isLast isUncut.noEscape
  | joined isBlank _ _ =>
      rw [notBlank] at isBlank
      cases isBlank

/-- However tokens are divided, if only white space is taken apart by its characters, the
divided lexemes of a text stand before those of the text that follows it. -/
theorem ReadBefore.divideAll_append {parts : Token → List Token}
    (apart : ∀ text, parts (.whitespace text) = text.map fun c => .whitespace [c])
    {more text : List Char} (reads : ReadBefore more text) (offset : Nat) :
    divideAll parts (lexemesFrom offset (text ++ more)) =
      divideAll parts (lexemesFrom offset text) ++ divideAll parts (lexemesFrom offset more) := by
  induction reads with
  | @blanks text areBlank =>
      have alone := divideAll_spaces apart areBlank offset []
      have nothing : divideAll parts (lexemesFrom offset []) = [] := by
        rw [lexemesFrom]
        rfl
      rw [nothing, List.append_nil, List.append_nil] at alone
      rw [divideAll_spaces apart areBlank, alone]
  | @step c rest same _ ih =>
      rw [List.cons_append, divideAll_scan, same, ih, divideAll_scan _ _ c, List.append_assoc]

/-- The settled lexemes of a text stand before those of the text that follows it. -/
theorem ReadBefore.plain_append {more text : List Char} (reads : ReadBefore more text) :
    plain (text ++ more) = plain text ++ plain more := by
  simp only [plain, settleAll_eq_divideAll]
  exact reads.divideAll_append (fun _ => rfl) 0

/-! ## Open blocks -/

/-- The blocks that are open after a lexeme, innermost first. -/
def Lexeme.openAfter (opened : List Opening) : Lexeme → List Opening
  | .token _ => opened
  | .opening opener => opener :: opened
  | .closer c =>
      match opened with
      | inner :: outer => if inner.closer = c then outer else opened
      | [] => []

theorem Nested.openings_step (nested : Nested) (read : Nat × Lexeme) :
    (nested.step read).blocks.map (·.opening) =
      read.2.openAfter (nested.blocks.map (·.opening)) := by
  obtain ⟨blocks, before⟩ := nested
  obtain ⟨offset, lexeme⟩ := read
  cases lexeme with
  | token value => rfl
  | opening opening => rfl
  | closer closer =>
      cases blocks with
      | nil => rfl
      | cons block outer =>
          by_cases fits : block.opening.closer = closer
          · rw [step_closes fits]
            exact (if_pos fits).symm
          · rw [step_strays fits]
            exact (if_neg fits).symm

theorem Nested.openings_steps (nested : Nested) (lexemes : List (Nat × Lexeme)) :
    (nested.steps lexemes).blocks.map (·.opening) =
      (lexemes.map (·.2)).foldl Lexeme.openAfter (nested.blocks.map (·.opening)) := by
  induction lexemes generalizing nested with
  | nil => rfl
  | cons read rest ih => rw [steps_cons, ih, openings_step, List.map_cons, List.foldl_cons]

theorem balanced_iff (lexemes : List (Nat × Lexeme)) :
    Balanced lexemes ↔ (lexemes.map (·.2)).foldl Lexeme.openAfter [] = [] := by
  have openings := Nested.openings_steps {} lexemes
  rw [Balanced, ← List.map_eq_nil_iff (f := (·.opening)), openings]
  rfl

theorem foldl_pieces (lexeme : Lexeme) (opened : List Opening) :
    lexeme.pieces.foldl Lexeme.openAfter opened = lexeme.openAfter opened := by
  cases lexeme with
  | token value =>
      rw [Lexeme.pieces]
      induction value.pieces with
      | nil => rfl
      | cons piece rest ih => exact ih
  | opening opening => rfl
  | closer closer => rfl

/-- Settling lexemes does not change which blocks they leave open. -/
theorem foldl_settleAll (lexemes : List (Nat × Lexeme)) (opened : List Opening) :
    ((settleAll lexemes).map (·.2)).foldl Lexeme.openAfter opened =
      (lexemes.map (·.2)).foldl Lexeme.openAfter opened := by
  induction lexemes generalizing opened with
  | nil => rfl
  | cons read rest ih =>
      obtain ⟨offset, lexeme⟩ := read
      have pieces : (lexeme.pieces.map ((0, ·) : Lexeme → Nat × Lexeme)).map (·.2) =
          lexeme.pieces := by
        rw [List.map_map]
        exact List.map_id _
      rw [settleAll_cons, List.map_append, List.foldl_append, pieces, foldl_pieces, ih,
        List.map_cons, List.foldl_cons]

theorem balanced_settleAll (lexemes : List (Nat × Lexeme)) :
    Balanced (settleAll lexemes) ↔ Balanced lexemes := by
  rw [balanced_iff, balanced_iff, foldl_settleAll]

/-! ## Balanced texts -/

/-- The lexemes of a text that closes every block that it opens are those of its components. -/
theorem spreadAll_of_balanced {text : List Char}
    (balanced : Balanced ((lexemesFrom 0 (normalizeNewlines text)).filter (!·.2.isComment))) :
    spreadAll (settledAll (significantComponents text)) = plain (normalizeNewlines text) := by
  have settled := areSettled_plain (clean_normalizeNewlines text)
  have closes : Balanced (plain (normalizeNewlines text)) := by
    rw [← balanced_settleAll, settleAll_significant] at balanced
    exact balanced
  have whole := spreadOpen_steps {} settled
  rw [closes, spreadOpen] at whole
  rw [settledAll_significantComponents, nest_eq_closeAll, closes, OpenBlock.closeAll, whole,
    spreadOpen]
  rfl

end StyleSieve.Css
