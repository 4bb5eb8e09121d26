import StyleSieve.Proofs.Css.Joints
import StyleSieve.Proofs.Css.Newlines
import StyleSieve.Proofs.Sheet.Edges

/-!
# Texts that spell components

A text spells components of a kind when it is read as such wherever it stands.  Such
texts compose: one after the other, they spell the components of both.
-/

namespace StyleSieve

open Css Css.Component

/-! ## Spelling -/

/-- A text that is read, before another one, as components of a kind. -/
def SpellsBefore (next text : List Char) (kind : List Component → Prop) : Prop :=
  ∀ rest, ∃ components, kind components ∧
    plain (normalizeNewlines (text ++ (next ++ rest))) =
      spreadAll (settledAll components) ++ plain (normalizeNewlines (next ++ rest))

/-- A text that is read as components of a kind wherever it stands. -/
def Spells (text : List Char) (kind : List Component → Prop) : Prop :=
  SpellsBefore [] text kind

theorem Spells.before {text : List Char} {kind : List Component → Prop}
    (spells : Spells text kind) (next : List Char) : SpellsBefore next text kind :=
  fun rest => spells (next ++ rest)

theorem SpellsBefore.mono {next text : List Char} {kind other : List Component → Prop}
    (spells : SpellsBefore next text kind) (implies : ∀ components, kind components → other components) :
    SpellsBefore next text other := by
  intro rest
  obtain ⟨components, isKind, reads⟩ := spells rest
  exact ⟨components, implies components isKind, reads⟩

/-- A text spells what it spells before the text that follows it. -/
theorem SpellsBefore.append {next text more after : List Char}
    {kind others whole : List Component → Prop} (first : SpellsBefore next text kind)
    (second : SpellsBefore after (next ++ more) others)
    (compose : ∀ components later, kind components → others later → whole (components ++ later)) :
    SpellsBefore after (text ++ (next ++ more)) whole := by
  intro rest
  obtain ⟨components, isKind, reads⟩ := first (more ++ (after ++ rest))
  obtain ⟨later, isOther, readsLater⟩ := second rest
  refine ⟨components ++ later, compose components later isKind isOther, ?_⟩
  rw [List.append_assoc] at readsLater
  rw [settledAll_append, spreadAll_append, List.append_assoc, List.append_assoc, reads, readsLater,
    List.append_assoc]

theorem Spells.append {text more after : List Char} {kind others whole : List Component → Prop}
    (first : Spells text kind) (second : SpellsBefore after more others)
    (compose : ∀ components later, kind components → others later → whole (components ++ later)) :
    SpellsBefore after (text ++ more) whole := by
  have later : SpellsBefore after ([] ++ more) others := second
  exact SpellsBefore.append first later compose

theorem settledAll_of_blanks (text : List Char) : settledAll (blanks text) = blanks text := by
  induction text with
  | nil => rfl
  | cons c more ih => exact congrArg (Component.token 0 (.whitespace [c]) :: ·) ih

theorem spreadAll_blanks (text : List Char) : spreadAll (blanks text) = text.map blank := by
  induction text with
  | nil => rfl
  | cons c more ih => exact congrArg (blank c :: ·) ih

theorem spells_blanks {text : List Char} (areBlank : ∀ c ∈ text, isSpace c = true) :
    Spells text (· = blanks text) := by
  have clean : Clean text := fun c member => isClean_of (areBlank c member) rfl rfl rfl
  intro rest
  refine ⟨blanks text, rfl, ?_⟩
  rw [clean.normalize_append, plain_spaces areBlank, settledAll_of_blanks, spreadAll_blanks]

/-- A token that is kept by its text is read before a text that cannot continue it. -/
theorem spells_token {token : Token} (sound : token.Sound) (kept : token.isKept = true)
    {next : List Char} (clean : Clean next)
    (ends : ∀ rest, token.endsBefore (next ++ rest) = true) :
    SpellsBefore next token.write (· = [.token 0 token]) := by
  have noComment : ∀ text, token ≠ .comment text := by
    rintro text rfl
    cases kept
  intro rest
  refine ⟨_, rfl, ?_⟩
  rw [(Token.clean_write sound noComment).normalize_append, clean.normalize_append,
    plain_writeToken sound kept 0 (ends _), settledAll, settledAll, List.append_nil]

/-- A delimiter that nothing continues is read as itself. -/
theorem spells_delim {c : Char} (isDelim : c ∈ [',', ';', ':', '!']) :
    Spells [c] (· = [.token 0 (.delim [c])]) := by
  have solitary : ∀ c ∈ [',', ';', ':', '!'], isSolitary c = true := List.all_eq_true.1 (by decide)
  have sound : (Token.delim [c]).Sound := solitary c isDelim
  have ends : ∀ rest, (Token.delim [c]).endsBefore ([] ++ rest) = true := by
    intro rest
    simp only [List.mem_cons, List.not_mem_nil, or_false] at isDelim
    rcases isDelim with rfl | rfl | rfl | rfl <;> rfl
  exact spells_token sound rfl (clean_of_all rfl) ends

theorem opensCurly (rest : List Char) : Opening.curly.opensBefore rest = true :=
  rfl

/-- A text in curly brackets is a block of what it is read as before the closing one. -/
theorem spells_curly {text : List Char} {kind : List Component → Prop}
    (inside : SpellsBefore ['\x7d'] text kind) :
    Spells ('\x7b' :: (text ++ ['\x7d'])) fun components =>
      ∃ content, kind content ∧ components = [.block 0 .curly content] := by
  intro rest
  obtain ⟨content, isKind, reads⟩ := inside rest
  refine ⟨_, ⟨content, isKind, rfl⟩, ?_⟩
  have cleanOpening : Clean ['\x7b'] := clean_singleton (by decide)
  have cleanCloser : Clean ['\x7d'] := clean_singleton (by decide)
  have opening : ∀ later, scan '\x7b' later = ([.opening .curly], later) := by
    intro later
    have sound : Opening.curly.Sound := trivial
    obtain ⟨c, more, opened, scanned⟩ := scan_opening sound (opensCurly later)
    cases opened
    exact scanned
  rw [cleanCloser.normalize_append] at reads
  rw [List.nil_append, ← List.singleton_append, List.append_assoc, List.append_assoc,
    cleanOpening.normalize_append, List.singleton_append, plain_scan (opening _), reads,
    List.singleton_append, plain_scan (scan_closer (by decide) _)]
  simp [settledAll, Component.settled, spreadAll, spread, Lexeme.pieces, Opening.closer]

end StyleSieve
