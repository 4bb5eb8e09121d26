import StyleSieve.Proofs.Css.Spreading
import StyleSieve.Text.Blank

/-!
# Sealed texts

A text is sealed when all of its blocks and comments are closed and nothing at its end is
cut off: then it is read before an edge as it is read alone.  A text that is equal to what is
written for its components is sealed, since closers written for open blocks would have to
stand in it already.
-/

namespace StyleSieve.Css

open Component

/-! ## What a text leaves open -/

/-- A source text without faults: it is read up to an open comment, and its components have
its lexemes and the closers of the blocks that it leaves open. -/
structure Opened (source body tail : List Char) (closing : List (Nat × Lexeme)) : Prop where
  whole : normalizeNewlines source = body ++ tail
  reads : Reads body (plain (normalizeNewlines source))
  comment : tail = [] ∨ ∃ inner, tail = '/' :: '*' :: inner
  opened : EndsInComment (normalizeNewlines source) → tail ≠ []
  spread : spreadAll (settledAll (significantComponents source)) =
    plain (normalizeNewlines source) ++ closing
  closers : AreClosers closing

theorem plain_faultless {source : List Char}
    (faultless : areFaultless (significantComponents source) = true) (cause : Fault) :
    (0, .token (.fault cause)) ∉ plain (normalizeNewlines source) := by
  intro member
  obtain ⟨closing, spread, _⟩ := spreadAll_significantComponents source
  have settled := spreadAll_faultless _ (settledAll_faultless _ faultless)
  rw [spread] at settled
  exact settled _ (List.mem_append_left closing member) cause rfl

theorem exists_opened {source : List Char}
    (faultless : areFaultless (significantComponents source) = true) :
    ∃ body tail closing, Opened source body tail closing := by
  obtain ⟨closing, spread, closers⟩ := spreadAll_significantComponents source
  obtain ⟨body, tail, whole, reads, comment, opened⟩ := reads_plain _ (plain_faultless faultless)
  exact ⟨body, tail, closing, whole, reads, comment, opened, spread, closers⟩

/-- A lexeme that is no closer. -/
def IsSolid (read : Nat × Lexeme) : Prop :=
  ∀ closer, read.2 ≠ .closer closer

theorem spreadAll_head {components : List Component} (filled : components ≠ [])
    (faultless : areFaultless components = true) :
    ∃ read ∈ (spreadAll components).head?, IsSolid read := by
  cases components with
  | nil => exact absurd rfl filled
  | cons component rest =>
      rw [areFaultless, Bool.and_eq_true] at faultless
      cases component with
      | token offset value =>
          rw [spreadAll, spread_token (isFaultless_token faultless.1)]
          exact ⟨_, rfl, fun closer => nofun⟩
      | block offset opening content => exact ⟨_, rfl, fun closer => nofun⟩

/-- Closers at the end stand behind any lexeme that is no closer. -/
theorem split_closers {lexemes closing first second : List (Nat × Lexeme)}
    (closers : AreClosers closing) (whole : lexemes ++ closing = first ++ second)
    (solid : (∃ read ∈ second.head?, IsSolid read) ∨ ∃ read ∈ first.getLast?, IsSolid read) :
    ∃ front, second = front ++ closing ∧ lexemes = first ++ front := by
  have noCloser : ∀ read ∈ closing, ¬IsSolid read := by
    intro read member isSolid
    obtain ⟨closer, rfl, _⟩ := closers read member
    exact isSolid closer rfl
  rcases List.append_eq_append_iff.1 whole with ⟨middle, early, later⟩ | ⟨middle, early, later⟩
  · cases middle with
    | nil => exact ⟨[], later.symm, by rw [early]; simp⟩
    | cons read more =>
        rcases solid with ⟨head, isHead, isSolid⟩ | ⟨last, isLast, isSolid⟩
        · have member : head ∈ second := List.mem_of_mem_head? isHead
          exact absurd isSolid (noCloser head (later ▸ List.mem_append_right _ member))
        · have member : last ∈ read :: more := by
            have final : (read :: more).getLast? = some (more.getLast?.getD read) := List.getLast?_cons
            rw [early, Option.mem_def, List.getLast?_append, final] at isLast
            cases isLast
            exact List.mem_of_getLast? final
          exact absurd isSolid (noCloser last (later ▸ List.mem_append_left _ member))
  · exact ⟨middle, later, early⟩

/-- The text of the last of some components, which hold the closers that are missing. -/
theorem Opened.split {source body tail : List Char} {closing : List (Nat × Lexeme)}
    (opened : Opened source body tail closing) {first second : List Component}
    (parts : settledAll (significantComponents source) = first ++ second)
    (solid : (second ≠ [] ∧ areFaultless second = true) ∨
      ∃ read ∈ (spreadAll first).getLast?, IsSolid read) :
    ∃ front back lexemes, body = front ++ back ∧ Reads front (spreadAll first) ∧
      Reads back lexemes ∧ spreadAll second = lexemes ++ closing ∧
        plain (normalizeNewlines source) = spreadAll first ++ lexemes := by
  have whole := opened.spread
  rw [parts, spreadAll_append] at whole
  obtain ⟨lexemes, spread, same⟩ := split_closers opened.closers whole.symm
    (solid.imp (fun both => spreadAll_head both.1 both.2) id)
  have reads := opened.reads
  rw [same] at reads
  obtain ⟨front, back, rfl, readsFront, readsBack⟩ := reads.split
  exact ⟨front, back, lexemes, rfl, readsFront, readsBack, spread, same⟩

/-! ## Nothing is left open -/

theorem Reads.onlySpaces {text : List Char} {lexemes : List (Nat × Lexeme)}
    (reads : Reads text lexemes) (empty : size text = 0) :
    ∀ read ∈ lexemes, read = Css.blank ' ' := by
  induction reads with
  | nil => exact fun read member => by cases member
  | @blank c rest lexemes isBlank reads ih =>
      by_cases isSpaceChar : c = ' '
      · subst isSpaceChar
        exact List.forall_mem_cons.2 ⟨rfl, ih empty⟩
      · rw [size_cons isSpaceChar] at empty
        cases empty
  | @comment inner rest lexemes reads ih =>
      have opener : size "/*".toList = 2 := rfl
      rw [size_append, size_append, size_append, opener] at empty
      omega
  | @lexeme span rest lexeme lexemes spelled follows reads ih =>
      obtain ⟨c, more, text, _⟩ := spelled.unspaced_cons
      have some : size span = more.length + 1 := by rw [size, text]; rfl
      rw [size_append, some] at empty
      omega

/-- How many characters some lexemes are spelled with at least. -/
def weightOf : List (Nat × Lexeme) → Nat
  | [] => 0
  | read :: rest => read.2.weight + weightOf rest

theorem weightOf_append (first second : List (Nat × Lexeme)) :
    weightOf (first ++ second) = weightOf first + weightOf second := by
  induction first with
  | nil => exact (Nat.zero_add _).symm
  | cons read rest ih => rw [List.cons_append, weightOf, weightOf, ih, Nat.add_assoc]

/-- The lexemes of a text are spelled with as many characters at least. -/
theorem Reads.weight_le {text : List Char} {lexemes : List (Nat × Lexeme)}
    (reads : Reads text lexemes) : weightOf lexemes ≤ size text := by
  induction reads with
  | nil => exact Nat.le_refl _
  | @blank c rest lexemes isBlank reads ih =>
      refine Nat.le_trans (Nat.le_of_eq (Nat.zero_add _)) (Nat.le_trans ih ?_)
      exact Nat.le_trans (Nat.le_add_left _ _) (Nat.le_of_eq (size_append [c] rest).symm)
  | @comment inner rest lexemes reads ih =>
      rw [size_append]
      exact Nat.le_trans ih (Nat.le_add_left _ _)
  | @lexeme span rest lexeme lexemes spelled follows reads ih =>
      rw [size_append, weightOf]
      exact Nat.add_le_add spelled.weight ih

/-- Components without faults miss closers only where a block is opened. -/
theorem closing_eq_nil {components : List Component} (faultless : areFaultless components = true)
    {lexemes closing : List (Nat × Lexeme)} (closers : AreClosers closing)
    (spread : spreadAll components = lexemes ++ closing)
    (flat : ∀ read ∈ lexemes, ∀ opening, read.2 ≠ .opening opening) : closing = [] := by
  cases closing with
  | nil => rfl
  | cons read more =>
      obtain ⟨closer, rfl, _⟩ := closers read List.mem_cons_self
      have member : (0, .closer closer) ∈ spreadAll components := by
        rw [spread]
        exact List.mem_append_right _ List.mem_cons_self
      obtain ⟨start, opening, isOpening⟩ := exists_opening faultless member
      rw [spread] at isOpening
      rcases List.mem_append.1 isOpening with inLexemes | inClosing
      · exact absurd rfl (flat _ inLexemes opening)
      · obtain ⟨_, same, _⟩ := closers _ inClosing
        cases same

theorem mem_render {read : Nat × Lexeme} {lexemes : List (Nat × Lexeme)} (member : read ∈ lexemes)
    {c : Char} (inText : c ∈ read.2.write) (before : Kind) : c ∈ render before lexemes := by
  induction lexemes generalizing before with
  | nil => cases member
  | cons first rest ih =>
      rw [render]
      rcases List.mem_cons.1 member with rfl | inRest
      · exact List.mem_append_left _ (List.mem_append_right _ inText)
      · exact List.mem_append_right _ (ih inRest _)

/-- The text of an opening ends with a bracket. -/
theorem exists_bracket (opening : Opening) :
    ∃ c ∈ opening.write, c ≠ ' ' ∧ isCloser c = false := by
  cases opening with
  | round => exact ⟨'(', by decide, by decide, rfl⟩
  | square => exact ⟨'[', by decide, by decide, rfl⟩
  | curly => exact ⟨'\x7b', by decide, by decide, rfl⟩
  | call name => exact ⟨'(', List.mem_append_right _ List.mem_cons_self, by decide, rfl⟩

theorem isBlank_of_isCloser {c : Char} (closes : isCloser c = true) : Text.isBlank c = false := by
  simp only [isCloser, Bool.or_eq_true, beq_iff_eq] at closes
  rcases closes with ((rfl | rfl) | rfl) | rfl <;> rfl

theorem unspaced_closers {closers : List Char} (areClosers : closers.all isCloser = true) :
    unspaced closers = closers := by
  refine List.filter_eq_self.2 ?_
  intro c member
  have closes := List.all_eq_true.1 areClosers c member
  have notSpace : c ≠ ' ' := by
    rintro rfl
    cases closes
  simpa using notSpace

/-- Where the middle of a text ends with a part that is read, the part stands in whatever
holds the middle. -/
theorem unspaced_align {front middle before read rest : List Char}
    (parts : front ++ middle = before ++ (read ++ rest)) (long : size front ≤ size before)
    (first last : List Char) :
    ∃ lead, unspaced (first ++ (middle ++ last)) =
      lead ++ (unspaced read ++ (unspaced rest ++ unspaced last)) := by
  have parts := congrArg unspaced parts
  simp only [unspaced_append] at parts ⊢
  rcases List.append_eq_append_iff.1 parts with ⟨more, early, later⟩ | ⟨more, early, later⟩
  · exact ⟨unspaced first ++ more, by rw [later]; simp⟩
  · -- the part before the middle is no longer than what is read before the part
    have none : more = [] := by
      have length := congrArg List.length early
      rw [List.length_append] at length
      exact List.eq_nil_of_length_eq_zero (by rw [size, size] at long; omega)
    rw [none, List.nil_append] at later
    exact ⟨unspaced first, by rw [← later]; simp⟩

/-- Where a text is what is written for a part of it, the closers that are written after the
part are all that is read after it. -/
theorem Lags.rest_eq {written read : List Char} (lags : Lags written read) {closers : List Char}
    (areClosers : closers.all isCloser = true)
    (solid : closers ≠ [] → (unspaced written).all isCloser = false)
    {front middle before rest first last : List Char}
    (parts : front ++ middle = before ++ (read ++ rest)) (long : size front ≤ size before)
    (whole : written ++ closers = first ++ (middle ++ last)) :
    unspaced rest ++ unspaced last = closers := by
  obtain ⟨lead, same⟩ := unspaced_align parts long first last
  rw [← whole, unspaced_append, unspaced_closers areClosers] at same
  exact lags.eq_of_closers areClosers solid same

end StyleSieve.Css
