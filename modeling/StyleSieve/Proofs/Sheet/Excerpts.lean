import StyleSieve.Proofs.Css.Sealing
import StyleSieve.Proofs.Sheet.SettledEntries

/-!
# Excerpts

A part of the components of a text is read from a part of the text.  When the whole text is
what is written for the part, nothing but spaces is read after it, and every block and every
comment of the text is closed.
-/

namespace StyleSieve

open Css Css.Component

/-- Some components of a source text that follow others: the texts that they are read from,
and the closers that are missing in them. -/
structure Excerpt (source : List Char) (first part last : List Component) where
  before : List Char
  read : List Char
  after : List Char
  tail : List Char
  lexemes : List (Nat × Lexeme)
  missing : List (Nat × Lexeme)
  others : List (Nat × Lexeme)
  final : List (Nat × Lexeme)
  faultless : areFaultless (significantComponents source) = true
  parts : significantComponents source = first ++ (part ++ last)
  whole : normalizeNewlines source = before ++ (read ++ (after ++ tail))
  readsBefore : Reads before (spreadAll (settledAll first))
  reads : Reads read lexemes
  readsAfter : Reads after others
  comment : tail = [] ∨ ∃ inner, tail = '/' :: '*' :: inner
  opened : EndsInComment (normalizeNewlines source) → tail ≠ []
  spread : spreadAll (settledAll part) = lexemes ++ missing
  spreadLast : spreadAll (settledAll last) = others ++ final
  lexed : plain (normalizeNewlines source) =
    spreadAll (settledAll first) ++ (lexemes ++ others)
  complete : spreadAll (settledAll (significantComponents source)) =
    plain (normalizeNewlines source) ++ (missing ++ final)
  closers : AreClosers (missing ++ final)
  apart : missing = [] ∨ last = []
  atEnd : last = [] → after = []

theorem settledAll_ne_nil {components : List Component} (sound : SoundAll components)
    (filled : components ≠ []) : settledAll components ≠ [] := by
  intro none
  have same := settledAll_isEmpty sound
  rw [none] at same
  exact filled (List.isEmpty_iff.1 same.symm)

theorem exists_excerpt {source : List Char} (first part last : List Component)
    (faultless : areFaultless (significantComponents source) = true)
    (parts : significantComponents source = first ++ (part ++ last))
    (solid : part ++ last ≠ [] ∨
      ∃ read ∈ (spreadAll (settledAll first)).getLast?, IsSolid read) :
    Nonempty (Excerpt source first part last) := by
  obtain ⟨body, tail, closing, opened⟩ := exists_opened faultless
  have sound := significantComponents_sound source
  have settled := settledAll_faultless _ faultless
  rw [parts] at settled sound
  have soundParts := ((soundAll_append _ _).1 sound).2
  rw [settledAll_append, areFaultless_append, Bool.and_eq_true] at settled
  have settledParts : settledAll (significantComponents source) =
      settledAll first ++ settledAll (part ++ last) := by rw [parts, settledAll_append]
  obtain ⟨before, back, lexemes, rfl, readsBefore, readsBack, spread, lexed⟩ :=
    opened.split settledParts
      (solid.imp_left fun filled => ⟨settledAll_ne_nil soundParts filled, settled.2⟩)
  -- the closers that the source lacks are those of the part if nothing follows it
  by_cases isLast : last = []
  · subst isLast
    rw [List.append_nil] at spread
    exact ⟨{
      before := before, read := back, after := [], tail := tail
      lexemes := lexemes, missing := closing, others := [], final := []
      faultless := faultless, parts := parts
      whole := by rw [opened.whole]; simp
      readsBefore := readsBefore, reads := readsBack, readsAfter := .nil
      comment := opened.comment, opened := opened.opened
      spread := spread, spreadLast := rfl
      lexed := by rw [lexed, List.append_nil]
      complete := by rw [opened.spread, List.append_nil]
      closers := by rw [List.append_nil]; exact opened.closers
      apart := .inr rfl, atEnd := fun _ => rfl }⟩
  · have soundLast := ((soundAll_append _ _).1 soundParts).2
    have settledLast := settled.2
    rw [settledAll_append, areFaultless_append, Bool.and_eq_true] at settledLast
    rw [settledAll_append, spreadAll_append] at spread
    obtain ⟨others, spreadLast, same⟩ := split_closers opened.closers spread.symm
      (.inl (spreadAll_head (settledAll_ne_nil soundLast isLast) settledLast.2))
    rw [same] at readsBack
    obtain ⟨read, after, rfl, readsPart, readsAfter⟩ := readsBack.split
    exact ⟨{
      before := before, read := read, after := after, tail := tail
      lexemes := spreadAll (settledAll part), missing := [], others := others, final := closing
      faultless := faultless, parts := parts
      whole := by rw [opened.whole]; simp
      readsBefore := readsBefore, reads := readsPart, readsAfter := readsAfter
      comment := opened.comment, opened := opened.opened
      spread := (List.append_nil _).symm, spreadLast := spreadLast
      lexed := by rw [lexed, same]
      complete := opened.spread
      closers := opened.closers
      apart := .inl rfl, atEnd := fun none => absurd none isLast }⟩

/-! ## What is written for the part -/

theorem render_closers {lexemes : List (Nat × Lexeme)} (closers : AreClosers lexemes)
    (before : Kind) : render before lexemes = render .other lexemes := by
  cases lexemes with
  | nil => rfl
  | cons read rest =>
      obtain ⟨closer, rfl, _⟩ := closers read List.mem_cons_self
      rfl

theorem all_render_closers {lexemes : List (Nat × Lexeme)} (closers : AreClosers lexemes) :
    (render .other lexemes).all isCloser = true := by
  induction lexemes with
  | nil => rfl
  | cons read rest ih =>
      obtain ⟨⟨closer, rfl, closes⟩, others⟩ := List.forall_mem_cons.1 closers
      rw [render_closer, List.all_cons, closes, ih others]
      rfl

theorem render_settledAll {components : List Component} (sound : SoundAll components)
    (faultless : areFaultless components = true) :
    render .other (spreadAll (settledAll components)) = Css.write components := by
  rw [render_spreadAll _ (settledAll_faultless _ faultless), ← write_settledAll sound]
  rfl

/-- What is written for components in several parts lags behind the text that they are read
from, the missing closers at the end left out. -/
theorem exists_written {parts : List (List Component)} (sound : SoundAll parts.flatten)
    (faultless : areFaultless parts.flatten = true) {read : List Char}
    {lexemes missing : List (Nat × Lexeme)} (reads : Reads read lexemes)
    (closers : AreClosers missing)
    (spread : spreadAll (settledAll parts.flatten) = lexemes ++ missing) :
    ∃ written, Lags written read ∧
      (parts.map Css.write).flatten = written ++ render .other missing := by
  induction parts generalizing read lexemes with
  | nil =>
      obtain ⟨rfl, rfl⟩ := List.append_eq_nil_iff.1 spread.symm
      exact ⟨[], reads.lags, rfl⟩
  | cons part rest ih =>
      rw [List.flatten_cons] at sound faultless spread
      obtain ⟨soundPart, soundRest⟩ := (soundAll_append _ _).1 sound
      rw [areFaultless_append, Bool.and_eq_true] at faultless
      have writtenPart := render_settledAll soundPart faultless.1
      by_cases isLast : rest.flatten = []
      · have nothing : (rest.map Css.write).flatten = [] := by
          rw [List.flatten_eq_nil_iff] at isLast ⊢
          intro text member
          obtain ⟨other, isOther, rfl⟩ := List.mem_map.1 member
          rw [isLast other isOther]
          rfl
        refine ⟨render .other lexemes, reads.lags, ?_⟩
        rw [isLast, List.append_nil] at spread
        rw [List.map_cons, List.flatten_cons, nothing, List.append_nil, ← writtenPart, spread,
          render_append, render_closers closers]
      · rw [settledAll_append, spreadAll_append] at spread
        obtain ⟨front, spreadRest, rfl⟩ := split_closers closers spread.symm
          (.inl (spreadAll_head (settledAll_ne_nil soundRest isLast)
            (settledAll_faultless _ faultless.2)))
        obtain ⟨readPart, readRest, rfl, readsPart, readsRest⟩ := reads.split
        obtain ⟨written, lags, same⟩ := ih soundRest faultless.2 readsRest spreadRest
        refine ⟨Css.write part ++ written, ?_, ?_⟩
        · exact (writtenPart ▸ readsPart.lags).append lags
        · rw [List.map_cons, List.flatten_cons, same, List.append_assoc]

/-- Where closers are missing, something that is no closer is written. -/
theorem exists_solid {parts : List (List Component)} (sound : SoundAll parts.flatten)
    (faultless : areFaultless parts.flatten = true) {offset : Nat} {opening : Opening}
    (member : (offset, .opening opening) ∈ spreadAll (settledAll parts.flatten)) :
    ∃ c ∈ (parts.map Css.write).flatten, c ≠ ' ' ∧ isCloser c = false := by
  induction parts with
  | nil => cases member
  | cons part rest ih =>
      rw [List.flatten_cons] at sound faultless member
      rw [areFaultless_append, Bool.and_eq_true] at faultless
      obtain ⟨soundPart, soundRest⟩ := (soundAll_append _ _).1 sound
      rw [settledAll_append, spreadAll_append] at member
      rw [List.map_cons, List.flatten_cons]
      rcases List.mem_append.1 member with inPart | inRest
      · obtain ⟨c, inOpening, notSpace, other⟩ := exists_bracket opening
        have inText := mem_render inPart inOpening .other
        rw [render_settledAll soundPart faultless.1] at inText
        exact ⟨c, List.mem_append_left _ inText, notSpace, other⟩
      · obtain ⟨c, inText, solid⟩ := ih soundRest faultless.2 inRest
        exact ⟨c, List.mem_append_right _ inText, solid⟩

/-! ## Closed excerpts -/

namespace Excerpt

variable {source : List Char} {first part last : List Component}

theorem soundParts (excerpt : Excerpt source first part last) :
    SoundAll first ∧ SoundAll part ∧ SoundAll last := by
  have sound := significantComponents_sound source
  rw [excerpt.parts, soundAll_append, soundAll_append] at sound
  exact sound

theorem faultlessParts (excerpt : Excerpt source first part last) :
    areFaultless first = true ∧ areFaultless part = true ∧ areFaultless last = true := by
  have faultless := excerpt.faultless
  simp only [excerpt.parts, areFaultless_append, Bool.and_eq_true] at faultless
  exact faultless

/-- No closers are missing, and nothing but spaces is read after the part. -/
structure IsClosed (excerpt : Excerpt source first part last) : Prop where
  missing : excerpt.missing = []
  final : excerpt.final = []
  tail : excerpt.tail = []
  spaces : size excerpt.after = 0

theorem closersMissing (excerpt : Excerpt source first part last) : AreClosers excerpt.missing :=
  fun read member => excerpt.closers read (List.mem_append_left _ member)

theorem IsClosed.of_spaces {excerpt : Excerpt source first part last}
    (complete : excerpt.missing = []) (spaces : unspaced (excerpt.after ++ excerpt.tail) = []) :
    excerpt.IsClosed := by
  rw [unspaced_append, List.append_eq_nil_iff] at spaces
  have spacesAfter : size excerpt.after = 0 := congrArg List.length spaces.1
  refine ⟨complete, ?_, ?_, spacesAfter⟩
  · refine closing_eq_nil (settledAll_faultless _ excerpt.faultlessParts.2.2)
      (fun read member => excerpt.closers read (List.mem_append_right _ member))
      excerpt.spreadLast ?_
    intro read member opening
    rw [excerpt.readsAfter.onlySpaces spacesAfter read member]
    exact Lexeme.noConfusion
  · rcases excerpt.comment with none | ⟨inner, opens⟩
    · exact none
    · rw [opens] at spaces
      exact absurd spaces.2 (List.cons_ne_nil _ _)

/-- Missing closers are written after something that is no closer. -/
theorem exists_solid_of_missing {parts : List (List Component)}
    (excerpt : Excerpt source first parts.flatten last) (isMissing : excerpt.missing ≠ []) :
    ∃ c ∈ (parts.map Css.write).flatten, c ≠ ' ' ∧ isCloser c = false := by
  have faultless := excerpt.faultlessParts.2.1
  by_cases flat : ∀ read ∈ excerpt.lexemes, ∀ opening, read.2 ≠ .opening opening
  · exact absurd (closing_eq_nil (settledAll_faultless _ faultless) excerpt.closersMissing
      excerpt.spread flat) isMissing
  · simp only [not_forall, not_not] at flat
    obtain ⟨⟨offset, lexeme⟩, member, opening, rfl⟩ := flat
    have isOpening : (offset, .opening opening) ∈ spreadAll (settledAll parts.flatten) := by
      rw [excerpt.spread]
      exact List.mem_append_left _ member
    exact exists_solid excerpt.soundParts.2.1 faultless isOpening

theorem missing_eq_nil {excerpt : Excerpt source first part last}
    (nothing : render .other excerpt.missing = []) : excerpt.missing = [] := by
  cases missing : excerpt.missing with
  | nil => rfl
  | cons read rest =>
      rw [missing] at nothing
      obtain ⟨closer, rfl, _⟩ := excerpt.closersMissing read (missing ▸ List.mem_cons_self)
      cases nothing

/-- A text that ends with what is written for a part of its components is closed. -/
theorem isClosed_of_parts (excerpt : Excerpt source first part last)
    {parts : List (List Component)} (flat : parts.flatten = part)
    {extra front middle x y : List Char}
    (extraClosers : extra.all isCloser = true) (extraAtEnd : extra = [] ∨ last = [])
    (solid : extra ≠ [] → ∃ c ∈ (parts.map Css.write).flatten, c ≠ ' ' ∧ isCloser c = false)
    (split : normalizeNewlines source = front ++ middle) (long : size front ≤ size excerpt.before)
    (whole : (parts.map Css.write).flatten ++ extra = x ++ (middle ++ y))
    (areBlank : ∀ c ∈ y, Text.isBlank c = true) : excerpt.IsClosed ∧ extra = [] := by
  subst flat
  obtain ⟨written, lags, same⟩ := exists_written excerpt.soundParts.2.1
    excerpt.faultlessParts.2.1 excerpt.reads excerpt.closersMissing excerpt.spread
  have areClosers : (render .other excerpt.missing ++ extra).all isCloser = true := by
    rw [List.all_append, all_render_closers excerpt.closersMissing, extraClosers]
    rfl
  have isSolid : render .other excerpt.missing ++ extra ≠ [] →
      (unspaced written).all isCloser = false := by
    intro filled
    obtain ⟨c, member, notSpace, other⟩ :
        ∃ c ∈ (parts.map Css.write).flatten, c ≠ ' ' ∧ isCloser c = false := by
      by_cases none : excerpt.missing = []
      · rw [none, render, List.nil_append] at filled
        exact solid filled
      · exact excerpt.exists_solid_of_missing none
    rw [same] at member
    rcases List.mem_append.1 member with inWritten | inClosers
    · exact all_eq_false_of_mem (mem_unspaced.2 ⟨inWritten, notSpace⟩) other
    · have closes := List.all_eq_true.1 (all_render_closers excerpt.closersMissing) c inClosers
      rw [closes] at other
      cases other
  have aligned : written ++ (render .other excerpt.missing ++ extra) = x ++ (middle ++ y) := by
    rw [← List.append_assoc, ← same, whole]
  have rest := lags.rest_eq areClosers isSolid (split.symm.trans excerpt.whole) long aligned
  -- a closer is no blank, so it would have to be read after the part
  have noClosers : render .other excerpt.missing ++ extra = [] := by
    cases closers : render .other excerpt.missing ++ extra with
    | nil => rfl
    | cons c more =>
        have atEnd : last = [] := by
          rcases excerpt.apart with none | atEnd
          · rcases extraAtEnd with noExtra | atEnd
            · rw [none, noExtra] at closers
              cases closers
            · exact atEnd
          · exact atEnd
        have closes : isCloser c = true := by
          rw [closers] at areClosers
          exact List.all_eq_true.1 areClosers c List.mem_cons_self
        rw [closers, excerpt.atEnd atEnd, List.nil_append] at rest
        rcases excerpt.comment with none | ⟨inner, opens⟩
        · rw [none, unspaced_nil, List.nil_append] at rest
          have isBlank := areBlank c (mem_unspaced.1 (rest ▸ List.mem_cons_self)).1
          rw [isBlank_of_isCloser closes] at isBlank
          cases isBlank
        · rw [opens] at rest
          cases rest
          cases closes
  rw [noClosers, List.append_eq_nil_iff] at rest
  rw [List.append_eq_nil_iff] at noClosers
  exact ⟨.of_spaces (missing_eq_nil noClosers.1) rest.1, noClosers.2⟩

theorem isClosed (excerpt : Excerpt source first part last) {front middle x y : List Char}
    (split : normalizeNewlines source = front ++ middle) (long : size front ≤ size excerpt.before)
    (whole : Css.write part = x ++ (middle ++ y)) (areBlank : ∀ c ∈ y, Text.isBlank c = true) :
    excerpt.IsClosed := by
  have flat : [part].flatten = part := List.flatten_singleton
  have nothing : ([] : List Char).all isCloser = true := rfl
  have written : ([part].map Css.write).flatten ++ [] = x ++ (middle ++ y) := by simpa using whole
  exact (excerpt.isClosed_of_parts flat nothing (.inl rfl) (absurd rfl) split long written
    areBlank).1

end Excerpt

/-! ## Sealed texts -/

/-- A text without open blocks that is read before an edge as it is read alone, unless its
last escape takes the edge. -/
structure Sealed (source : List Char) : Prop where
  complete : spreadAll (settledAll (significantComponents source)) =
    plain (normalizeNewlines source)
  joins : ∀ edge ∈ edges, ∀ rest,
    plain (normalizeNewlines source ++ edge :: rest) =
      plain (normalizeNewlines source) ++ plain (edge :: rest) ∨
    (isSpace edge = true ∧ EndsInHex (normalizeNewlines source) ∧ ∀ more, rest = '\x7b' :: more →
      plain (normalizeNewlines source ++ edge :: rest) =
        plain (normalizeNewlines source) ++ plain rest)

/-- A text does not end with the replacement character before blanks either. -/
theorem getLast?_append_blank {text blanks : List Char} {c : Char}
    (areBlank : ∀ d ∈ blanks, Text.isBlank d = true) (isLast : text.getLast? = some c)
    (other : c ≠ replacement) : (text ++ blanks).getLast? ≠ some replacement := by
  have solid : Text.isBlank replacement = false := rfl
  intro isReplaced
  rw [List.getLast?_append] at isReplaced
  cases final : blanks.getLast? with
  | none =>
      rw [final, isLast] at isReplaced
      exact other (Option.some.inj isReplaced)
  | some d =>
      rw [final] at isReplaced
      cases isReplaced
      rw [areBlank _ (List.mem_of_getLast? final)] at solid
      cases solid

/-- A text does not break off inside an escape where a backslash is written at the end of the
part. -/
theorem Excerpt.IsClosed.uncut {source : List Char} {first part last : List Component}
    {excerpt : Excerpt source first part last} (closed : excerpt.IsClosed)
    {x core y : List Char} (written : Css.write part = x ++ (core ++ y))
    (areBlank : ∀ c ∈ y, Text.isBlank c = true) (isLast : core.getLast? = some '\\')
    {front : List (Nat × Lexeme)} {piece : Lexeme}
    (shape : plain (normalizeNewlines source) = front ++ [(0, piece)]) :
    piece.write.getLast? ≠ some replacement := by
  have final : ((spreadAll (settledAll first)) ++
      (excerpt.lexemes ++ excerpt.others)).getLast? = some (0, piece) := by
    rw [← excerpt.lexed, shape]
    exact List.getLast?_concat
  rw [← List.append_assoc, List.getLast?_append] at final
  cases others : excerpt.others.getLast? with
  | some read =>
      -- a space is read last
      rw [others] at final
      cases final
      have isSpaceChar := excerpt.readsAfter.onlySpaces closed.spaces _
        (List.mem_of_getLast? others)
      cases isSpaceChar
      decide
  | none =>
      rw [others, Option.none_or] at final
      have rendered := render_settledAll excerpt.soundParts.2.1 excerpt.faultlessParts.2.1
      rw [excerpt.spread, closed.missing, List.append_nil, written] at rendered
      rw [List.getLast?_append] at final
      cases lexemes : excerpt.lexemes.getLast? with
      | none =>
          rw [List.getLast?_eq_none_iff.1 lexemes] at rendered
          obtain ⟨_, rest⟩ := List.append_eq_nil_iff.1 rendered.symm
          rw [(List.append_eq_nil_iff.1 rest).1] at isLast
          cases isLast
      | some read =>
          rw [lexemes] at final
          cases final
          obtain ⟨others, same⟩ := List.getLast?_eq_some_iff.1 lexemes
          rw [same, render_append, render, render, List.append_nil] at rendered
          intro isReplaced
          have endsCore : (x ++ core).getLast? = some '\\' := getLast?_append_of isLast
          refine getLast?_append_blank areBlank endsCore (by decide) ?_
          rw [List.append_assoc, ← rendered]
          exact getLast?_append_of (getLast?_append_of isReplaced)

/-- A closed text is sealed unless it breaks off inside an escape. -/
theorem Excerpt.IsClosed.isSealed {source : List Char} {first part last : List Component}
    {excerpt : Excerpt source first part last} (closed : excerpt.IsClosed)
    (uncut : (normalizeNewlines source).getLast? = some '\\' → ∃ x core y,
      Css.write part = x ++ (core ++ y) ∧ (∀ c ∈ y, Text.isBlank c = true) ∧
        core.getLast? = some '\\') : Sealed source := by
  constructor
  · rw [excerpt.complete, closed.missing, closed.final, List.append_nil, List.append_nil]
  · intro edge isEdge rest
    cases plain_edge isEdge (normalizeNewlines source) rest with
    | ends same => exact .inl same
    | @faulty cause member => exact absurd member (plain_faultless excerpt.faultless cause)
    | opened ends => exact absurd closed.tail (excerpt.opened ends)
    | cut shape isLast isReplaced =>
        obtain ⟨x, core, y, written, areBlank, isLast⟩ := uncut isLast
        exact absurd isReplaced (closed.uncut written areBlank isLast shape)
    | joined isBlank endsInHex same => exact .inr ⟨isBlank, endsInHex, same⟩

end StyleSieve
