import StyleSieve.Proofs.Css.SettledText
import StyleSieve.Proofs.Sheet.Steps

/-!
# Settled statements

Settling the components of a style sheet settles the statements that they make up, and
does not change the rules that the statements spell.
-/

namespace StyleSieve

open Css Css.Component

/-! ## Pieces -/

/-- White space as its pieces. -/
def blanks (text : List Char) : List Component :=
  text.map fun c => .token 0 (.whitespace [c])

/-- A component that is settled as one piece: the two read alike. -/
structure Settles (component piece : Component) : Prop where
  settled : component.settled = [piece]
  notGap : component.isGap = false
  notGapPiece : piece.isGap = false
  offset : piece.offset = 0
  token? : piece.token? = component.token?.map Token.settled
  isDelim : ∀ text, piece.isDelim text = component.isDelim text
  atKeyword? : piece.atKeyword? = component.atKeyword?
  curlyContent? : piece.curlyContent? = component.curlyContent?.map settledAll
  typeName : piece.typeName = component.typeName
  isImportant : ValueReading.step.isImportant piece = ValueReading.step.isImportant component

/-- A sound component is white space or is settled as one piece. -/
theorem settles_cases {component : Component} (sound : component.Sound) :
    (∃ offset text, component = .token offset (.whitespace text) ∧ text ≠ []) ∨
      ∃ piece, Settles component piece := by
  cases component with
  | block offset opening content =>
      refine .inr ⟨.block 0 opening (settledAll content), ?_⟩
      cases opening <;> exact ⟨rfl, rfl, rfl, rfl, rfl, fun _ => rfl, rfl, rfl, rfl, rfl⟩
  | token offset value =>
      cases value with
      | comment text => cases sound
      | whitespace text => exact .inl ⟨offset, text, rfl, sound.1⟩
      | dimension spelling unit =>
          refine .inr ⟨.token 0 (.dimension spelling (settledUnit unit)), ?_⟩
          exact ⟨rfl, rfl, rfl, rfl, rfl, fun _ => by simp [isDelim, Component.token?], rfl, rfl,
            rfl, rfl⟩
      | fault cause =>
          refine .inr ⟨.token 0 (.fault cause), ?_⟩
          cases cause <;> exact ⟨rfl, rfl, rfl, rfl, rfl, fun _ => rfl, rfl, rfl, rfl, rfl⟩
      | _ => exact .inr ⟨.token 0 _, rfl, rfl, rfl, rfl, rfl, fun _ => rfl, rfl, rfl, rfl, rfl⟩

theorem settledAll_blanks (offset : Nat) (text : List Char) (rest : List Component) :
    settledAll (.token offset (.whitespace text) :: rest) = blanks text ++ settledAll rest := by
  rw [settledAll, Component.settled, Token.pieces, List.map_map]
  rfl

theorem Settles.cons {component piece : Component} (settles : Settles component piece)
    (rest : List Component) : settledAll (component :: rest) = piece :: settledAll rest := by
  rw [settledAll, settles.settled]
  rfl

theorem settledAll_isEmpty {components : List Component} (sound : SoundAll components) :
    (settledAll components).isEmpty = components.isEmpty := by
  cases components with
  | nil => rfl
  | cons component rest =>
      rw [settledAll]
      cases pieces : component.settled with
      | nil => exact absurd pieces (settled_ne_nil sound.1)
      | cons piece more => rfl

/-! ## At-rules -/

/-- An at-rule with its components settled. -/
def settledRule (rule : AtRule) : AtRule :=
  ⟨rule.name, settledAll rule.prelude, rule.body.map settledAll⟩

theorem ofComponents?_settled {read : List Component} (sound : SoundAll read)
    (body : Option (List Component)) :
    AtRule.ofComponents? (settledAll read) (body.map settledAll) =
      (AtRule.ofComponents? read body).map settledRule := by
  cases read with
  | nil => rfl
  | cons first prelude =>
      rcases settles_cases sound.1 with ⟨offset, text, rfl, filled⟩ | ⟨piece, settles⟩
      · rw [settledAll_blanks]
        cases text with
        | nil => exact absurd rfl filled
        | cons c more => rfl
      · rw [settles.cons, AtRule.ofComponents?, AtRule.ofComponents?, settles.atKeyword?,
          Option.map_map]
        rfl

theorem startsAtRule_settled {read : List Component} (sound : SoundAll read) :
    startsAtRule (settledAll read) = startsAtRule read := by
  have atRule := ofComponents?_settled sound none
  rw [Option.map_none] at atRule
  rw [startsAtRule_ofComponents? _ none, startsAtRule_ofComponents? read none, atRule,
    Option.isSome_map]

/-! ## Statements -/

mutual

/-- A statement with its components settled. -/
def settledStatement : Statement → Statement
  | .style prelude content => .style (settledAll prelude) (settledAll content)
  | .media prelude inner => .media (settledAll prelude) (settledStatements inner)
  | .atRule rule => .atRule (settledRule rule)

/-- Some statements with their components settled. -/
def settledStatements : List Statement → List Statement
  | [] => []
  | statement :: rest => settledStatement statement :: settledStatements rest

end

theorem statementsFrom_blanks (level : Level) (read : List Component) (text : List Char)
    (rest : List Component) :
    statementsFrom level read (blanks text ++ rest) =
      statementsFrom level (if read.isEmpty then [] else read ++ blanks text) rest := by
  induction text generalizing read with
  | nil => cases read <;> simp [blanks]
  | cons c more ih =>
      rw [blanks] at ih
      rw [blanks, List.map_cons, List.cons_append, statementsFrom_whitespace rfl, ih]
      cases read <;> simp

/-- A component that is one piece is read like the piece, blocks in curly brackets and
ends of statements apart. -/
theorem skips_settled {component piece : Component} (settles : Settles component piece)
    (level : Level) : level.skips piece = level.skips component := by
  rw [Level.skips, Level.skips, settles.notGap, settles.notGapPiece, settles.isDelim,
    settles.isDelim]

theorem encloses_settled (rule : AtRule) : encloses (settledRule rule) = encloses rule := by
  rw [encloses, encloses, settledRule, Option.isSome_map]

theorem soundAll_concat {read : List Component} {next : Component} (soundRead : SoundAll read)
    (sound : next.Sound) : SoundAll (read ++ [next]) := by
  rw [soundAll_iff] at soundRead ⊢
  exact List.forall_mem_append.2 ⟨soundRead, List.forall_mem_singleton.2 sound⟩

theorem soundAll_step {level : Level} {read : List Component} {next : Component}
    (soundRead : SoundAll read) (sound : next.Sound) : SoundAll (level.step read next) := by
  rw [Level.step]
  split
  · trivial
  · split
    · trivial
    · split
      · trivial
      · exact soundAll_concat soundRead sound

theorem Settles.step {component piece : Component} (settles : Settles component piece)
    (level : Level) {read : List Component} (sound : SoundAll read) :
    level.step (settledAll read) piece = settledAll (level.step read component) := by
  rw [Level.step, Level.step, startsAtRule_settled sound, settles.curlyContent?, settles.isDelim,
    skips_settled settles, Option.isSome_map, settledAll_isEmpty sound]
  split
  · rfl
  · split
    · rfl
    · split
      · rfl
      · rw [settledAll_append, settles.cons, settledAll]

/-- Settling a component that ends a statement settles the statement. -/
theorem Settles.ended? {component piece : Component} (settles : Settles component piece)
    {read : List Component} (sound : SoundAll read)
    (inside : (statementsInside piece).toOption =
      (statementsInside component).toOption.map settledStatements) :
    (StyleSieve.ended? (settledAll read) piece).map Except.toOption =
      (StyleSieve.ended? read component).map fun first => first.toOption.map settledStatement := by
  apply ended?_image settles.curlyContent? (settles.isDelim ";") (ofComponents?_settled sound)
    encloses_settled
  case style => exact fun content => rfl
  case media =>
    intro rule
    rw [toOption_map, toOption_map, inside, Option.map_map, Option.map_map]
    rfl
  case other => exact fun rule => rfl

/-- At the end of a list, settling keeps whether a statement is left unfinished. -/
theorem statementsFrom_nil_settled (level : Level) {read : List Component}
    (sound : SoundAll read) :
    (statementsFrom level (settledAll read) []).toOption =
      (statementsFrom level read []).toOption.map settledStatements := by
  have atRule := ofComponents?_settled sound none
  rw [Option.map_none] at atRule
  rw [statementsFrom, statementsFrom, atRule]
  cases found : AtRule.ofComponents? read none with
  | some rule => rfl
  | none =>
      cases read with
      | nil => rfl
      | cons first more =>
          have filled := settledAll_isEmpty sound
          cases pieces : settledAll (first :: more) with
          | nil =>
              rw [pieces] at filled
              cases filled
          | cons piece others =>
              rw [List.getLast?_cons, List.getLast?_cons]
              rfl

mutual

theorem statementsInside_settled (component : Component) (sound : component.Sound)
    {piece : Component} (settled : component.settled = [piece]) :
    (statementsInside piece).toOption =
      (statementsInside component).toOption.map settledStatements := by
  match component with
  | .token offset value =>
      rw [Component.settled, List.map_eq_singleton_iff] at settled
      obtain ⟨token, _, rfl⟩ := settled
      rfl
  | .block offset opening content =>
      cases settled
      exact statementsFrom_settled .inBlock [] content trivial sound.2.2

/-- Settling components settles the statements that they make up. -/
theorem statementsFrom_settled (level : Level) (read components : List Component)
    (soundRead : SoundAll read) (sound : SoundAll components) :
    (statementsFrom level (settledAll read) (settledAll components)).toOption =
      (statementsFrom level read components).toOption.map settledStatements := by
  match components with
  | [] => exact statementsFrom_nil_settled level soundRead
  | next :: rest =>
      -- settling parts white space into single blanks, and keeps any other component in one piece
      rcases settles_cases sound.1 with ⟨offset, text, rfl, filled⟩ | ⟨piece, settles⟩
      · have ih := statementsFrom_settled level (read ++ [.token offset (.whitespace text)]) rest
          (soundAll_concat soundRead sound.1) sound.2
        have ihEmpty := statementsFrom_settled level [] rest trivial sound.2
        rw [settledAll_append, settledAll_blanks, settledAll, List.append_nil] at ih
        rw [settledAll_blanks, statementsFrom_blanks, settledAll_isEmpty soundRead]
        cases read with
        | nil => exact ihEmpty
        | cons first more =>
            rw [statementsFrom_whitespace rfl]
            exact ih
      · have ends := settles.ended? soundRead
          (statementsInside_settled next sound.1 settles.settled)
        have later := statementsFrom_settled level [] rest trivial sound.2
        have goesOn := statementsFrom_settled level (level.step read next) rest
          (soundAll_step soundRead sound.1) sound.2
        rw [settledAll] at later
        rw [settles.cons, statementsFrom_cons, statementsFrom_cons]
        cases isEnd : ended? read next with
        | none =>
            rw [isEnd, Option.map_none, Option.map_eq_none_iff] at ends
            rw [ends, settles.step level soundRead]
            exact goesOn
        | some first =>
            rw [isEnd, Option.map_some] at ends
            obtain ⟨settledFirst, isFirst, same⟩ := Option.map_eq_some_iff.1 ends
            rw [isFirst]
            dsimp only
            rw [toOption_cons, toOption_cons, same, later]
            cases first.toOption with
            | none => rfl
            | some here => cases (statementsFrom level [] rest).toOption <;> rfl

end

/-! ## Pieces between separators -/

theorem trimmedText_settled {components : List Component} (sound : SoundAll components) :
    trimmedText (settledAll components) = trimmedText components := by
  rw [trimmedText, trimmedText, Css.write, Css.write, writeFrom_settledAll components sound]

theorem exists_splitAtEvery (separates : Component → Bool) (components : List Component) :
    ∃ piece pieces, splitAtEvery separates components = piece :: pieces := by
  cases components with
  | nil => exact ⟨[], [], rfl⟩
  | cons next rest =>
      rw [splitAtEvery]
      split
      · split
        · exact ⟨_, _, rfl⟩
        · exact ⟨_, _, rfl⟩
      · exact ⟨_, _, rfl⟩

theorem splitAtEvery_separator {separates : Component → Bool} {next : Component}
    (separated : separates next = true) (rest : List Component) :
    splitAtEvery separates (next :: rest) = [] :: splitAtEvery separates rest := by
  obtain ⟨piece, pieces, split⟩ := exists_splitAtEvery separates rest
  rw [splitAtEvery, split]
  simp [separated]

theorem splitAtEvery_other {separates : Component → Bool} {next : Component}
    (other : separates next = false) {rest piece : List Component}
    {pieces : List (List Component)} (split : splitAtEvery separates rest = piece :: pieces) :
    splitAtEvery separates (next :: rest) = (next :: piece) :: pieces := by
  rw [splitAtEvery, split]
  simp [other]

theorem splitAtEvery_append {separates : Component → Bool} {first : List Component}
    (others : ∀ component ∈ first, separates component = false) {rest piece : List Component}
    {pieces : List (List Component)} (split : splitAtEvery separates rest = piece :: pieces) :
    splitAtEvery separates (first ++ rest) = (first ++ piece) :: pieces := by
  induction first with
  | nil => exact split
  | cons next more ih =>
      exact splitAtEvery_other (others next List.mem_cons_self)
        (ih fun component member => others component (List.mem_cons_of_mem next member))

theorem isDelim_blanks (text : String) (spaces : List Char) :
    ∀ component ∈ blanks spaces, component.isDelim text = false := by
  intro component member
  obtain ⟨c, _, rfl⟩ := List.mem_map.1 member
  rfl

theorem splitAtEvery_settled (text : String) (components : List Component)
    (sound : SoundAll components) :
    splitAtEvery (·.isDelim text) (settledAll components) =
      (splitAtEvery (·.isDelim text) components).map settledAll := by
  induction components with
  | nil => rfl
  | cons next rest ih =>
      obtain ⟨piece, pieces, split⟩ := exists_splitAtEvery (·.isDelim text) rest
      have settledSplit := ih sound.2
      rw [split, List.map_cons] at settledSplit
      rcases settles_cases sound.1 with ⟨offset, spaces, rfl, filled⟩ | ⟨settledNext, settles⟩
      · have other : (Component.token offset (.whitespace spaces)).isDelim text = false := rfl
        rw [settledAll_blanks, splitAtEvery_append (isDelim_blanks text spaces) settledSplit,
          splitAtEvery_other other split, List.map_cons, settledAll_blanks]
      · rw [settles.cons]
        cases separated : next.isDelim text with
        | true =>
            rw [splitAtEvery_separator separated, split,
              splitAtEvery_separator ((settles.isDelim text).trans separated), settledSplit]
            rfl
        | false =>
            rw [splitAtEvery_other separated split,
              splitAtEvery_other ((settles.isDelim text).trans separated) settledSplit,
              List.map_cons, settles.cons]

/-- The pieces of a list hold components of the list only. -/
theorem mem_splitAtEvery {separates : Component → Bool} {components piece : List Component}
    (member : piece ∈ splitAtEvery separates components) :
    ∀ component ∈ piece, component ∈ components ∧ separates component = false := by
  induction components generalizing piece with
  | nil =>
      rw [List.mem_singleton.1 member]
      intro component inPiece
      cases inPiece
  | cons next rest ih =>
      obtain ⟨first, others, split⟩ := exists_splitAtEvery separates rest
      intro component inPiece
      cases separated : separates next with
      | true =>
          rw [splitAtEvery_separator separated] at member
          rcases List.mem_cons.1 member with rfl | inRest
          · cases inPiece
          · have spec := ih inRest component inPiece
            exact ⟨List.mem_cons_of_mem next spec.1, spec.2⟩
      | false =>
          rw [splitAtEvery_other separated split] at member
          rw [split] at ih
          rcases List.mem_cons.1 member with rfl | inOthers
          · rcases List.mem_cons.1 inPiece with rfl | inFirst
            · exact ⟨List.mem_cons_self, separated⟩
            · have spec := ih List.mem_cons_self component inFirst
              exact ⟨List.mem_cons_of_mem next spec.1, spec.2⟩
          · have spec := ih (List.mem_cons_of_mem first inOthers) component inPiece
            exact ⟨List.mem_cons_of_mem next spec.1, spec.2⟩

theorem splitAtEvery_sound {separates : Component → Bool} {components : List Component}
    (sound : SoundAll components) :
    ∀ piece ∈ splitAtEvery separates components, SoundAll piece := by
  rw [soundAll_iff] at sound
  intro piece member
  rw [soundAll_iff]
  exact fun component inPiece => sound component (mem_splitAtEvery member component inPiece).1

theorem selectorsOfPrelude_settled {prelude : List Component} (sound : SoundAll prelude) :
    selectorsOfPrelude (settledAll prelude) = selectorsOfPrelude prelude := by
  rw [selectorsOfPrelude, selectorsOfPrelude, splitAtEvery_settled "," prelude sound, List.map_map]
  refine congrArg (List.filter _) (List.map_congr_left ?_)
  intro piece member
  exact trimmedText_settled (splitAtEvery_sound sound piece member)

end StyleSieve
