import Mathlib.Data.List.Basic
import StyleSieve.Proofs.Sheet.Settling
import StyleSieve.Proofs.Sheet.Soundness

/-!
# Settled declarations

Settling the components of a declaration list settles its entries.  With the statements
settled, the rules of a style sheet are those of its settled components.
-/

namespace StyleSieve

open Css Css.Component

/-! ## Values -/

/-- A reading of a value with its components settled. -/
def settledReading (value : ValueReading) : ValueReading :=
  { value with read := settledAll value.read, beforeBang := settledAll value.beforeBang }

theorem step_gap (value : ValueReading) (component : Component)
    (isGap : component.isGap = true) (notDelim : ∀ text, component.isDelim text = false)
    (notWord : ValueReading.step.isImportant component = false) :
    value.step component = { value with read := value.read ++ [component] } := by
  simp [ValueReading.step, isGap, notDelim, notWord]

theorem foldl_blanks (value : ValueReading) (text : List Char) :
    (blanks text).foldl ValueReading.step value =
      { value with read := value.read ++ blanks text } := by
  induction text generalizing value with
  | nil => simp [blanks]
  | cons c more ih =>
      have first := step_gap value (.token 0 (.whitespace [c])) rfl (fun _ => rfl) rfl
      rw [blanks] at ih
      rw [blanks, List.map_cons, List.foldl_cons, first, ih]
      simp

theorem step_settled {component piece : Component} (settles : Settles component piece)
    (value : ValueReading) :
    (settledReading value).step piece = settledReading (value.step component) := by
  have pushed : settledAll value.read ++ [piece] = settledAll (value.read ++ [component]) := by
    rw [settledAll_append, settles.cons, settledAll]
  have curly : piece.curlyContent?.isSome = component.curlyContent?.isSome := by
    rw [settles.curlyContent?, Option.isSome_map]
  have marking : (settledReading value).marking = value.marking := rfl
  rw [ValueReading.step, ValueReading.step, settles.isDelim, settles.isImportant, settles.notGap,
    settles.notGapPiece, curly, marking]
  by_cases isBang : (decide (value.marking = .plain) && component.isDelim "!") = true
  · rw [if_pos isBang, if_pos isBang]
    simp only [settledReading, pushed]
  · rw [if_neg isBang, if_neg isBang]
    by_cases isWord : (decide (value.marking = .bang) &&
        ValueReading.step.isImportant component) = true
    · rw [if_pos isWord, if_pos isWord]
      simp only [settledReading, pushed]
    · rw [if_neg isWord, if_neg isWord]
      simp only [settledReading, pushed, Bool.false_eq_true, if_false]

theorem foldl_settled (components : List Component) (sound : SoundAll components)
    (value : ValueReading) :
    (settledAll components).foldl ValueReading.step (settledReading value) =
      settledReading (components.foldl ValueReading.step value) := by
  induction components generalizing value with
  | nil => rfl
  | cons component rest ih =>
      rcases settles_cases sound.1 with ⟨offset, text, rfl, filled⟩ | ⟨piece, settles⟩
      · have gap := step_gap value (.token offset (.whitespace text)) rfl
          (fun _ => rfl) rfl
        have pushed : settledAll (value.read ++ [.token offset (.whitespace text)]) =
            settledAll value.read ++ blanks text := by
          rw [settledAll_append, settledAll_blanks, settledAll, List.append_nil]
        rw [settledAll_blanks, List.foldl_append, foldl_blanks, List.foldl_cons, ← ih sound.2, gap]
        simp only [settledReading, pushed]
      · rw [settles.cons, List.foldl_cons, step_settled settles, ih sound.2, List.foldl_cons]

theorem ofComponents_settled {value : List Component} (sound : SoundAll value) :
    ValueReading.ofComponents (settledAll value) =
      settledReading (ValueReading.ofComponents value) :=
  foldl_settled value sound {}

/-! ## Entries -/

/-- An entry with its components settled. -/
def settledEntry : Entry → Entry
  | .declaration name value important => .declaration name (settledAll value) important
  | .atRule rule => .atRule (settledRule rule)
  | .invalid _ cause => .invalid 0 cause

theorem dropWhile_blanks (text : List Char) (rest : List Component) :
    (blanks text ++ rest).dropWhile Component.isGap = rest.dropWhile Component.isGap := by
  induction text with
  | nil => rfl
  | cons c more ih => exact ih

theorem dropWhile_gap_settled {components : List Component} (sound : SoundAll components) :
    (settledAll components).dropWhile Component.isGap =
      settledAll (components.dropWhile Component.isGap) := by
  induction components with
  | nil => rfl
  | cons component rest ih =>
      rcases settles_cases sound.1 with ⟨offset, text, rfl, filled⟩ | ⟨piece, settles⟩
      · rw [settledAll_blanks, dropWhile_blanks, ih sound.2]
        rfl
      · rw [settles.cons, List.dropWhile_cons_of_neg (by rw [settles.notGapPiece]; decide),
          List.dropWhile_cons_of_neg (by rw [settles.notGap]; decide), settles.cons]

theorem soundAll_dropWhile {components : List Component} (sound : SoundAll components)
    (skips : Component → Bool) : SoundAll (components.dropWhile skips) := by
  rw [soundAll_iff] at sound ⊢
  exact fun component member => sound component ((List.dropWhile_sublist skips).subset member)

theorem dropWhile_gap_head {components : List Component} {first : Component}
    {more : List Component} (dropped : components.dropWhile Component.isGap = first :: more) :
    first.isGap = false := by
  have spec := List.head?_dropWhile_not Component.isGap components
  rw [dropped] at spec
  simpa using spec

theorem ofDeclaration_other {name : Component}
    (notIdent : ∀ text, name.token? ≠ some (.ident text)) (rest : List Component) :
    Entry.ofDeclaration name rest = .invalid name.offset (.name name.typeName) := by
  unfold Entry.ofDeclaration
  split
  · rename_i text isIdent
    exact absurd isIdent (notIdent text)
  · rfl

theorem token?_ident_settled {name piece : Component} (settles : Settles name piece)
    (text : List Char) :
    piece.token? = some (.ident text) ↔ name.token? = some (.ident text) := by
  rw [settles.token?]
  cases name.token? with
  | none => simp
  | some value => cases value <;> simp [Token.settled]

theorem ofDeclaration_settled {name piece : Component} (settles : Settles name piece)
    {rest : List Component} (sound : SoundAll rest) :
    Entry.ofDeclaration piece (settledAll rest) = settledEntry (Entry.ofDeclaration name rest) := by
  by_cases isIdent : ∃ text, name.token? = some (.ident text)
  · obtain ⟨text, isIdent⟩ := isIdent
    have isIdentPiece := (token?_ident_settled settles text).2 isIdent
    simp only [Entry.ofDeclaration, isIdent, isIdentPiece, dropWhile_gap_settled sound]
    have soundDropped := soundAll_dropWhile sound Component.isGap
    cases dropped : rest.dropWhile Component.isGap with
    | nil => simp [settledAll, settledEntry, settles.offset]
    | cons colon value =>
        rw [dropped] at soundDropped
        rcases settles_cases soundDropped.1 with ⟨offset, spaces, rfl, filled⟩ | ⟨settled, isSettled⟩
        · cases dropWhile_gap_head dropped
        · rw [isSettled.cons]
          simp only [isSettled.isDelim, isSettled.typeName, isSettled.offset,
            ofComponents_settled soundDropped.2, settledReading]
          split
          · rfl
          · split
            · rfl
            · split
              · rfl
              · rfl
  · have notIdent : ∀ text, name.token? ≠ some (.ident text) :=
      fun text same => isIdent ⟨text, same⟩
    have notIdentPiece : ∀ text, piece.token? ≠ some (.ident text) :=
      fun text same => notIdent text ((token?_ident_settled settles text).1 same)
    rw [ofDeclaration_other notIdent, ofDeclaration_other notIdentPiece, settles.typeName,
      settles.offset]
    rfl

/-- The components read since the last entry: none, or some that start with no gap. -/
def StartsEntry (read : List Component) : Prop :=
  ∀ first ∈ read.head?, first.isGap = false

theorem finish_settled {read : List Component} (sound : SoundAll read)
    (starts : StartsEntry read) (body : Option (List Component)) :
    entriesFrom.finish (settledAll read) (body.map settledAll) =
      (entriesFrom.finish read body).map settledEntry := by
  have atRule := ofComponents?_settled sound body
  unfold entriesFrom.finish
  rw [atRule]
  cases AtRule.ofComponents? read body with
  | some rule => rfl
  | none =>
      cases read with
      | nil => rfl
      | cons first more =>
          rcases settles_cases sound.1 with ⟨offset, spaces, rfl, filled⟩ | ⟨piece, settles⟩
          · cases starts _ rfl
          · rw [settles.cons]
            simp only [Option.map_none, ofDeclaration_settled settles sound.2]
            rfl

theorem entriesFrom_blanks (read : List Component) (text : List Char)
    (rest : List Component) :
    entriesFrom read (blanks text ++ rest) =
      entriesFrom (if read.isEmpty then [] else read ++ blanks text) rest := by
  induction text generalizing read with
  | nil => cases read <;> simp [blanks]
  | cons c more ih =>
      rw [blanks] at ih
      rw [blanks, List.map_cons, List.cons_append, entriesFrom_whitespace rfl, ih]
      cases read <;> simp

theorem startsEntry_concat {read : List Component} {next : Component}
    (starts : StartsEntry read) (begins : read = [] → next.isGap = false) :
    StartsEntry (read ++ [next]) := by
  intro first isFirst
  cases read with
  | nil =>
      cases isFirst
      exact begins rfl
  | cons component more => exact starts first isFirst

theorem entryStep_solid (read : List Component) {next : Component} (solid : next.isGap = false) :
    entryStep read next = read ++ [next] := by
  rw [entryStep, solid, Bool.and_false, if_neg Bool.false_ne_true]

theorem Settles.endedBody? {component piece : Component} (settles : Settles component piece)
    {read : List Component} (sound : SoundAll read) :
    StyleSieve.endedBody? (settledAll read) piece =
      (StyleSieve.endedBody? read component).map (Option.map settledAll) := by
  rw [StyleSieve.endedBody?, StyleSieve.endedBody?, settles.isDelim, startsAtRule_settled sound,
    settles.curlyContent?]
  split
  · rfl
  · split
    · rw [Option.map_map, Option.map_map]
      rfl
    · rfl

/-- Settling the components of a declaration list settles its entries. -/
theorem entriesFrom_settled (read components : List Component) (soundRead : SoundAll read)
    (starts : StartsEntry read) (sound : SoundAll components) :
    entriesFrom (settledAll read) (settledAll components) =
      (entriesFrom read components).map settledEntry := by
  induction components generalizing read with
  | nil => exact finish_settled soundRead starts none
  | cons next rest ih =>
      have startsNil : StartsEntry [] := fun first isFirst => by cases isFirst
      have ihEmpty := ih [] trivial startsNil sound.2
      rw [settledAll] at ihEmpty
      rcases settles_cases sound.1 with ⟨offset, spaces, rfl, filled⟩ | ⟨piece, settles⟩
      · rw [settledAll_blanks, entriesFrom_blanks, settledAll_isEmpty soundRead]
        cases read with
        | nil => exact ihEmpty
        | cons first more =>
            have ihMore := ih ((first :: more) ++ [.token offset (.whitespace spaces)])
              (soundAll_concat soundRead sound.1) (startsEntry_concat starts (by simp)) sound.2
            rw [settledAll_append, settledAll_blanks, settledAll, List.append_nil] at ihMore
            rw [entriesFrom_whitespace rfl]
            exact ihMore
      · have ihMore := ih (read ++ [next]) (soundAll_concat soundRead sound.1)
          (startsEntry_concat starts fun _ => settles.notGap) sound.2
        rw [settledAll_append, settles.cons, settledAll] at ihMore
        rw [settles.cons, entriesFrom_cons, entriesFrom_cons, settles.endedBody? soundRead]
        cases endedBody? read next with
        | some body =>
            dsimp only [Option.map_some]
            rw [finish_settled soundRead starts body, ihEmpty, List.map_append]
        | none =>
            dsimp only [Option.map_none]
            rw [entryStep_solid _ settles.notGapPiece, entryStep_solid _ settles.notGap]
            exact ihMore

/-! ## Rules -/

theorem write_settledAll {components : List Component} (sound : SoundAll components) :
    Css.write (settledAll components) = Css.write components := by
  rw [Css.write, Css.write, writeFrom_settledAll components sound]

theorem write_settledRule {level : Level} {rule : AtRule} (sound : rule.Sound level) :
    (settledRule rule).write = rule.write := by
  obtain ⟨_, admits, inside⟩ := sound
  have soundPrelude : SoundAll rule.prelude :=
    soundAll_of_admits fun component member => (admits component member).1
  rw [AtRule.write, AtRule.write, settledRule, write_settledAll soundPrelude]
  cases isBody : rule.body with
  | none => rfl
  | some content =>
      have soundBody := soundAll_of_admits (inside content isBody)
      simp only [Option.map_some, write_settledAll soundBody]

theorem declarationText?_settled {entry : Entry} (sound : entry.Sound) :
    declarationText? (settledEntry entry) = declarationText? entry := by
  cases entry with
  | declaration name value important =>
      have soundValue : SoundAll value :=
        soundAll_of_admits fun component member => (sound.2.1 component member).1
      rw [settledEntry, declarationText?, declarationText?, trimmedText_settled soundValue]
  | atRule rule => rw [settledEntry, declarationText?, declarationText?, write_settledRule sound]
  | invalid offset cause => rfl

theorem declarationsOf_settled {content : List Component}
    (admits : ∀ component ∈ content, Level.inBlock.Admits component) :
    declarationsOf (settledAll content) = declarationsOf content := by
  have startsNil : StartsEntry [] := fun first isFirst => by cases isFirst
  have settled := entriesFrom_settled [] content trivial startsNil (soundAll_of_admits admits)
  rw [settledAll] at settled
  rw [declarationsOf, declarationsOf, entries, settled, List.filterMap_map]
  refine List.filterMap_congr ?_
  intro entry member
  exact declarationText?_settled (entries_sound admits entry member)

mutual

theorem toRule_settled (level : Level) (statement : Statement) (sound : statement.Sound level) :
    (settledStatement statement).toRule = statement.toRule := by
  match statement with
  | .style prelude content =>
      obtain ⟨flat, inside⟩ := sound
      have soundPrelude : SoundAll prelude :=
        soundAll_of_admits fun component member => (flat component member).1
      rw [settledStatement, Statement.toRule, Statement.toRule,
        selectorsOfPrelude_settled soundPrelude, declarationsOf_settled inside]
  | .media prelude inner =>
      obtain ⟨flat, soundInner⟩ := sound
      have soundPrelude : SoundAll prelude :=
        soundAll_of_admits fun component member => (flat component member).1
      rw [settledStatement, Statement.toRule, Statement.toRule, trimmedText_settled soundPrelude,
        rulesOf_settled .inBlock inner soundInner]
  | .atRule rule =>
      rw [settledStatement, Statement.toRule, Statement.toRule, write_settledRule sound.2]

/-- Settling statements does not change the rules that they spell. -/
theorem rulesOf_settled (level : Level) (statements : List Statement)
    (sound : Statement.SoundAll level statements) :
    rulesOf (settledStatements statements) = rulesOf statements := by
  match statements with
  | [] => rfl
  | statement :: rest =>
      rw [settledStatements, rulesOf, rulesOf, toRule_settled level statement sound.1,
        rulesOf_settled level rest sound.2]

end

/-- The rules of sound components are those of the settled components. -/
theorem toOption_rules {components : List Component} (sound : SoundAll components) :
    ((statementsFrom .outermost [] components).map rulesOf).toOption =
      (statementsFrom .outermost [] (settledAll components)).toOption.map rulesOf := by
  have settled := statementsFrom_settled .outermost [] components trivial sound
  rw [settledAll] at settled
  rw [settled]
  cases parsed : statementsFrom .outermost [] components with
  | error offset => rfl
  | ok statements =>
      have areSound := statementsFrom_sound .outermost [] components (.nil _)
        (admits_outermost sound) parsed
      exact congrArg some (rulesOf_settled .outermost statements areSound).symm

end StyleSieve
