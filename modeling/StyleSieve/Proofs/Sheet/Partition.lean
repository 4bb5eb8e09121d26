import StyleSieve.Proofs.Css.Balance
import StyleSieve.Proofs.Css.Shifting
import StyleSieve.Proofs.Sheet.SettledEntries

/-!
# Parts of a rule list

A rule list whose last statement has ended is read apart from the components that follow.
Where the components stand in their source counts only for the error.
-/

namespace StyleSieve

open Css Css.Component

/-! ## Unfinished statements -/

/-- The components of the statement that a rule list leaves unfinished at its end, where
`read` holds those read before. -/
def Level.unfinished (level : Level) (read components : List Component) : List Component :=
  components.foldl level.step read

theorem Level.unfinished_cons (level : Level) (read : List Component) (next : Component)
    (rest : List Component) :
    level.unfinished read (next :: rest) = level.unfinished (level.step read next) rest :=
  rfl

theorem Level.unfinished_append (level : Level) (read first second : List Component) :
    level.unfinished read (first ++ second) =
      level.unfinished (level.unfinished read first) second :=
  List.foldl_append

/-- In a rule list that is read, only an at-rule can be left unfinished. -/
theorem unfinished_of_ok {level : Level} {read components : List Component}
    {statements : List Statement} (parsed : statementsFrom level read components = .ok statements)
    (noAtRule : startsAtRule (level.unfinished read components) = false) :
    level.unfinished read components = [] := by
  induction components generalizing read statements with
  | nil =>
      change startsAtRule read = false at noAtRule
      change read = []
      rw [startsAtRule_ofComponents? read none, Option.isSome_eq_false_iff,
        Option.isNone_iff_eq_none] at noAtRule
      rw [statementsFrom, noAtRule] at parsed
      cases isLast : read.getLast? with
      | none => exact List.getLast?_eq_none_iff.1 isLast
      | some last =>
          rw [isLast] at parsed
          cases parsed
  | cons next rest ih =>
      rw [Level.unfinished_cons] at noAtRule ⊢
      rw [statementsFrom_cons] at parsed
      cases ends : ended? read next with
      | none =>
          rw [ends] at parsed
          exact ih parsed noAtRule
      | some first =>
          rw [ends] at parsed
          rw [step_of_ended ends] at noAtRule ⊢
          obtain ⟨here, -, parsedMore⟩ := bind_eq_ok parsed
          obtain ⟨more, parsedRest, -⟩ := bind_eq_ok parsedMore
          exact ih parsedRest noAtRule

/-- A rule list whose last statement has ended is read apart from what follows. -/
theorem statementsFrom_append {level : Level} {read first : List Component}
    (finished : level.unfinished read first = []) (second : List Component) :
    statementsFrom level read (first ++ second) = do
      let here ← statementsFrom level read first
      let more ← statementsFrom level [] second
      return here ++ more := by
  induction first generalizing read with
  | nil =>
      obtain rfl : read = [] := finished
      rw [List.nil_append, statementsFrom]
      cases statementsFrom level [] second <;> rfl
  | cons next rest ih =>
      rw [Level.unfinished_cons] at finished
      rw [List.cons_append, statementsFrom_cons, statementsFrom_cons]
      cases ends : ended? read next with
      | none => exact ih finished
      | some first =>
          rw [step_of_ended ends] at finished
          dsimp only
          rw [ih finished]
          cases first with
          | error offset => rfl
          | ok here =>
              cases statementsFrom level [] rest with
              | error offset => rfl
              | ok more => cases statementsFrom level [] second <;> rfl

/-! ## Shifted rule lists -/

/-- An at-rule with `count` more characters before its components. -/
def shiftedRule (count : Nat) (rule : AtRule) : AtRule :=
  ⟨rule.name, rule.prelude.map (shifted count), rule.body.map (shiftedAll count)⟩

theorem ofComponents?_shifted (count : Nat) (read : List Component)
    (body : Option (List Component)) :
    AtRule.ofComponents? (read.map (shifted count)) (body.map (shiftedAll count)) =
      (AtRule.ofComponents? read body).map (shiftedRule count) := by
  cases read with
  | nil => rfl
  | cons first prelude =>
      rw [List.map_cons, AtRule.ofComponents?, AtRule.ofComponents?, atKeyword?_shifted,
        Option.map_map]
      rfl

theorem encloses_shifted (count : Nat) (rule : AtRule) :
    encloses (shiftedRule count rule) = encloses rule := by
  rw [encloses, encloses, shiftedRule, Option.isSome_map]

theorem startsAtRule_shifted (count : Nat) (read : List Component) :
    startsAtRule (read.map (shifted count)) = startsAtRule read := by
  cases read with
  | nil => rfl
  | cons first rest => rw [List.map_cons, startsAtRule, startsAtRule, atKeyword?_shifted]

theorem skips_shifted (count : Nat) (level : Level) (component : Component) :
    level.skips (component.shifted count) = level.skips component := by
  rw [Level.skips, Level.skips, isGap_shifted, isDelim_shifted, isDelim_shifted]

theorem step_shifted (count : Nat) (level : Level) (read : List Component) (next : Component) :
    level.step (read.map (shifted count)) (next.shifted count) =
      (level.step read next).map (shifted count) := by
  rw [Level.step, Level.step, startsAtRule_shifted, curlyContent?_shifted, isDelim_shifted,
    skips_shifted, Option.isSome_map, List.isEmpty_map]
  split
  · rfl
  · split
    · rfl
    · split
      · rfl
      · rw [List.map_append]
        rfl

/-- Shifting a component that ends a statement shifts the error of the statement. -/
theorem ended?_shifted (count : Nat) (read : List Component) {next : Component}
    (inside : errorOf? (statementsInside (next.shifted count)) =
      (errorOf? (statementsInside next)).map (· + count)) :
    (ended? (read.map (shifted count)) (next.shifted count)).map errorOf? =
      (ended? read next).map fun first => (errorOf? first).map (· + count) := by
  apply ended?_image (curlyContent?_shifted count next) (isDelim_shifted count next ";")
    (ofComponents?_shifted count read) (encloses_shifted count)
  case style => exact fun content => rfl
  case media =>
    intro rule
    rw [errorOf?_map, errorOf?_map, inside]
  case other => exact fun rule => rfl

mutual

/-- Shifting a block shifts the error of the rule list in it. -/
theorem errorOf?_statementsInside (count : Nat) (component : Component) :
    errorOf? (statementsInside (component.shifted count)) =
      (errorOf? (statementsInside component)).map (· + count) := by
  match component with
  | .token offset value => rfl
  | .block offset opening content =>
      rw [shifted, statementsInside, statementsInside, shiftedAll_eq_map]
      exact errorOf?_statementsFrom count .inBlock [] content

/-- Shifting a rule list shifts its error. -/
theorem errorOf?_statementsFrom (count : Nat) (level : Level) (read components : List Component) :
    errorOf? (statementsFrom level (read.map (shifted count)) (components.map (shifted count))) =
      (errorOf? (statementsFrom level read components)).map (· + count) := by
  match components with
  | [] =>
      have atRule := ofComponents?_shifted count read none
      rw [Option.map_none] at atRule
      rw [List.map_nil, statementsFrom, statementsFrom, atRule, List.getLast?_map]
      cases AtRule.ofComponents? read none with
      | some rule => rfl
      | none =>
          cases read.getLast? with
          | none => rfl
          | some last =>
              dsimp only [Option.map_some, Option.map_none]
              rw [offset_shifted]
              rfl
  | next :: rest =>
      have ends := ended?_shifted count read (errorOf?_statementsInside count next)
      have later := errorOf?_statementsFrom count level [] rest
      have goesOn := errorOf?_statementsFrom count level (level.step read next) rest
      rw [List.map_cons, statementsFrom_cons, statementsFrom_cons]
      cases isEnd : ended? read next with
      | none =>
          rw [isEnd, Option.map_none, Option.map_eq_none_iff] at ends
          rw [ends, step_shifted]
          exact goesOn
      | some first =>
          rw [isEnd, Option.map_some] at ends
          obtain ⟨firstShifted, isFirst, error⟩ := Option.map_eq_some_iff.1 ends
          rw [isFirst]
          dsimp only
          rw [errorOf?_cons, errorOf?_cons, error, Option.map_or]
          exact congrArg _ later

end

end StyleSieve
