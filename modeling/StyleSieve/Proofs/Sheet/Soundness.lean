import StyleSieve.Proofs.Css.Settling
import StyleSieve.Proofs.Sheet.Steps

/-!
# Sound statements

What reading promises of the statements of a rule list and of the entries of a declaration
list: their components are those of the list, a prelude holds no block in curly brackets,
and a value holds no semicolon.
-/

namespace StyleSieve

open Css Css.Component

/-! ## Components of a list -/

/-- A component that a list can hold: in a block, none that would close the block. -/
def Level.Admits (level : Level) (component : Component) : Prop :=
  component.Sound ∧ (level = .inBlock → component.closer? ≠ some '\x7d')

/-- A component that the prelude of an at-rule in a list can hold. -/
def Level.AdmitsPrelude (level : Level) (component : Component) : Prop :=
  level.Admits component ∧ component.curlyContent? = none ∧ component.isDelim ";" = false

theorem soundAll_of_admits {level : Level} {components : List Component}
    (admits : ∀ component ∈ components, level.Admits component) : SoundAll components := by
  rw [soundAll_iff]
  intro component member
  exact (admits component member).1

theorem admits_outermost {components : List Component} (sound : SoundAll components) :
    ∀ component ∈ components, Level.outermost.Admits component := by
  rw [soundAll_iff] at sound
  intro component member
  exact ⟨sound component member, fun isBlock => by cases isBlock⟩

/-- A block in curly brackets is sound when its content is that of a list in a block. -/
theorem sound_curly (offset : Nat) (content : List Component) :
    (Component.block offset .curly content).Sound ↔
      ∀ component ∈ content, Level.inBlock.Admits component := by
  constructor
  · intro sound component member
    obtain ⟨_, inside, soundContent⟩ := sound
    rw [soundAll_iff] at soundContent
    exact ⟨soundContent component member, fun _ => inside component member⟩
  · intro admits
    refine ⟨trivial, ?_, soundAll_of_admits admits⟩
    intro component member
    exact (admits component member).2 rfl

theorem eq_curly {block : Component} {content : List Component}
    (curly : block.curlyContent? = some content) : ∃ offset, block = .block offset .curly content := by
  cases block with
  | token offset value => cases curly
  | block offset opening inner =>
      cases opening with
      | curly =>
          cases curly
          exact ⟨offset, rfl⟩
      | _ => cases curly

theorem admits_curlyContent {level : Level} {component : Component} {content : List Component}
    (admits : level.Admits component) (curly : component.curlyContent? = some content) :
    ∀ inner ∈ content, Level.inBlock.Admits inner := by
  obtain ⟨offset, rfl⟩ := eq_curly curly
  exact (sound_curly offset content).1 admits.1

/-! ## At-rules -/

/-- An at-rule of a list as reading gives it. -/
def Css.AtRule.Sound (level : Level) (rule : AtRule) : Prop :=
  (Token.atKeyword rule.name).Sound ∧ (∀ component ∈ rule.prelude, level.AdmitsPrelude component) ∧
    ∀ content ∈ rule.body, ∀ component ∈ content, Level.inBlock.Admits component

theorem sound_atKeyword? {component : Component} (sound : component.Sound) {name : List Char}
    (atKeyword : component.atKeyword? = some name) : (Token.atKeyword name).Sound := by
  cases component with
  | block offset opening content => cases atKeyword
  | token offset value =>
      cases value with
      | atKeyword text =>
          cases atKeyword
          exact sound
      | _ => cases atKeyword

theorem ofComponents?_sound {level : Level} {read : List Component}
    {body : Option (List Component)} {rule : AtRule}
    (found : AtRule.ofComponents? read body = some rule)
    (admits : ∀ component ∈ read, level.AdmitsPrelude component)
    (inside : ∀ content ∈ body, ∀ component ∈ content, Level.inBlock.Admits component) :
    rule.Sound level := by
  cases read with
  | nil => cases found
  | cons first prelude =>
      obtain ⟨name, atKeyword, rfl⟩ := Option.map_eq_some_iff.1 found
      refine ⟨sound_atKeyword? (admits first List.mem_cons_self).1.1 atKeyword, ?_, inside⟩
      intro component member
      exact admits component (List.mem_cons_of_mem first member)

theorem isDelim_of_atKeyword? {component : Component} (isKeyword : component.atKeyword?.isSome)
    (text : String) : component.isDelim text = false := by
  cases component with
  | block offset opening content => cases isKeyword
  | token offset value =>
      cases value with
      | atKeyword name => rfl
      | _ => cases isKeyword

/-! ## Statements -/

mutual

/-- A statement of a rule list as reading gives it. -/
def Statement.Sound (level : Level) : Statement → Prop
  | .style prelude content =>
      (∀ component ∈ prelude, level.Admits component ∧ component.curlyContent? = none) ∧
        ∀ component ∈ content, Level.inBlock.Admits component
  | .media prelude inner =>
      (∀ component ∈ prelude, level.AdmitsPrelude component) ∧ Statement.SoundAll .inBlock inner
  | .atRule rule => encloses rule = false ∧ rule.Sound level

/-- Some statements of a rule list as reading gives them. -/
def Statement.SoundAll (level : Level) : List Statement → Prop
  | [] => True
  | statement :: rest => statement.Sound level ∧ Statement.SoundAll level rest

end

/-- The components read since the last statement of a rule list. -/
structure Level.Reads (level : Level) (read : List Component) : Prop where
  admits : ∀ component ∈ read, level.Admits component
  flat : ∀ component ∈ read, component.curlyContent? = none
  endless : startsAtRule read = true → ∀ component ∈ read, component.isDelim ";" = false

theorem Level.Reads.nil (level : Level) : level.Reads [] :=
  ⟨by simp, by simp, by simp⟩

theorem Level.Reads.concat {level : Level} {read : List Component} {next : Component}
    (reads : level.Reads read) (admits : level.Admits next) (flat : next.curlyContent? = none)
    (goesOn : (startsAtRule read && next.isDelim ";") = false) : level.Reads (read ++ [next]) := by
  constructor
  · exact List.forall_mem_append.2 ⟨reads.admits, List.forall_mem_singleton.2 admits⟩
  · exact List.forall_mem_append.2 ⟨reads.flat, List.forall_mem_singleton.2 flat⟩
  · intro starts component member
    cases read with
    | nil =>
        rw [List.mem_singleton.1 member]
        exact isDelim_of_atKeyword? starts ";"
    | cons first more =>
        have begun : startsAtRule (first :: more) = true := starts
        rcases List.mem_append.1 member with inRead | isNext
        · exact reads.endless begun component inRead
        · rw [List.mem_singleton.1 isNext]
          rw [begun, Bool.true_and] at goesOn
          exact goesOn

theorem Level.Reads.rule_sound {level : Level} {read : List Component} {rule : AtRule}
    (reads : level.Reads read) {body : Option (List Component)}
    (found : AtRule.ofComponents? read body = some rule)
    (inside : ∀ content ∈ body, ∀ component ∈ content, Level.inBlock.Admits component) :
    rule.Sound level := by
  have starts : startsAtRule read = true := by
    rw [startsAtRule_ofComponents? read body, found]
    rfl
  refine ofComponents?_sound found ?_ inside
  intro component member
  exact ⟨reads.admits component member, reads.flat component member,
    reads.endless starts component member⟩

theorem Level.Reads.step {level : Level} {read : List Component} {next : Component}
    (reads : level.Reads read) (admits : level.Admits next) (goesOn : ended? read next = none) :
    level.Reads (level.step read next) := by
  obtain ⟨flat, endless, step⟩ := step_of_not_ended level goesOn
  rcases step with ⟨_, _, same⟩ | same
  · rw [same]
    exact .nil level
  · rw [same]
    exact reads.concat admits flat endless

/-- The statement that a component ends is sound, if those in its block are. -/
theorem Level.Reads.ends_sound {level : Level} {read : List Component} {next : Component}
    {statement : Statement} (reads : level.Reads read) (admits : level.Admits next)
    (inside : ∀ {inner}, statementsInside next = .ok inner → next.curlyContent?.isSome = true →
      Statement.SoundAll .inBlock inner)
    (ends : Ends read next statement) : statement.Sound level := by
  have body : ∀ {content}, next.curlyContent? = some content →
      ∀ found ∈ some content, ∀ component ∈ found, Level.inBlock.Admits component := by
    intro content curly found same
    cases same
    exact admits_curlyContent admits curly
  cases ends with
  | style curly _ =>
      refine ⟨?_, body curly _ rfl⟩
      exact fun component member => ⟨reads.admits component member, reads.flat component member⟩
  | media curly found parsed =>
      exact ⟨(reads.rule_sound found (body curly)).2.1, inside parsed (by rw [curly]; rfl)⟩
  | block curly found other => exact ⟨other, reads.rule_sound found (body curly)⟩
  | semicolon _ found => exact ⟨encloses_eq_false found, reads.rule_sound found nofun⟩

mutual

theorem statementsInside_sound (component : Component) {level : Level}
    (admits : level.Admits component) {statements : List Statement}
    (parsed : statementsInside component = .ok statements)
    (isCurly : component.curlyContent?.isSome = true) :
    Statement.SoundAll .inBlock statements := by
  match component with
  | .token offset value => cases isCurly
  | .block offset opening content =>
      cases opening with
      | curly =>
          exact statementsFrom_sound .inBlock [] content (Level.Reads.nil _)
            ((sound_curly offset content).1 admits.1) parsed
      | _ => cases isCurly

/-- The statements that reading gives are sound. -/
theorem statementsFrom_sound (level : Level) (read components : List Component)
    (reads : level.Reads read) (admits : ∀ component ∈ components, level.Admits component)
    {statements : List Statement} (parsed : statementsFrom level read components = .ok statements) :
    Statement.SoundAll level statements := by
  match components with
  | [] =>
      rw [statementsFrom] at parsed
      cases found : AtRule.ofComponents? read none with
      | some rule =>
          rw [found] at parsed
          cases parsed
          exact ⟨⟨encloses_eq_false found, reads.rule_sound found nofun⟩, trivial⟩
      | none =>
          cases last : read.getLast? with
          | some component =>
              rw [found, last] at parsed
              cases parsed
          | none =>
              rw [found, last] at parsed
              cases parsed
              exact trivial
  | next :: rest =>
      obtain ⟨admitsNext, admitsRest⟩ := List.forall_mem_cons.1 admits
      rw [statementsFrom_cons] at parsed
      cases ends : ended? read next with
      | some first =>
          rw [ends] at parsed
          obtain ⟨here, rfl, later⟩ := bind_eq_ok parsed
          obtain ⟨more, parsedMore, same⟩ := bind_eq_ok later
          cases same
          exact ⟨reads.ends_sound admitsNext (statementsInside_sound next admitsNext)
              (ends_of_ended? ends),
            statementsFrom_sound level [] rest (Level.Reads.nil _) admitsRest parsedMore⟩
      | none =>
          rw [ends] at parsed
          exact statementsFrom_sound level (level.step read next) rest
            (reads.step admitsNext ends) admitsRest parsed

end

/-! ## Values -/

/-- What a reading keeps of a value that has been marked: nothing before the exclamation
mark is marked, and it mixes blocks with other things as the whole value does. -/
structure KeepsBang (value : List Component) (reading : ValueReading) : Prop where
  before : ∃ rest, value = reading.beforeBang ++ rest
  marking : (ValueReading.ofComponents reading.beforeBang).marking = .plain
  mixed : (ValueReading.ofComponents reading.beforeBang).mixed = reading.mixed

theorem KeepsBang.concat {read : List Component} {reading later : ValueReading}
    (keeps : KeepsBang read reading) (sameBang : later.beforeBang = reading.beforeBang)
    (sameMixed : later.mixed = reading.mixed) (next : Component) :
    KeepsBang (read ++ [next]) later := by
  obtain ⟨⟨rest, whole⟩, marking, mixed⟩ := keeps
  rw [← sameBang] at whole marking mixed
  refine ⟨⟨rest ++ [next], ?_⟩, marking, mixed.trans sameMixed.symm⟩
  rw [← List.append_assoc, ← whole]

theorem keepsBang (value : List Component)
    (begun : (ValueReading.ofComponents value).marking ≠ .plain) :
    KeepsBang value (ValueReading.ofComponents value) := by
  refine marked_induction KeepsBang ?bang ?word ?gap value begun
  case bang =>
    intro read next plain _
    exact ⟨⟨[next], rfl⟩, plain, rfl⟩
  case word =>
    intro read next reading _ _ keeps
    refine keeps.concat ?_ ?_ next
    · rfl
    · rfl
  case gap =>
    intro read next reading _ keeps
    refine keeps.concat ?_ ?_ next
    · rfl
    · rfl

/-! ## Entries -/

/-- An entry of a declaration list as reading gives it. -/
def Css.Entry.Sound : Entry → Prop
  | .declaration name value important =>
      (Token.ident name).Sound ∧
        (∀ component ∈ value, Level.inBlock.Admits component ∧ component.isDelim ";" = false) ∧
          (ValueReading.ofComponents value).mixed = false ∧
            (ValueReading.ofComponents value).marking ≠ .important ∧
              (important = true → (ValueReading.ofComponents value).marking = .plain)
  | .atRule rule => rule.Sound .inBlock
  | .invalid .. => True

theorem sound_token? {component : Component} (sound : component.Sound) {name : List Char}
    (isIdent : component.token? = some (.ident name)) : (Token.ident name).Sound := by
  cases component with
  | block offset opening content => cases isIdent
  | token offset value =>
      cases isIdent
      exact sound

theorem ofDeclaration_sound {name : Component} (sound : name.Sound) {rest : List Component}
    (admits : ∀ component ∈ rest,
      Level.inBlock.Admits component ∧ component.isDelim ";" = false) :
    (Entry.ofDeclaration name rest).Sound := by
  unfold Entry.ofDeclaration
  split
  · rename_i text isIdent
    split
    · exact trivial
    · rename_i colon value dropped
      have admitsValue : ∀ component ∈ value,
          Level.inBlock.Admits component ∧ component.isDelim ";" = false := by
        intro component member
        refine admits component ((List.dropWhile_sublist Component.isGap).subset ?_)
        rw [dropped]
        exact List.mem_cons_of_mem colon member
      split
      · exact trivial
      · dsimp only
        split
        · exact trivial
        · rename_i pure
          rw [Bool.not_eq_true] at pure
          split
          · rename_i isImportant
            obtain ⟨⟨after, whole⟩, marking, mixed⟩ :=
              keepsBang value (by rw [isImportant]; exact Marking.noConfusion)
            refine ⟨sound_token? sound isIdent, ?_, mixed.trans pure, ?_, fun _ => marking⟩
            · intro component member
              refine admitsValue component ?_
              rw [whole]
              exact List.mem_append_left after member
            · rw [marking]
              exact Marking.noConfusion
          · rename_i notImportant
            exact ⟨sound_token? sound isIdent, admitsValue, pure, notImportant,
              fun isImportant => absurd isImportant Bool.false_ne_true⟩
  · exact trivial

/-- The components read since the last entry of a declaration list. -/
structure ReadsEntry (read : List Component) : Prop where
  admits : ∀ component ∈ read, Level.inBlock.Admits component ∧ component.isDelim ";" = false
  flat : startsAtRule read = true → ∀ component ∈ read, component.curlyContent? = none

theorem ReadsEntry.nil : ReadsEntry [] :=
  ⟨by simp, by simp⟩

theorem ReadsEntry.concat {read : List Component} {next : Component} (reads : ReadsEntry read)
    (admits : Level.inBlock.Admits next) (goesOn : next.isDelim ";" = false)
    (flat : startsAtRule read = true → next.curlyContent? = none) : ReadsEntry (read ++ [next]) := by
  constructor
  · exact List.forall_mem_append.2 ⟨reads.admits, List.forall_mem_singleton.2 ⟨admits, goesOn⟩⟩
  · intro starts component member
    cases read with
    | nil =>
        rw [List.mem_singleton.1 member]
        cases next with
        | token offset value => rfl
        | block offset opening content => cases starts
    | cons first more =>
        have begun : startsAtRule (first :: more) = true := starts
        rcases List.mem_append.1 member with inRead | isNext
        · exact reads.flat begun component inRead
        · rw [List.mem_singleton.1 isNext]
          exact flat begun

theorem ReadsEntry.finish_sound {read : List Component} (reads : ReadsEntry read)
    {body : Option (List Component)}
    (inside : ∀ content ∈ body, ∀ component ∈ content, Level.inBlock.Admits component) :
    ∀ entry ∈ entriesFrom.finish read body, entry.Sound := by
  intro entry member
  unfold entriesFrom.finish at member
  cases found : AtRule.ofComponents? read body with
  | some rule =>
      simp only [found] at member
      rw [List.mem_singleton.1 member]
      refine ofComponents?_sound found ?_ inside
      have starts : startsAtRule read = true := by
        rw [startsAtRule_ofComponents? read body, found]
        rfl
      intro component inRead
      obtain ⟨admits, endless⟩ := reads.admits component inRead
      exact ⟨admits, reads.flat starts component inRead, endless⟩
  | none =>
      simp only [found] at member
      cases read with
      | nil => cases member
      | cons first more =>
          rw [List.mem_singleton.1 member]
          obtain ⟨⟨admits, _⟩, others⟩ := List.forall_mem_cons.1 reads.admits
          exact ofDeclaration_sound admits.1 others

theorem ReadsEntry.step {read : List Component} {next : Component} (reads : ReadsEntry read)
    (admits : Level.inBlock.Admits next) (goesOn : endedBody? read next = none) :
    ReadsEntry (entryStep read next) := by
  obtain ⟨endless, flat⟩ := endless_of_not_ended goesOn
  rw [entryStep]
  split
  · exact .nil
  · exact reads.concat admits endless flat

/-- The body with which a component ends an entry is sound. -/
theorem admits_endedBody? {read : List Component} {next : Component}
    {body : Option (List Component)} (admits : Level.inBlock.Admits next)
    (ends : endedBody? read next = some body) :
    ∀ content ∈ body, ∀ component ∈ content, Level.inBlock.Admits component := by
  rw [endedBody?] at ends
  split at ends
  · cases ends
    nofun
  · split at ends
    · obtain ⟨content, curly, rfl⟩ := Option.map_eq_some_iff.1 ends
      intro other same
      cases same
      exact admits_curlyContent admits curly
    · cases ends

/-- The entries that reading gives are sound. -/
theorem entriesFrom_sound (read components : List Component) (reads : ReadsEntry read)
    (admits : ∀ component ∈ components, Level.inBlock.Admits component) :
    ∀ entry ∈ entriesFrom read components, entry.Sound := by
  induction components generalizing read with
  | nil => exact reads.finish_sound (by simp)
  | cons next rest ih =>
      obtain ⟨admitsNext, admitsRest⟩ := List.forall_mem_cons.1 admits
      intro entry member
      rw [entriesFrom_cons] at member
      cases ends : endedBody? read next with
      | some body =>
          rw [ends] at member
          rcases List.mem_append.1 member with isFirst | isLater
          · exact reads.finish_sound (admits_endedBody? admitsNext ends) entry isFirst
          · exact ih [] ReadsEntry.nil admitsRest entry isLater
      | none =>
          rw [ends] at member
          exact ih (entryStep read next) (reads.step admitsNext ends) admitsRest entry member

theorem entries_sound {content : List Component}
    (admits : ∀ component ∈ content, Level.inBlock.Admits component) :
    ∀ entry ∈ entries content, entry.Sound :=
  entriesFrom_sound [] content ReadsEntry.nil admits

end StyleSieve
