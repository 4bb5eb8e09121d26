import StyleSieve.Proofs.Sheet.Settling
import StyleSieve.Proofs.Sheet.Soundness

/-!
# Origins

Where the pieces of a list, the entries of a declaration list and the statements of a rule
list stand among the components that they are read from.
-/

namespace StyleSieve

open Css Css.Component

/-! ## Pieces -/

theorem exists_first_piece {separates : Component → Bool} {components piece : List Component}
    {pieces : List (List Component)}
    (split : splitAtEvery separates components = piece :: pieces) :
    ∃ right, components = piece ++ right := by
  induction components generalizing piece pieces with
  | nil =>
      cases split
      exact ⟨[], rfl⟩
  | cons next rest ih =>
      cases separated : separates next with
      | true =>
          rw [splitAtEvery_separator separated] at split
          cases split
          exact ⟨next :: rest, rfl⟩
      | false =>
          obtain ⟨first, others, splitRest⟩ := exists_splitAtEvery separates rest
          rw [splitAtEvery_other separated splitRest] at split
          cases split
          obtain ⟨right, same⟩ := ih splitRest
          exact ⟨right, by rw [List.cons_append, ← same]⟩

/-- A piece of a list stands in it. -/
theorem exists_piece {separates : Component → Bool} {components piece : List Component}
    (member : piece ∈ splitAtEvery separates components) :
    ∃ left right, components = left ++ (piece ++ right) := by
  induction components with
  | nil =>
      rw [List.mem_singleton.1 member]
      exact ⟨[], [], rfl⟩
  | cons next rest ih =>
      obtain ⟨first, others, split⟩ := exists_splitAtEvery separates rest
      cases separated : separates next with
      | true =>
          rw [splitAtEvery_separator separated] at member
          rcases List.mem_cons.1 member with rfl | inRest
          · exact ⟨[], next :: rest, rfl⟩
          · obtain ⟨left, right, same⟩ := ih inRest
            exact ⟨next :: left, right, by rw [same]; rfl⟩
      | false =>
          rw [splitAtEvery_other separated split] at member
          rcases List.mem_cons.1 member with rfl | inOthers
          · obtain ⟨right, same⟩ := exists_first_piece split
            exact ⟨[], right, by rw [same]; rfl⟩
          · obtain ⟨left, right, same⟩ := ih (split ▸ List.mem_cons_of_mem first inOthers)
            exact ⟨next :: left, right, by rw [same]; rfl⟩

/-! ## Entries -/

/-- What ends a statement with a body or without one: a semicolon, the body, or the end of
the list. -/
inductive Stop : Option (List Component) → List Component → List Component → Prop where
  | semicolon {semicolon : Component} {rest : List Component} :
      semicolon.isDelim ";" = true → Stop none [semicolon] rest
  | block {block : Component} {content rest : List Component} :
      block.curlyContent? = some content → Stop (some content) [block] rest
  | finish : Stop none [] []

theorem stop_of_endedBody? {read : List Component} {next : Component}
    {body : Option (List Component)} (ends : endedBody? read next = some body)
    (rest : List Component) : Stop body [next] rest := by
  rw [endedBody?] at ends
  split at ends
  · rename_i isEnd
    cases ends
    exact .semicolon isEnd
  · split at ends
    · obtain ⟨content, curly, rfl⟩ := Option.map_eq_some_iff.1 ends
      exact .block curly
    · cases ends

/-- An entry is made up of components that stand together, up to its end. -/
theorem exists_entry {read components : List Component} {entry : Entry}
    (member : entry ∈ entriesFrom read components) :
    ∃ left used stop right body, read ++ components = left ++ (used ++ (stop ++ right)) ∧
      Stop body stop right ∧ entry ∈ entriesFrom.finish used body := by
  induction components generalizing read with
  | nil => exact ⟨[], read, [], [], none, by simp, .finish, member⟩
  | cons next rest ih =>
      -- what is read from the rest alone stands after all that was read before
      have later : entry ∈ entriesFrom [] rest →
          ∃ left used stop right body, read ++ next :: rest = left ++ (used ++ (stop ++ right)) ∧
            Stop body stop right ∧ entry ∈ entriesFrom.finish used body := by
        intro inRest
        obtain ⟨left, used, stop, right, body, same, isStop, finished⟩ := ih inRest
        rw [List.nil_append] at same
        exact ⟨read ++ next :: left, used, stop, right, body, by rw [same]; simp, isStop, finished⟩
      rw [entriesFrom_cons] at member
      cases ends : endedBody? read next with
      | some body =>
          rw [ends] at member
          rcases List.mem_append.1 member with isFirst | isLater
          · exact ⟨[], read, [next], rest, body, rfl, stop_of_endedBody? ends rest, isFirst⟩
          · exact later isLater
      | none =>
          rw [ends] at member
          dsimp only [entryStep] at member
          split at member
          · exact later member
          · obtain ⟨left, used, stop, right, body, same, isStop, finished⟩ := ih member
            rw [List.append_assoc, List.singleton_append] at same
            exact ⟨left, used, stop, right, body, same, isStop, finished⟩

theorem eq_token_of_token? {component : Component} {value : Token}
    (isToken : component.token? = some value) :
    ∃ offset, component = .token offset value := by
  cases component with
  | block offset opening content => cases isToken
  | token offset other =>
      cases isToken
      exact ⟨offset, rfl⟩

theorem eq_delim {component : Component} {text : String} (isDelim : component.isDelim text = true) :
    ∃ offset, component = .token offset (.delim text.toList) :=
  eq_token_of_token? (beq_iff_eq.1 isDelim)

theorem eq_atKeyword {component : Component} {name : List Char}
    (isKeyword : component.atKeyword? = some name) :
    ∃ offset, component = .token offset (.atKeyword name) := by
  cases component with
  | block offset opening content => cases isKeyword
  | token offset value =>
      cases value with
      | atKeyword other =>
          cases isKeyword
          exact ⟨offset, rfl⟩
      | _ => cases isKeyword

/-- The at-rule of an entry starts with its at-keyword. -/
theorem exists_keyword {used : List Component} {body : Option (List Component)} {rule : AtRule}
    (found : AtRule.ofComponents? used body = some rule) :
    ∃ offset, used = .token offset (.atKeyword rule.name) :: rule.prelude ∧ rule.body = body := by
  cases used with
  | nil => cases found
  | cons first prelude =>
      obtain ⟨name, isKeyword, rfl⟩ := Option.map_eq_some_iff.1 found
      obtain ⟨offset, rfl⟩ := eq_atKeyword isKeyword
      exact ⟨offset, rfl, rfl⟩

/-! ## Values -/

/-- The words that mark a value, read so far, with gaps among them. -/
inductive Marked : Marking → List Component → Prop where
  | bang {bang : Component} : bang.isDelim "!" = true → Marked .bang [bang]
  | word {mark : List Component} {word : Component} : Marked .bang mark →
      ValueReading.step.isImportant word = true → Marked .important (mark ++ [word])
  | gap {marking : Marking} {mark : List Component} {gap : Component} : Marked marking mark →
      gap.isGap = true → Marked marking (mark ++ [gap])

/-- A marked value ends with the words that mark it. -/
theorem exists_mark (value : List Component)
    (begun : (ValueReading.ofComponents value).marking ≠ .plain) :
    ∃ mark, value = (ValueReading.ofComponents value).beforeBang ++ mark ∧
      Marked (ValueReading.ofComponents value).marking mark := by
  refine marked_induction (fun value reading => ∃ mark, value = reading.beforeBang ++ mark ∧
    Marked reading.marking mark) ?bang ?word ?gap value begun
  case bang =>
    intro read next _ isBang
    exact ⟨[next], rfl, .bang isBang⟩
  case word =>
    rintro _ next reading isMarked isWord ⟨mark, rfl, marked⟩
    rw [isMarked] at marked
    exact ⟨mark ++ [next], List.append_assoc .., marked.word isWord⟩
  case gap =>
    rintro _ next reading isGap ⟨mark, rfl, marked⟩
    exact ⟨mark ++ [next], List.append_assoc .., marked.gap isGap⟩

/-- A declaration starts with its name, a colon and its value, which the words that mark it
may follow. -/
theorem exists_declaration {first : Component} {more value : List Component} {name : List Char}
    {important : Bool}
    (read : Entry.ofDeclaration first more = .declaration name value important) :
    ∃ offset gaps colonOffset mark, first = .token offset (.ident name) ∧
      more = gaps ++ .token colonOffset (.delim [':']) :: (value ++ mark) ∧
        if important then Marked .important mark else mark = [] := by
  unfold Entry.ofDeclaration at read
  split at read
  · rename_i text isIdent
    obtain ⟨offset, rfl⟩ := eq_token_of_token? isIdent
    split at read
    · cases read
    · rename_i colon rest dropped
      have parts : more = more.takeWhile Component.isGap ++ colon :: rest := by
        rw [← dropped, List.takeWhile_append_dropWhile]
      split at read
      · cases read
      · rename_i isColon
        rw [Bool.not_eq_true, Bool.not_eq_false'] at isColon
        obtain ⟨colonOffset, rfl⟩ := eq_delim isColon
        dsimp only at read
        split at read
        · cases read
        · split at read
          · rename_i isImportant
            obtain ⟨mark, whole, marked⟩ := exists_mark rest
              (by rw [isImportant]; exact Marking.noConfusion)
            rw [isImportant] at marked
            cases read
            refine ⟨offset, more.takeWhile Component.isGap, colonOffset, mark, rfl, ?_, marked⟩
            rw [← whole]
            exact parts
          · cases read
            refine ⟨offset, more.takeWhile Component.isGap, colonOffset, [], rfl, ?_, rfl⟩
            rw [List.append_nil]
            exact parts
  · cases read

/-! ## Statements -/

/-- An at-rule that a component ends is made up of what was read before its end. -/
theorem Ends.exists_body {read : List Component} {next : Component} {rule : AtRule}
    (ends : Ends read next (.atRule rule)) (rest : List Component) :
    ∃ body, Stop body [next] rest ∧ AtRule.ofComponents? read body = some rule := by
  cases ends with
  | block curly found other => exact ⟨_, .block curly, found⟩
  | semicolon isEnd found => exact ⟨none, .semicolon isEnd, found⟩

/-- A list whose one statement is an at-rule holds the components of the at-rule, and before
them nothing that counts. -/
theorem exists_statement {level : Level} {read components : List Component} {rule : AtRule}
    (parsed : statementsFrom level read components = .ok [.atRule rule]) :
    ∃ left used stop right body, read ++ components = left ++ (used ++ (stop ++ right)) ∧
      (∀ component ∈ left, level.skips component = true) ∧ Stop body stop right ∧
        AtRule.ofComponents? used body = some rule := by
  induction components generalizing read with
  | nil =>
      rw [statementsFrom] at parsed
      cases found : AtRule.ofComponents? read none with
      | some other =>
          rw [found] at parsed
          cases parsed
          exact ⟨[], read, [], [], none, by simp, by simp, .finish, found⟩
      | none =>
          rw [found] at parsed
          cases last : read.getLast? with
          | some component =>
              rw [last] at parsed
              cases parsed
          | none =>
              rw [last] at parsed
              cases parsed
  | cons next rest ih =>
      rw [statementsFrom_cons] at parsed
      cases ends : ended? read next with
      | some first =>
          rw [ends] at parsed
          obtain ⟨here, rfl, later⟩ := bind_eq_ok parsed
          obtain ⟨more, -, same⟩ := bind_eq_ok later
          cases same
          obtain ⟨body, isStop, found⟩ := (ends_of_ended? ends).exists_body rest
          exact ⟨[], read, [next], rest, body, rfl, by simp, isStop, found⟩
      | none =>
          rw [ends] at parsed
          dsimp only at parsed
          obtain ⟨-, -, ⟨rfl, isSkipped, step⟩ | step⟩ := step_of_not_ended level ends
          -- the rule starts after what is passed over here
          · rw [step] at parsed
            obtain ⟨left, used, stop, right, body, same, skips, found⟩ := ih parsed
            rw [List.nil_append] at same
            refine ⟨next :: left, used, stop, right, body, ?_, ?_, found⟩
            · rw [same]
              rfl
            · exact List.forall_mem_cons.2 ⟨isSkipped, skips⟩
          · rw [step] at parsed
            obtain ⟨left, used, stop, right, body, same, found⟩ := ih parsed
            rw [List.append_assoc, List.singleton_append] at same
            exact ⟨left, used, stop, right, body, same, found⟩

end StyleSieve
