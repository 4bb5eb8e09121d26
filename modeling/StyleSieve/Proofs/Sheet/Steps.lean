import Mathlib.Data.List.Induction
import StyleSieve.Proofs.Fallible
import StyleSieve.Sheet.Reader

/-!
# One component further

What one more component does to what has been read.  In a rule list it ends a statement or goes
on with it, in a declaration list it ends an entry or goes on with it, and in the value of a
declaration it belongs to the value or to the words that mark it.
-/

namespace StyleSieve

open Css Css.Component

/-! ## At-rules -/

theorem startsAtRule_ofComponents? (read : List Component) (body : Option (List Component)) :
    startsAtRule read = (AtRule.ofComponents? read body).isSome := by
  cases read with
  | nil => rfl
  | cons first prelude => rw [startsAtRule, AtRule.ofComponents?, Option.isSome_map]

theorem startsAtRule_append (read : List Component) (filled : read ≠ [])
    (more : List Component) : startsAtRule (read ++ more) = startsAtRule read := by
  cases read with
  | nil => exact absurd rfl filled
  | cons first prelude => rfl

theorem body_ofComponents? {read : List Component} {body : Option (List Component)}
    {rule : AtRule} (found : AtRule.ofComponents? read body = some rule) : rule.body = body := by
  cases read with
  | nil => cases found
  | cons first prelude =>
      obtain ⟨name, _, rfl⟩ := Option.map_eq_some_iff.1 found
      rfl

/-- An at-rule without a body encloses no rules. -/
theorem encloses_eq_false {read : List Component} {rule : AtRule}
    (found : AtRule.ofComponents? read none = some rule) : encloses rule = false := by
  rw [encloses, body_ofComponents? found]
  exact Bool.and_false _

/-! ## Lists of components -/

/-- What goes on over each component that may follow goes on over all of them. -/
theorem reading_append {β : Type} {read : List Component}
    (reading : List Component → List Component → β) (goesOn : Bool → Component → Prop)
    (step : ∀ {read : List Component} {next : Component} (rest : List Component), read ≠ [] →
      goesOn (startsAtRule read) next → reading read (next :: rest) = reading (read ++ [next]) rest)
    (filled : read ≠ []) (components more : List Component)
    (follow : ∀ component ∈ components, goesOn (startsAtRule read) component) :
    reading read (components ++ more) = reading (read ++ components) more := by
  induction components generalizing read with
  | nil => rw [List.append_nil, List.nil_append]
  | cons next rest ih =>
      obtain ⟨first, others⟩ := List.forall_mem_cons.1 follow
      rw [← startsAtRule_append read filled [next]] at others
      rw [List.cons_append, step (rest ++ more) filled first,
        ih (List.append_ne_nil_of_right_ne_nil read (List.cons_ne_nil next [])) others,
        List.append_assoc, List.singleton_append]

/-! ## Statements -/

/-- The components of an unfinished statement after one more component: none where the
component ends the statement, or stands between two statements. -/
def Level.step (level : Level) (read : List Component) (next : Component) : List Component :=
  if next.curlyContent?.isSome then []
  else if startsAtRule read && next.isDelim ";" then []
  else if read.isEmpty && level.skips next then []
  else read ++ [next]

/-- The statement that a component ends, if it ends one. -/
def ended? (read : List Component) (next : Component) : Option (Except Nat Statement) :=
  match next.curlyContent? with
  | some content =>
      match AtRule.ofComponents? read (some content) with
      | some rule =>
          if encloses rule then some ((statementsInside next).map (.media rule.prelude))
          else some (.ok (.atRule rule))
      | none => some (.ok (.style read content))
  | none =>
      if next.isDelim ";" then (AtRule.ofComponents? read none).map (.ok ∘ .atRule) else none

theorem step_of_ended {level : Level} {read : List Component} {next : Component}
    {first : Except Nat Statement} (ends : ended? read next = some first) :
    level.step read next = [] := by
  rw [Level.step]
  rw [ended?] at ends
  cases curly : next.curlyContent? with
  | some content => rfl
  | none =>
      rw [curly] at ends
      dsimp only at ends
      split at ends
      · rename_i isEnd
        obtain ⟨rule, found, -⟩ := Option.map_eq_some_iff.1 ends
        rw [startsAtRule_ofComponents? read none, found, isEnd]
        rfl
      · cases ends

/-- A component ends a statement or goes on with it. -/
theorem statementsFrom_cons (level : Level) (read : List Component) (next : Component)
    (rest : List Component) :
    statementsFrom level read (next :: rest) =
      match ended? read next with
      | some first => do
          let here ← first
          let more ← statementsFrom level [] rest
          return here :: more
      | none => statementsFrom level (level.step read next) rest := by
  rw [statementsFrom, ended?, Level.step]
  cases next.curlyContent? with
  | some content =>
      dsimp only
      cases AtRule.ofComponents? read (some content) with
      | some rule =>
          dsimp only
          split
          · cases statementsInside next <;> rfl
          · rfl
      | none => rfl
  | none =>
      rw [startsAtRule_ofComponents? read none]
      dsimp only
      cases next.isDelim ";" with
      | true =>
          cases AtRule.ofComponents? read none with
          | some rule => rfl
          | none => cases read.isEmpty && level.skips next <;> rfl
      | false =>
          rw [Bool.and_false]
          cases read.isEmpty && level.skips next <;> rfl

/-- A block in curly brackets ends a media rule, and the rules in the block are its own. -/
theorem ended?_media {first : Component} {name : List Char}
    (isKeyword : first.atKeyword? = some name)
    (isMedia : (lowerAscii name == "media".toList) = true) (prelude : List Component)
    (offset : Nat) (content : List Component) :
    ended? (first :: prelude) (.block offset .curly content) =
      some ((statementsFrom .inBlock [] content).map (.media prelude)) := by
  have encloses : encloses ⟨name, prelude, some content⟩ = true := by
    rw [StyleSieve.encloses, isMedia]
    rfl
  simp only [ended?, curlyContent?, AtRule.ofComponents?, isKeyword, Option.map_some, encloses,
    if_true, statementsInside]

/-- What a component ends is told from images of the components as it is told from the
components, if it is so for each kind of statement. -/
theorem ended?_image {γ : Type} {inner : List Component → List Component}
    {imageRule : AtRule → AtRule} {view view' : Except Nat Statement → γ}
    {read image : List Component} {next nextImage : Component}
    (curly : nextImage.curlyContent? = next.curlyContent?.map inner)
    (semicolon : nextImage.isDelim ";" = next.isDelim ";")
    (atRule : ∀ body, AtRule.ofComponents? image (body.map inner) =
      (AtRule.ofComponents? read body).map imageRule)
    (encloses_eq : ∀ rule, encloses (imageRule rule) = encloses rule)
    (style : ∀ content,
      view (.ok (.style image (inner content))) = view' (.ok (.style read content)))
    (media : ∀ rule, view ((statementsInside nextImage).map (.media (imageRule rule).prelude)) =
      view' ((statementsInside next).map (.media rule.prelude)))
    (other : ∀ rule, view (.ok (.atRule (imageRule rule))) = view' (.ok (.atRule rule))) :
    (ended? image nextImage).map view = (ended? read next).map view' := by
  rw [ended?, ended?, curly, semicolon]
  cases next.curlyContent? with
  | some content =>
      have found := atRule (some content)
      rw [Option.map_some] at found
      dsimp only [Option.map_some]
      rw [found]
      cases AtRule.ofComponents? read (some content) with
      | some rule =>
          dsimp only [Option.map_some]
          rw [encloses_eq]
          split
          · exact congrArg some (media rule)
          · exact congrArg some (other rule)
      | none => exact congrArg some (style content)
  | none =>
      have found := atRule none
      rw [Option.map_none] at found
      dsimp only [Option.map_none]
      rw [found]
      split
      · cases AtRule.ofComponents? read none with
        | some rule => exact congrArg some (other rule)
        | none => rfl
      · rfl

/-- The ways in which a component ends a statement. -/
inductive Ends (read : List Component) (next : Component) : Statement → Prop where
  | style {content : List Component} : next.curlyContent? = some content →
      AtRule.ofComponents? read (some content) = none → Ends read next (.style read content)
  | media {content : List Component} {rule : AtRule} {inner : List Statement} :
      next.curlyContent? = some content → AtRule.ofComponents? read (some content) = some rule →
      statementsInside next = .ok inner → Ends read next (.media rule.prelude inner)
  | block {content : List Component} {rule : AtRule} : next.curlyContent? = some content →
      AtRule.ofComponents? read (some content) = some rule → encloses rule = false →
      Ends read next (.atRule rule)
  | semicolon {rule : AtRule} : next.isDelim ";" = true →
      AtRule.ofComponents? read none = some rule → Ends read next (.atRule rule)

theorem ends_of_ended? {read : List Component} {next : Component} {statement : Statement}
    (ends : ended? read next = some (.ok statement)) : Ends read next statement := by
  rw [ended?] at ends
  cases curly : next.curlyContent? with
  | some content =>
      simp only [curly] at ends
      cases found : AtRule.ofComponents? read (some content) with
      | some rule =>
          simp only [found] at ends
          cases enclosing : encloses rule with
          | true =>
              rw [enclosing, if_pos rfl] at ends
              cases inside : statementsInside next with
              | error offset =>
                  rw [inside] at ends
                  cases ends
              | ok inner =>
                  rw [inside] at ends
                  cases ends
                  exact .media curly found inside
          | false =>
              rw [enclosing, if_neg Bool.false_ne_true] at ends
              cases ends
              exact .block curly found enclosing
      | none =>
          simp only [found] at ends
          cases ends
          exact .style curly found
  | none =>
      simp only [curly] at ends
      split at ends
      · rename_i isEnd
        obtain ⟨rule, found, same⟩ := Option.map_eq_some_iff.1 ends
        cases same
        exact .semicolon isEnd found
      · cases ends

/-- A component that ends no statement is passed over before one or goes on with one. -/
theorem step_of_not_ended (level : Level) {read : List Component} {next : Component}
    (goesOn : ended? read next = none) :
    next.curlyContent? = none ∧ (startsAtRule read && next.isDelim ";") = false ∧
      (read = [] ∧ level.skips next = true ∧ level.step read next = [] ∨
        level.step read next = read ++ [next]) := by
  rw [ended?] at goesOn
  cases curly : next.curlyContent? with
  | some content =>
      simp only [curly] at goesOn
      split at goesOn
      · split at goesOn <;> cases goesOn
      · cases goesOn
  | none =>
      simp only [curly] at goesOn
      have endless : (startsAtRule read && next.isDelim ";") = false := by
        rw [startsAtRule_ofComponents? read none]
        cases isEnd : next.isDelim ";" with
        | false => exact Bool.and_false _
        | true =>
            rw [isEnd, if_pos rfl, Option.map_eq_none_iff] at goesOn
            rw [goesOn]
            rfl
      refine ⟨rfl, endless, ?_⟩
      rw [Level.step, curly, endless]
      simp only [Option.isSome_none, Bool.false_eq_true, if_false]
      split
      · rename_i skipped
        rw [Bool.and_eq_true, List.isEmpty_iff] at skipped
        exact .inl ⟨skipped.1, skipped.2, rfl⟩
      · exact .inr rfl

/-- A statement goes on over components that cannot end it. -/
theorem statementsFrom_read (level : Level) {read : List Component} (filled : read ≠ [])
    (components more : List Component)
    (flat : ∀ component ∈ components, component.curlyContent? = none)
    (endless : startsAtRule read = true → ∀ component ∈ components, component.isDelim ";" = false) :
    statementsFrom level read (components ++ more) =
      statementsFrom level (read ++ components) more := by
  refine reading_append (statementsFrom level) (fun starts next =>
    next.curlyContent? = none ∧ (starts = true → next.isDelim ";" = false))
    ?step filled components more ?follow
  case follow =>
    exact fun component member =>
      ⟨flat component member, fun starts => endless starts component member⟩
  case step =>
    rintro (_ | ⟨first, more⟩) next rest filled ⟨noBlock, noEnd⟩
    · exact absurd rfl filled
    rw [statementsFrom, noBlock]
    cases starts : startsAtRule (first :: more) with
    | true => simp [noEnd starts]
    | false => simp

theorem exists_of_isWhitespace {component : Component} (isBlank : component.isWhitespace = true) :
    ∃ offset text, component = .token offset (.whitespace text) := by
  cases component with
  | block offset opening content => cases isBlank
  | token offset value =>
      cases value with
      | whitespace text => exact ⟨offset, text, rfl⟩
      | _ => cases isBlank

theorem step_whitespace {component : Component} (isBlank : component.isWhitespace = true)
    (level : Level) (read : List Component) :
    level.step read component = if read.isEmpty then [] else read ++ [component] := by
  obtain ⟨offset, text, rfl⟩ := exists_of_isWhitespace isBlank
  have notEnd : isDelim ";" (.token offset (.whitespace text)) = false := rfl
  have skips : level.skips (.token offset (.whitespace text)) = true := rfl
  rw [Level.step, notEnd, skips, Bool.and_false, Bool.and_true]
  rfl

/-- White space is passed over between statements and kept within one. -/
theorem statementsFrom_whitespace {component : Component} (isBlank : component.isWhitespace = true)
    (level : Level) (read rest : List Component) :
    statementsFrom level read (component :: rest) =
      statementsFrom level (if read.isEmpty then [] else read ++ [component]) rest := by
  have goesOn : ended? read component = none := by
    obtain ⟨offset, text, rfl⟩ := exists_of_isWhitespace isBlank
    rfl
  rw [statementsFrom_cons, goesOn, step_whitespace isBlank]

/-! ## Entries -/

/-- The body of the entry that a component ends, if it ends one; the entry may have none. -/
def endedBody? (read : List Component) (next : Component) : Option (Option (List Component)) :=
  if next.isDelim ";" then some none
  else if startsAtRule read then next.curlyContent?.map some
  else none

/-- The components of an unfinished entry after one more component that does not end it. -/
def entryStep (read : List Component) (next : Component) : List Component :=
  if read.isEmpty && next.isGap then [] else read ++ [next]

/-- A component ends an entry or goes on with it. -/
theorem entriesFrom_cons (read : List Component) (next : Component) (rest : List Component) :
    entriesFrom read (next :: rest) =
      match endedBody? read next with
      | some body => entriesFrom.finish read body ++ entriesFrom [] rest
      | none => entriesFrom (entryStep read next) rest := by
  rw [entriesFrom, endedBody?, entryStep]
  cases next.isDelim ";" with
  | true => simp only [if_true, ite_self]
  | false =>
      cases read with
      | nil => cases next.isGap <;> rfl
      | cons first more =>
          cases startsAtRule (first :: more) with
          | true => cases next.curlyContent? <;> rfl
          | false => rfl

/-- A component that ends no entry is no semicolon, and no block in curly brackets where the
entry starts with an at-keyword. -/
theorem endless_of_not_ended {read : List Component} {next : Component}
    (goesOn : endedBody? read next = none) :
    next.isDelim ";" = false ∧ (startsAtRule read = true → next.curlyContent? = none) := by
  rw [endedBody?] at goesOn
  cases ends : next.isDelim ";" with
  | true =>
      rw [ends] at goesOn
      cases goesOn
  | false =>
      rw [ends, if_neg Bool.false_ne_true] at goesOn
      refine ⟨rfl, fun starts => ?_⟩
      rw [starts, if_pos rfl, Option.map_eq_none_iff] at goesOn
      exact goesOn

/-- An entry goes on over components that cannot end it. -/
theorem entriesFrom_read {read : List Component} (filled : read ≠ [])
    (components more : List Component)
    (endless : ∀ component ∈ components, component.isDelim ";" = false)
    (flat : startsAtRule read = true → ∀ component ∈ components, component.curlyContent? = none) :
    entriesFrom read (components ++ more) = entriesFrom (read ++ components) more := by
  refine reading_append entriesFrom (fun starts next =>
    next.isDelim ";" = false ∧ (starts = true → next.curlyContent? = none))
    ?step filled components more ?follow
  case follow =>
    exact fun component member =>
      ⟨endless component member, fun starts => flat starts component member⟩
  case step =>
    rintro (_ | ⟨first, more⟩) next rest filled ⟨noEnd, noBlock⟩
    · exact absurd rfl filled
    rw [entriesFrom, noEnd]
    cases starts : startsAtRule (first :: more) with
    | true => simp [noBlock starts]
    | false => simp

/-- White space is passed over between entries and kept within one. -/
theorem entriesFrom_whitespace {component : Component} (isBlank : component.isWhitespace = true)
    (read rest : List Component) :
    entriesFrom read (component :: rest) =
      entriesFrom (if read.isEmpty then [] else read ++ [component]) rest := by
  obtain ⟨offset, text, rfl⟩ := exists_of_isWhitespace isBlank
  have goesOn : endedBody? read (.token offset (.whitespace text)) = none := by
    cases starts : startsAtRule read <;> simp [endedBody?, starts, isDelim, Component.token?,
      curlyContent?]
  have step : entryStep read (.token offset (.whitespace text)) =
      if read.isEmpty then [] else read ++ [.token offset (.whitespace text)] := by
    rw [entryStep, show isGap (.token offset (.whitespace text)) = true from rfl, Bool.and_true]
  rw [entriesFrom_cons, goesOn, step]

/-! ## Values -/

theorem ofComponents_concat (read : List Component) (next : Component) :
    ValueReading.ofComponents (read ++ [next]) = (ValueReading.ofComponents read).step next := by
  rw [ValueReading.ofComponents, List.foldl_append]
  rfl

theorem read_step (value : ValueReading) (next : Component) :
    (value.step next).read = value.read ++ [next] := by
  unfold ValueReading.step
  split
  · rfl
  · split
    · rfl
    · split
      · rfl
      · rfl

theorem read_ofComponents (value : List Component) :
    (ValueReading.ofComponents value).read = value := by
  induction value using List.reverseRecOn with
  | nil => rfl
  | append_singleton read next ih => rw [ofComponents_concat, read_step, ih]

/-- What holds where the exclamation mark of a value is read, and is kept by the word after it
and by gaps, holds of every value that is marked so far. -/
theorem marked_induction (holds : List Component → ValueReading → Prop)
    (bang : ∀ (read : List Component) (next : Component),
      (ValueReading.ofComponents read).marking = .plain → next.isDelim "!" = true →
      holds (read ++ [next]) { ValueReading.ofComponents read with
        marking := .bang, beforeBang := read, read := read ++ [next] })
    (word : ∀ (read : List Component) (next : Component) (value : ValueReading),
      value.marking = .bang → ValueReading.step.isImportant next = true → holds read value →
      holds (read ++ [next]) { value with marking := .important, read := read ++ [next] })
    (gap : ∀ (read : List Component) (next : Component) (value : ValueReading),
      next.isGap = true → holds read value →
      holds (read ++ [next]) { value with read := read ++ [next] })
    (value : List Component) (begun : (ValueReading.ofComponents value).marking ≠ .plain) :
    holds value (ValueReading.ofComponents value) := by
  induction value using List.reverseRecOn with
  | nil => exact absurd rfl begun
  | append_singleton read next ih =>
      rw [ofComponents_concat] at begun ⊢
      unfold ValueReading.step at begun ⊢
      simp only [read_ofComponents] at begun ⊢
      split
      · rename_i isBang
        rw [Bool.and_eq_true, decide_eq_true_eq] at isBang
        exact bang read next isBang.1 isBang.2
      · rename_i noBang
        rw [if_neg noBang] at begun
        split
        · rename_i isWord
          rw [Bool.and_eq_true, decide_eq_true_eq] at isWord
          exact word read next _ isWord.1 isWord.2
            (ih (by rw [isWord.1]; exact Marking.noConfusion))
        · rename_i noWord
          rw [if_neg noWord] at begun
          split
          · rename_i isGap
            rw [if_pos isGap] at begun
            exact gap read next _ isGap (ih begun)
          · rename_i solid
            rw [if_neg solid] at begun
            exact absurd rfl begun

end StyleSieve
