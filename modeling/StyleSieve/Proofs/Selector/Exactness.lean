import StyleSieve.Proofs.Css.Nests
import StyleSieve.Proofs.Selector.DeletedLexemes

/-!
# Exact normalization

Leaving the whole pseudos out of lexemes and out of the components that these make up comes to
the same, at any depth.  So normalizing a selector deletes exactly the whole pseudos from its
components where each deletion takes out a whole pseudo and brings nothing together.
-/

namespace StyleSieve.Selector

open Css Css.Component

/-! ## Components without whole pseudos -/

mutual

/-- A component without the whole pseudos in it, where names are spelled as in a source. -/
def thinIn (source : List Char) : Component → Component
  | .token offset value => .token offset value
  | .block offset opening content =>
      .block offset opening
        (withoutWholePseudos (shownIn source) false 0 (thinEachIn source content))

/-- Some components, each without the whole pseudos in it. -/
def thinEachIn (source : List Char) : List Component → List Component
  | [] => []
  | component :: rest => thinIn source component :: thinEachIn source rest

end

/-- Some components without the whole pseudos among them, at any depth. -/
def thinAllIn (source : List Char) (components : List Component) : List Component :=
  withoutWholePseudos (shownIn source) false 0 (thinEachIn source components)

/-! ## State pseudos of tokens -/

/-- The component of a token with its offset. -/
def asComponent (read : Nat × Token) : Component :=
  .token read.1 read.2

/-- The lexeme of a token with its offset. -/
def asRead (read : Nat × Token) : Nat × Lexeme :=
  (read.1, .token read.2)

/-- Whether some tokens with their offsets are a state pseudo of a source. -/
abbrev IsPseudoIn (source : List Char) (tokens : List (Nat × Token)) : Prop :=
  StatePseudo (fun read => shownIn source (asComponent read)) tokens

theorem isPseudoIn_asRead {source : List Char} {tokens : List (Nat × Token)} :
    StatePseudo (shownRead source) (tokens.map asRead) ↔ IsPseudoIn source tokens :=
  statePseudo_map

theorem isPseudoIn_asComponent {source : List Char} {tokens : List (Nat × Token)} :
    StatePseudo (shownIn source) (tokens.map asComponent) ↔ IsPseudoIn source tokens :=
  statePseudo_map

theorem exists_of_colon {source : List Char} {component : Component}
    (isColon : (shownIn source component).isDelim ":" = true) :
    ∃ read, component = asComponent read ∧ ∀ cause, read.2 ≠ .fault cause := by
  rw [isDelim_shownIn] at isColon
  obtain ⟨offset, rfl⟩ := isDelim_iff.1 isColon
  exact ⟨(offset, .delim ":".toList), rfl, nofun⟩

theorem exists_of_word {source : List Char} {words : List String} {component : Component}
    (isWord : isOneOfWords words (shownIn source component) = true) :
    ∃ read, component = asComponent read ∧ ∀ cause, read.2 ≠ .fault cause := by
  cases component with
  | token offset value =>
      cases value with
      | ident name => exact ⟨(offset, .ident name), rfl, nofun⟩
      | _ => cases isWord
  | block => cases isWord

/-- The components of a state pseudo are tokens, none of them a fault. -/
theorem exists_tokens {source : List Char} {pseudo : List Component}
    (isPseudo : StatePseudo (shownIn source) pseudo) :
    ∃ tokens : List (Nat × Token), pseudo = tokens.map asComponent ∧
      ∀ read ∈ tokens, ∀ cause, read.2 ≠ .fault cause := by
  cases isPseudo with
  | ofClass isColon isClass =>
      obtain ⟨colon, rfl, wholeColon⟩ := exists_of_colon isColon
      obtain ⟨name, rfl, wholeName⟩ := exists_of_word isClass
      exact ⟨[colon, name], rfl, by simp [wholeColon, wholeName]⟩
  | ofElement isColon isSecond isElement =>
      obtain ⟨first, rfl, wholeFirst⟩ := exists_of_colon isColon
      obtain ⟨second, rfl, wholeSecond⟩ := exists_of_colon isSecond
      obtain ⟨name, rfl, wholeName⟩ := exists_of_word isElement
      exact ⟨[first, second, name], rfl, by simp [wholeFirst, wholeSecond, wholeName]⟩

/-- The lexemes of a state pseudo are tokens. -/
theorem exists_reads {source : List Char} {pseudo : List (Nat × Lexeme)}
    (isPseudo : StatePseudo (shownRead source) pseudo) :
    ∃ tokens : List (Nat × Token), pseudo = tokens.map asRead := by
  have image : StatePseudo (shownIn source) (pseudo.map ofRead) := statePseudo_map.2 isPseudo
  obtain ⟨tokens, same, whole⟩ := exists_tokens image
  refine ⟨tokens, ?_⟩
  clear image isPseudo
  induction tokens generalizing pseudo with
  | nil => exact List.map_eq_nil_iff.1 same
  | cons token more ih =>
      obtain ⟨⟨offset, lexeme⟩, rest, rfl, first, others⟩ := List.map_eq_cons_iff.1 same
      obtain ⟨wholeFirst, wholeRest⟩ := List.forall_mem_cons.1 whole
      rw [ih others wholeRest, List.map_cons]
      cases lexeme with
      | token value => cases first; rfl
      | opening opening => cases first
      | closer closer =>
          cases token
          cases first
          exact absurd rfl (wholeFirst _)

/-! ### Tokens among components -/

theorem thinEachIn_append (source : List Char) (tokens : List (Nat × Token))
    (others : List Component) :
    thinEachIn source (tokens.map asComponent ++ others) =
      tokens.map asComponent ++ thinEachIn source others := by
  induction tokens with
  | nil => rfl
  | cons token more ih => exact congrArg (asComponent token :: ·) ih

theorem exists_of_thinEachIn {source : List Char} {tokens : List (Nat × Token)}
    {components rest : List Component}
    (thinned : thinEachIn source components = tokens.map asComponent ++ rest) :
    ∃ others, components = tokens.map asComponent ++ others ∧ thinEachIn source others = rest := by
  induction tokens generalizing components with
  | nil => exact ⟨components, rfl, thinned⟩
  | cons token more ih =>
      cases components with
      | nil => cases thinned
      | cons component later =>
          obtain ⟨first, others⟩ := List.cons.inj thinned
          cases component with
          | token offset value =>
              obtain ⟨last, rfl, same⟩ := ih others
              exact ⟨last, congrArg (· :: _) first, same⟩
          | block => cases first

theorem exists_of_nests_tokens {inside : Option Char} {tokens : List (Nat × Token)}
    {others : List Component} {lexemes : List (Nat × Lexeme)}
    (nests : Nests inside (tokens.map asComponent ++ others) lexemes)
    (whole : ∀ read ∈ tokens, ∀ cause, read.2 ≠ .fault cause) :
    ∃ more, lexemes = tokens.map asRead ++ more ∧ Nests inside others more := by
  induction tokens generalizing lexemes with
  | nil => exact ⟨lexemes, rfl, nests⟩
  | cons token rest ih =>
      obtain ⟨wholeFirst, wholeRest⟩ := List.forall_mem_cons.1 whole
      obtain ⟨offset, value⟩ := token
      cases nests with
      | token later =>
          obtain ⟨more, rfl, nests⟩ := ih later wholeRest
          exact ⟨more, rfl, nests⟩
      | stray => exact absurd rfl (wholeFirst _)

theorem exists_of_nests_reads {inside : Option Char} {tokens : List (Nat × Token)}
    {components : List Component} {more : List (Nat × Lexeme)}
    (nests : Nests inside components (tokens.map asRead ++ more)) :
    ∃ others, components = tokens.map asComponent ++ others ∧ Nests inside others more := by
  induction tokens generalizing components with
  | nil => exact ⟨components, rfl, nests⟩
  | cons token rest ih =>
      cases nests with
      | token later =>
          obtain ⟨others, rfl, nests⟩ := ih later
          exact ⟨others, rfl, nests⟩

/-! ## Whole pseudos among nested lexemes -/

/-- Components start with a state pseudo only where their lexemes do. -/
theorem wholePseudoLength_of_nests {source : List Char} {inside : Option Char}
    {components : List Component} {lexemes : List (Nat × Lexeme)}
    (nests : Nests inside components lexemes) {afterColon : Bool}
    (noPseudo : wholePseudoLength (shownRead source) afterColon lexemes = 0) :
    wholePseudoLength (shownIn source) afterColon (thinEachIn source components) = 0 := by
  rw [wholePseudoLength] at noPseudo ⊢
  split
  · rfl
  · rename_i before
    rw [if_neg before] at noPseudo
    by_contra starts
    obtain ⟨pseudo, rest, split, isPseudo⟩ := exists_statePseudo starts
    obtain ⟨tokens, rfl, whole⟩ := exists_tokens isPseudo
    obtain ⟨others, rfl, _⟩ := exists_of_thinEachIn split
    obtain ⟨more, rfl, _⟩ := exists_of_nests_tokens nests whole
    have inLexemes := isPseudoIn_asRead.2 (isPseudoIn_asComponent.1 isPseudo)
    rw [inLexemes.length more] at noPseudo
    cases tokens with
    | nil => cases isPseudo
    | cons => cases noPseudo

/-- A closer belongs to no state pseudo. -/
theorem startsApart_closer (source : List Char) (place : Nat) (closer : Char)
    (rest : List (Nat × Lexeme)) :
    StartsApart (shownRead source) ((place, .closer closer) :: rest) := by
  intro read isHead pseudo isPseudo member
  cases isHead
  obtain ⟨tokens, rfl⟩ := exists_reads isPseudo
  obtain ⟨token, _, same⟩ := List.mem_map.1 member
  cases same

theorem withoutWholePseudos_closer (source : List Char) (place : Nat) (closer : Char)
    (rest : List (Nat × Lexeme)) :
    withoutWholePseudos (shownRead source) false 0 ((place, .closer closer) :: rest) =
      (place, .closer closer) :: withoutWholePseudos (shownRead source) false 0 rest := by
  rw [withoutWholePseudos_cons _
    (wholePseudoLength_of_apart (startsApart_closer source place closer rest) false)]
  rfl

/-- The lexemes without the whole pseudos make up the components without them. -/
theorem nests_withoutWholePseudos {inside : Option Char} {components : List Component}
    {lexemes : List (Nat × Lexeme)} (nests : Nests inside components lexemes)
    (source : List Char) (afterColon : Bool) :
    Nests inside
      (withoutWholePseudos (shownIn source) afterColon 0 (thinEachIn source components))
      (withoutWholePseudos (shownRead source) afterColon 0 lexemes) := by
  -- on the number of lexemes: a pseudo-class is skipped as a whole, and a block is entered
  induction length : lexemes.length using Nat.strongRecOn
    generalizing inside components lexemes afterColon with
  | ind n ih =>
      by_cases noPseudo : wholePseudoLength (shownRead source) afterColon lexemes = 0
      · have noPseudoIn := wholePseudoLength_of_nests nests noPseudo
        cases nests with
        | nil => exact .nil
        | token later =>
            rw [thinEachIn, thinIn] at noPseudoIn ⊢
            rw [withoutWholePseudos_cons _ noPseudo, withoutWholePseudos_cons _ noPseudoIn]
            exact .token (ih _ (by simp [← length]) later _ rfl)
        | stray strays later =>
            rw [thinEachIn, thinIn] at noPseudoIn ⊢
            rw [withoutWholePseudos_cons _ noPseudo, withoutWholePseudos_cons _ noPseudoIn]
            exact .stray strays (ih _ (by simp [← length]) later _ rfl)
        | @block _ _ place opening content rest inner lexemes isContent later =>
            rw [List.length_cons, List.length_append, List.length_cons] at length
            rw [thinEachIn, thinIn] at noPseudoIn ⊢
            rw [withoutWholePseudos_cons _ noPseudo, withoutWholePseudos_cons _ noPseudoIn,
              withoutWholePseudos_append_apart (startsApart_closer source place _ lexemes),
              withoutWholePseudos_closer]
            exact .block (ih _ (by omega) isContent _ rfl) (ih _ (by omega) later _ rfl)
      · rw [wholePseudoLength] at noPseudo
        split at noPseudo
        · exact absurd rfl noPseudo
        · rename_i before
          rw [Bool.not_eq_true] at before
          obtain ⟨pseudo, more, rfl, isPseudo⟩ := exists_statePseudo noPseudo
          obtain ⟨tokens, rfl⟩ := exists_reads isPseudo
          obtain ⟨others, rfl, later⟩ := exists_of_nests_reads nests
          have inComponents := isPseudoIn_asComponent.2 (isPseudoIn_asRead.1 isPseudo)
          have shorter : more.length < n := by
            rw [← length, List.length_append]
            cases tokens with
            | nil => cases isPseudo
            | cons => simp
          rw [thinEachIn_append, before, withoutWholePseudos_statePseudo isPseudo,
            withoutWholePseudos_statePseudo inComponents]
          exact ih _ shorter later _ rfl

/-! ## Nesting without whole pseudos -/

theorem openAfter_tokens (tokens : List (Nat × Token)) (opened : List Opening) :
    ((tokens.map asRead).map (·.2)).foldl Lexeme.openAfter opened = opened := by
  induction tokens with
  | nil => rfl
  | cons token rest ih => exact ih

/-- Leaving whole pseudos out opens and closes nothing. -/
theorem openAfter_withoutWholePseudos (source : List Char) (afterColon : Bool)
    (lexemes : List (Nat × Lexeme)) (opened : List Opening) :
    ((withoutWholePseudos (shownRead source) afterColon 0 lexemes).map (·.2)).foldl
        Lexeme.openAfter opened =
      (lexemes.map (·.2)).foldl Lexeme.openAfter opened := by
  induction afterColon, lexemes using withoutWholePseudos_induction (shownRead source)
    generalizing opened with
  | nil => rfl
  | keep afterColon first rest noPseudo ih =>
      rw [withoutWholePseudos_cons _ noPseudo, List.map_cons, List.foldl_cons, ih]
      rfl
  | drop pseudo rest isPseudo ih =>
      obtain ⟨tokens, rfl⟩ := exists_reads isPseudo
      rw [withoutWholePseudos_statePseudo isPseudo, ih, List.map_append, List.foldl_append,
        openAfter_tokens]

theorem closersOf_withoutWholePseudos (source : List Char) (lexemes : List (Nat × Lexeme)) :
    closersOf (Nested.steps {} (withoutWholePseudos (shownRead source) false 0 lexemes)).blocks =
      closersOf (Nested.steps {} lexemes).blocks := by
  have image (blocks : List OpenBlock) : closersOf blocks =
      (blocks.map (·.opening)).map fun opening => (0, .closer opening.closer) := by
    rw [List.map_map]
    rfl
  rw [image, image, Nested.openings_steps, Nested.openings_steps, openAfter_withoutWholePseudos]

theorem startsApart_closersOf (source : List Char) (blocks : List OpenBlock) :
    StartsApart (shownRead source) (closersOf blocks) := by
  cases blocks with
  | nil => nofun
  | cons block outer => exact startsApart_closer source 0 _ _

theorem withoutWholePseudos_closersOf (source : List Char) (blocks : List OpenBlock) :
    withoutWholePseudos (shownRead source) false 0 (closersOf blocks) = closersOf blocks := by
  induction blocks with
  | nil => rfl
  | cons block outer ih =>
      rw [closersOf, List.map_cons, withoutWholePseudos_closer, ← closersOf, ih]

/-- Whole pseudos may be left out before nesting or after it. -/
theorem nest_withoutWholePseudos (source : List Char) (lexemes : List (Nat × Lexeme)) :
    nest [] [] (withoutWholePseudos (shownRead source) false 0 lexemes) =
      thinAllIn source (nest [] [] lexemes) := by
  have nests := nests_withoutWholePseudos (nests_nest lexemes) source false
  rw [withoutWholePseudos_append_apart (startsApart_closersOf source _),
    withoutWholePseudos_closersOf, ← closersOf_withoutWholePseudos source] at nests
  rw [← nest_closersOf]
  exact nests.nest_eq

/-! ## Normalized selectors -/

/-- Whether normalizing a selector deletes exactly the whole pseudos from its components, at any
depth, and leaves every other token as it is. -/
def DeletesExactly (selector : String) : Prop :=
  tokensAll (components (normalize selector).toList) =
    tokensAll (thinAllIn (normalizeNewlines selector.toList) (components selector.toList))

instance (selector : String) : Decidable (DeletesExactly selector) :=
  inferInstanceAs (Decidable (_ = _))

/-- Normalizing deletes exactly the whole pseudos where all that it deletes from the text is
whole and brings nothing together. -/
theorem normalize_deletesExactly (selector : String)
    (cuts : ∀ deletion ∈ deletions selector.toList, deletion.IsWhole ∧ deletion.IsApart) :
    DeletesExactly selector := by
  have divided (lexemes : List (Nat × Lexeme)) :
      tokensAll (nest [] [] lexemes) = nest [] [] (divideAll Token.parts lexemes) := by
    rw [tokensAll_eq_dividedAll]
    exact (nest_divideAll Token.parts (fun _ => rfl) [] [] lexemes).symm
  have here : (normalizeNewlines selector.toList).drop 0 = normalizeNewlines selector.toList :=
    List.drop_zero
  have exact := divideAll_withoutWholePseudos here cuts
  rw [DeletesExactly, normalize, String.toList_ofList, components, components,
    ← nest_withoutWholePseudos, divided, divided, exact]

theorem normalize_deletesExactly_nested :
    let selector := "a:hover > :not(b::before) /*:c*/ d\\:e:focus[title=\":f\"]:lang(:g:link"
    (∀ deletion ∈ deletions selector.toList, deletion.IsWhole ∧ deletion.IsApart) ∧
      normalize selector = "a > :not(b) /*:c*/ d\\:e[title=\":f\"]:lang(:g" ∧
        DeletesExactly selector := by
  intro selector
  have cuts : ∀ deletion ∈ deletions selector.toList, deletion.IsWhole ∧ deletion.IsApart := by
    decide +kernel
  exact ⟨cuts, by decide +kernel, normalize_deletesExactly selector cuts⟩

/-- Whether a selector has a fault or normalizing it deletes exactly the whole pseudos. -/
def DeletesExactlyOrFaulty (selector : String) : Prop :=
  areFaultless (components selector.toList) = true → DeletesExactly selector

instance (selector : String) : Decidable (DeletesExactlyOrFaulty selector) :=
  inferInstanceAs (Decidable (_ → _))

/-- Selectors without faults where more or other than whole pseudos goes: the start of a longer
name, an escaped colon, a string, a comment, the name of a call, a name after two colons, and
the pseudos between a range of code points, a percentage and a line end. -/
theorem textual_not_deletesExactly :
    ¬DeletesExactlyOrFaulty "a:hovering" ∧ ¬DeletesExactlyOrFaulty "a:focus-within" ∧
      ¬DeletesExactlyOrFaulty ".x\\:hover" ∧ ¬DeletesExactlyOrFaulty "[title=\":hover\"]" ∧
        ¬DeletesExactlyOrFaulty "/*:hover*/a" ∧ ¬DeletesExactlyOrFaulty "a:hover(b)" ∧
          ¬DeletesExactlyOrFaulty "a::hover" ∧ ¬DeletesExactlyOrFaulty "u:hover+a" ∧
            ¬DeletesExactlyOrFaulty "1:hover%" ∧ ¬DeletesExactlyOrFaulty "a\r:hover\nb" := by
  decide +kernel

end StyleSieve.Selector
