import StyleSieve.Selector.Normal
import StyleSieve.Selector.Parser

/-!
# Selectors without their state pseudos

Normalizing a selector is meant to take whole pseudos out of its compound
selectors.  This module states that meaning on component values and shows what
it does to reading: as long as every compound selector keeps something else, the
thinner text is read as the same chain of compound selectors, each with some of
its conditions left out.
-/

namespace StyleSieve.Selector

open Css

/-! ## State pseudos among components -/

/-- The state pseudos that stand after one colon. -/
def stateClasses : List String :=
  ["link", "visited", "hover", "active", "focus", "enabled", "disabled", "checked",
   "indeterminate", "before", "after"]

/-- The state pseudos that stand after two colons. -/
def stateElements : List String :=
  ["first-line", "first-letter", "selection", "before", "after"]

theorem mem_statePseudos (text : String) :
    text ∈ statePseudos ↔
      (∃ name ∈ stateClasses, text = ":" ++ name) ∨
        ∃ name ∈ stateElements, text = "::" ++ name := by
  have split : statePseudos.Perm
      (stateClasses.map (":" ++ ·) ++ stateElements.map ("::" ++ ·)) := by decide
  rw [split.mem_iff, List.mem_append, List.mem_map, List.mem_map]
  simp only [eq_comm (b := text)]

/-- Whether a component is one of some words. -/
def isOneOfWords (words : List String) (component : Component) : Bool :=
  (wordOf? component).any fun name => words.contains (String.ofList name)

/-- Whether a component stands between compound selectors. -/
def separates (component : Component) : Bool :=
  component.isGap || (combinatorOf? component).isSome || component.isDelim ","

section Thinning

variable {ι : Type} (view : ι → Component)

/-- The number of components of the state pseudo that a list starts with, zero
if it starts with none. -/
def statePseudoLength : List ι → Nat
  | first :: second :: rest =>
      if (view first).isDelim ":" then
        if isOneOfWords stateClasses (view second) then 2
        else if (view second).isDelim ":" &&
            (rest.head?.map view).any (isOneOfWords stateElements) then 3
        else 0
      else 0
  | _ => 0

/-- The components after the first `skip` ones without the state pseudos among
them. -/
def withoutStatePseudos (skip : Nat) : List ι → List ι
  | [] => []
  | first :: rest =>
      match skip with
      | skip + 1 => withoutStatePseudos skip rest
      | 0 =>
          match statePseudoLength view (first :: rest) with
          | length + 1 => withoutStatePseudos length rest
          | 0 => first :: withoutStatePseudos 0 rest

/-- Whether every compound selector among the components after the first `skip`
ones holds something besides state pseudos, if it holds any; `kept` and `dropped`
tell what has been seen of the first one. -/
def keepsCompounds (skip : Nat) (kept dropped : Bool) : List ι → Bool
  | [] => kept || !dropped
  | first :: rest =>
      match skip with
      | skip + 1 => keepsCompounds skip kept dropped rest
      | 0 =>
          match statePseudoLength view (first :: rest) with
          | length + 1 => keepsCompounds length kept true rest
          | 0 =>
              if separates (view first) then
                (kept || !dropped) && keepsCompounds 0 false false rest
              else keepsCompounds 0 true dropped rest

theorem statePseudoLength_map {κ : Type} (image : ι → κ) (viewImage : κ → Component)
    (same : ∀ item, viewImage (image item) = view item) (items : List ι) :
    statePseudoLength viewImage (items.map image) = statePseudoLength view items := by
  match items with
  | [] => rfl
  | [_] => rfl
  | first :: second :: rest =>
      cases rest with
      | nil =>
          simp only [List.map_cons, List.map_nil, statePseudoLength, same]
          rfl
      | cons third rest =>
          simp only [List.map_cons, statePseudoLength, same, List.head?_cons, Option.map_some]
          rfl

theorem withoutStatePseudos_map {κ : Type} (image : ι → κ) (viewImage : κ → Component)
    (same : ∀ item, viewImage (image item) = view item) (skip : Nat) (items : List ι) :
    withoutStatePseudos viewImage skip (items.map image) =
      (withoutStatePseudos view skip items).map image := by
  induction items generalizing skip with
  | nil => rfl
  | cons first rest ih =>
      have length := statePseudoLength_map view image viewImage same (first :: rest)
      cases skip with
      | succ skip => exact ih skip
      | zero =>
          rw [List.map_cons] at length ⊢
          rw [withoutStatePseudos, withoutStatePseudos, length]
          cases statePseudoLength view (first :: rest) with
          | zero => simp only [List.map_cons, ih]
          | succ length => exact ih length

theorem keepsCompounds_map {κ : Type} (image : ι → κ) (viewImage : κ → Component)
    (same : ∀ item, viewImage (image item) = view item) (skip : Nat) (kept dropped : Bool)
    (items : List ι) :
    keepsCompounds viewImage skip kept dropped (items.map image) =
      keepsCompounds view skip kept dropped items := by
  induction items generalizing skip kept dropped with
  | nil => rfl
  | cons first rest ih =>
      have length := statePseudoLength_map view image viewImage same (first :: rest)
      cases skip with
      | succ skip => exact ih skip kept dropped
      | zero =>
          rw [List.map_cons] at length ⊢
          rw [keepsCompounds, keepsCompounds, length]
          cases statePseudoLength view (first :: rest) with
          | zero => simp only [same, ih]
          | succ length => exact ih length kept true

theorem withoutStatePseudos_skip (skip : Nat) (items : List ι) :
    withoutStatePseudos view skip items = withoutStatePseudos view 0 (items.drop skip) := by
  induction items generalizing skip with
  | nil => simp [withoutStatePseudos]
  | cons first rest ih =>
      cases skip with
      | zero => rfl
      | succ skip => rw [withoutStatePseudos, ih, List.drop_succ_cons]

theorem keepsCompounds_skip (skip : Nat) (kept dropped : Bool) (items : List ι) :
    keepsCompounds view skip kept dropped items =
      keepsCompounds view 0 kept dropped (items.drop skip) := by
  induction items generalizing skip with
  | nil => simp [keepsCompounds]
  | cons first rest ih =>
      cases skip with
      | zero => rfl
      | succ skip => rw [keepsCompounds, ih, List.drop_succ_cons]

end Thinning

/-- The atoms of a selector without its state pseudos. -/
abbrev thin (atoms : List Atom) : List Atom :=
  withoutStatePseudos Atom.component 0 atoms

/-- Whether every compound selector among some atoms holds something besides
state pseudos, if it holds any. -/
abbrev Keeps (kept dropped : Bool) (atoms : List Atom) : Prop :=
  keepsCompounds Atom.component 0 kept dropped atoms = true

/-! ### Steps of thinning -/

theorem isDelim_iff {text : String} {component : Component} :
    component.isDelim text = true ↔ ∃ offset, component = .token offset (.delim text.toList) := by
  cases component with
  | token offset token => simp [Component.isDelim, Component.token?]
  | block => simp [Component.isDelim, Component.token?]

theorem wordOf?_eq_some {component : Component} {name : List Char} :
    wordOf? component = some name ↔ ∃ offset, component = .token offset (.ident name) := by
  unfold wordOf?
  split
  · simp
  · rename_i other
    simp only [reduceCtorEq, false_iff, not_exists]
    exact fun offset same => other offset name same

theorem separates_of_colon {component : Component} (colon : component.isDelim ":" = true) :
    separates component = false := by
  obtain ⟨offset, rfl⟩ := isDelim_iff.mp colon
  rfl

theorem not_colon_of_separates {component : Component}
    (isSeparator : separates component = true) : component.isDelim ":" = false := by
  cases isColon : component.isDelim ":" with
  | false => rfl
  | true =>
      rw [separates_of_colon isColon] at isSeparator
      cases isSeparator

theorem separates_of_word {component : Component} {name : List Char}
    (word : wordOf? component = some name) : separates component = false := by
  obtain ⟨offset, rfl⟩ := wordOf?_eq_some.mp word
  rfl

theorem not_colon_of_word {component : Component} {name : List Char}
    (word : wordOf? component = some name) : component.isDelim ":" = false := by
  obtain ⟨offset, rfl⟩ := wordOf?_eq_some.mp word
  rfl

section Steps

variable {first : Atom} {rest : List Atom} {kept dropped : Bool}

theorem statePseudoLength_of_not_colon (notColon : first.component.isDelim ":" = false) :
    statePseudoLength Atom.component (first :: rest) = 0 := by
  cases rest with
  | nil => rfl
  | cons => simp [statePseudoLength, notColon]

theorem thin_cons (noPseudo : statePseudoLength Atom.component (first :: rest) = 0) :
    thin (first :: rest) = first :: thin rest := by
  rw [thin, withoutStatePseudos, noPseudo]

theorem thin_cons_of_not_colon (notColon : first.component.isDelim ":" = false) :
    thin (first :: rest) = first :: thin rest :=
  thin_cons (statePseudoLength_of_not_colon notColon)

theorem thin_of_statePseudo {length : Nat}
    (isPseudo : statePseudoLength Atom.component (first :: rest) = length + 1) :
    thin (first :: rest) = thin (rest.drop length) := by
  rw [thin, withoutStatePseudos, isPseudo]
  exact withoutStatePseudos_skip ..

theorem keeps_cons (noPseudo : statePseudoLength Atom.component (first :: rest) = 0)
    (inside : separates first.component = false) :
    Keeps kept dropped (first :: rest) ↔ Keeps true dropped rest := by
  rw [Keeps, keepsCompounds, noPseudo]
  simp [inside]

theorem keeps_of_statePseudo {length : Nat}
    (isPseudo : statePseudoLength Atom.component (first :: rest) = length + 1) :
    Keeps kept dropped (first :: rest) ↔ Keeps kept true (rest.drop length) := by
  rw [Keeps, keepsCompounds, isPseudo, Keeps, ← keepsCompounds_skip]

theorem keeps_separator (isSeparator : separates first.component = true) :
    Keeps kept dropped (first :: rest) ↔
      (kept = true ∨ dropped = false) ∧ Keeps false false rest := by
  rw [Keeps, keepsCompounds, statePseudoLength_of_not_colon (not_colon_of_separates isSeparator)]
  simp [isSeparator]

theorem thin_append {taken : List Atom}
    (notColon : ∀ atom ∈ taken, atom.component.isDelim ":" = false) :
    thin (taken ++ rest) = taken ++ thin rest := by
  induction taken with
  | nil => rfl
  | cons next more ih =>
      rw [List.forall_mem_cons] at notColon
      rw [List.cons_append, thin_cons_of_not_colon notColon.1, ih notColon.2, List.cons_append]

theorem keeps_append {taken : List Atom}
    (notColon : ∀ atom ∈ taken, atom.component.isDelim ":" = false)
    (inside : ∀ atom ∈ taken, separates atom.component = false)
    (keeps : Keeps kept dropped (taken ++ rest)) :
    Keeps (kept || !taken.isEmpty) dropped rest := by
  induction taken generalizing kept with
  | nil => simpa using keeps
  | cons next more ih =>
      rw [List.forall_mem_cons] at notColon inside
      rw [List.cons_append,
        keeps_cons (statePseudoLength_of_not_colon notColon.1) inside.1] at keeps
      simpa using ih notColon.2 inside.2 keeps

theorem keeps_append_separators {taken : List Atom}
    (areSeparators : ∀ atom ∈ taken, separates atom.component = true)
    (keeps : Keeps false false (taken ++ rest)) : Keeps false false rest := by
  induction taken with
  | nil => exact keeps
  | cons next more ih =>
      rw [List.forall_mem_cons] at areSeparators
      exact ih areSeparators.2 ((keeps_separator areSeparators.1).mp keeps).2

end Steps

end StyleSieve.Selector
