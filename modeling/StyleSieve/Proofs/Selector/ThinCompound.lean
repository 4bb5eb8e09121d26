import Mathlib.Data.List.TakeWhile
import StyleSieve.Proofs.Selector.Thinning

/-!
# Compound selectors without their state pseudos

A compound selector that keeps a condition besides its state pseudos is read from
thinner atoms as well, with some of its conditions left out.
-/

namespace StyleSieve.Selector

open Css

/-! ## Simple selectors -/

theorem readClass_eq_ok {atoms rest : List Atom} {piece : Piece}
    (read : readClass atoms = (.ok piece, rest)) :
    ∃ word name, atoms = word :: rest ∧ wordOf? word.component = some name ∧
      piece = .simple (.className name) := by
  cases atoms with
  | nil => cases read
  | cons word others =>
      cases isWord : wordOf? word.component with
      | none => simp [readClass, isWord, refuse] at read
      | some name =>
          simp only [readClass, isWord, Prod.mk.injEq, Except.ok.injEq] at read
          obtain ⟨rfl, rfl⟩ := read
          exact ⟨word, name, rfl, isWord, rfl⟩

theorem readPseudoElement_eq_ok {atoms rest : List Atom} {piece : Piece}
    (read : readPseudoElement atoms = (.ok piece, rest)) :
    ∃ word name, atoms = word :: rest ∧ wordOf? word.component = some name ∧
      String.ofList (lowerAscii name) ∈ pseudoElements ∧ piece = .pseudoElement := by
  cases atoms with
  | nil => cases read
  | cons word others =>
      cases isWord : wordOf? word.component with
      | none => simp [readPseudoElement, isWord, refuse] at read
      | some name =>
          simp only [readPseudoElement, isWord] at read
          split at read
          · rename_i known
            cases read
            exact ⟨word, name, rfl, isWord, List.contains_iff_mem.mp known, rfl⟩
          · cases read

/-- A state pseudo that is known as a pseudo-element after two colons is one after
two colons. -/
theorem mem_stateElements {name : List Char}
    (isClass : String.ofList name ∈ stateClasses)
    (known : String.ofList (lowerAscii name) ∈ pseudoElements) :
    String.ofList name ∈ stateElements := by
  have both : ∀ text ∈ stateClasses,
      String.ofList (lowerAscii text.toList) ∈ pseudoElements → text ∈ stateElements := by
    decide
  have same := both _ isClass
  rw [String.toList_ofList] at same
  exact same known

/-- How the atoms of a simple selector or a pseudo-element are spelled: what is
read of them does not depend on what follows. -/
inductive Spells (piece : Piece) : List Atom → Prop
  | plain (first : Atom) (more : List Atom)
      (reads : ∀ rest, readPiece (first :: (more ++ rest)) = (.ok piece, rest))
      (notColon : ∀ atom ∈ first :: more, atom.component.isDelim ":" = false)
      (inside : ∀ atom ∈ first :: more, separates atom.component = false) :
      Spells piece (first :: more)
  | pseudo (colon next : Atom)
      (reads : ∀ rest, readPiece (colon :: next :: rest) = (.ok piece, rest))
      (isColon : colon.component.isDelim ":" = true)
      (notColon : next.component.isDelim ":" = false)
      (inside : separates next.component = false) :
      Spells piece [colon, next]
  | element (colon second word : Atom) (name : List Char)
      (reads : ∀ rest, readPiece (colon :: second :: word :: rest) = (.ok piece, rest))
      (isColon : colon.component.isDelim ":" = true)
      (isSecond : second.component.isDelim ":" = true)
      (isWord : wordOf? word.component = some name)
      (known : String.ofList (lowerAscii name) ∈ pseudoElements) :
      Spells piece [colon, second, word]

theorem readPiece_colon {colon : Atom} (isColon : colon.component.isDelim ":" = true)
    (rest : List Atom) : readPiece (colon :: rest) = readPseudo rest := by
  obtain ⟨offset, component⟩ := isDelim_iff.mp isColon
  simp [readPiece, component, Component.isDelim, Component.token?]

theorem spells_of_readPseudo {colon : Atom} {atoms rest : List Atom} {piece : Piece}
    (isColon : colon.component.isDelim ":" = true)
    (read : readPseudo atoms = (.ok piece, rest)) :
    ∃ taken, atoms = taken ++ rest ∧ Spells piece (colon :: taken) := by
  cases atoms with
  | nil => cases read
  | cons next others =>
      cases isWord : wordOf? next.component with
      | some name =>
          simp only [readPseudo, isWord] at read
          have same : others = rest := by
            split at read <;> exact congrArg Prod.snd read
          subst same
          refine ⟨[next], rfl, .pseudo colon next ?_ isColon (not_colon_of_word isWord)
            (separates_of_word isWord)⟩
          intro later
          rw [readPiece_colon isColon]
          simp only [readPseudo, isWord]
          split at read
          · rename_i old
            rw [if_pos old, ← (Prod.mk.inj read).1]
          · rename_i new
            rw [if_neg new, ← (Prod.mk.inj read).1]
      | none =>
          -- without a word, a second colon or a call follows
          cases isSecond : next.component.isDelim ":" with
          | true =>
              simp only [readPseudo, isWord, isSecond, if_true] at read
              obtain ⟨last, name, rfl, lastIsWord, known, rfl⟩ := readPseudoElement_eq_ok read
              refine ⟨[next, last], rfl,
                .element colon next last name ?_ isColon isSecond lastIsWord known⟩
              intro later
              rw [readPiece_colon isColon]
              simp [readPseudo, readPseudoElement, isWord, isSecond, lastIsWord, known]
          | false =>
              cases next with
              | plain component =>
                  simp [readPseudo, isWord, isSecond, Atom.meaning?, refuse] at read
              | call offset name arguments meaning =>
                  have same : others = rest := congrArg Prod.snd read
                  subst same
                  refine ⟨[.call offset name arguments meaning], rfl,
                    .pseudo colon _ ?_ isColon isSecond rfl⟩
                  intro later
                  have means := congrArg Prod.fst read
                  rw [readPiece_colon isColon]
                  exact Prod.ext means rfl

/-- A simple selector or a pseudo-element is read from atoms of its own. -/
theorem spells_of_readPiece {atoms rest : List Atom} {piece : Piece}
    (read : readPiece atoms = (.ok piece, rest)) (something : piece ≠ .nothing) :
    ∃ taken, atoms = taken ++ rest ∧ Spells piece taken := by
  cases atoms with
  | nil =>
      cases read
      exact absurd rfl something
  | cons first others =>
      simp only [readPiece] at read
      -- a hash, a block in brackets, a class and a pseudo-class are told by what they start with
      split at read
      · rename_i offset name isHash
        cases read
        exact ⟨[first], rfl, .plain first [] (by simp [readPiece, isHash])
          (by simp [isHash, Component.isDelim, Component.token?])
          (by simp [isHash]; rfl)⟩
      · rename_i offset content isBlock
        obtain ⟨means, rfl⟩ := Prod.mk.inj read
        exact ⟨[first], rfl, .plain first [] (by simp [readPiece, isBlock, means])
          (by simp [isBlock, Component.isDelim, Component.token?])
          (by simp [isBlock]; rfl)⟩
      · split at read
        · rename_i isPoint
          obtain ⟨word, name, rfl, isWord, rfl⟩ := readClass_eq_ok read
          obtain ⟨offset, component⟩ := isDelim_iff.mp isPoint
          refine ⟨[first, word], rfl, .plain first [word] ?_ ?_ ?_⟩
          · intro rest
            simp [readPiece, readClass, component, isWord, Component.isDelim, Component.token?]
          · intro atom member
            cases member with
            | head => rw [component]; rfl
            | tail _ member =>
                obtain rfl := List.mem_singleton.mp member
                exact not_colon_of_word isWord
          · intro atom member
            cases member with
            | head => rw [component]; rfl
            | tail _ member =>
                obtain rfl := List.mem_singleton.mp member
                exact separates_of_word isWord
        · split at read
          · rename_i isColon
            obtain ⟨taken, rfl, spelled⟩ := spells_of_readPseudo isColon read
            exact ⟨first :: taken, rfl, spelled⟩
          · cases read
            exact absurd rfl something

theorem Spells.reads {piece : Piece} {taken : List Atom} (spelled : Spells piece taken)
    (rest : List Atom) : readPiece (taken ++ rest) = (.ok piece, rest) := by
  cases spelled with
  | plain first more reads => exact reads rest
  | pseudo colon next reads => exact reads rest
  | element colon second word name reads => exact reads rest

/-- Atoms that are left out before whatever follows. -/
structure LeftOut (taken : List Atom) : Prop where
  thin_append : ∀ rest, thin (taken ++ rest) = thin rest
  keeps : ∀ {rest kept dropped}, Keeps kept dropped (taken ++ rest) → Keeps kept true rest

/-- Atoms that stay before whatever follows. -/
structure StaysIn (taken : List Atom) : Prop where
  thin_append : ∀ rest, thin (taken ++ rest) = taken ++ thin rest
  keeps : ∀ {rest kept dropped}, Keeps kept dropped (taken ++ rest) → Keeps true dropped rest

theorem LeftOut.of_length {first : Atom} {more : List Atom}
    (isPseudo : ∀ rest,
      statePseudoLength Atom.component (first :: (more ++ rest)) = more.length + 1) :
    LeftOut (first :: more) := by
  constructor
  · intro rest
    rw [List.cons_append, thin_of_statePseudo (isPseudo rest), List.drop_left]
  · intro rest kept dropped keeps
    rw [List.cons_append, keeps_of_statePseudo (isPseudo rest), List.drop_left] at keeps
    exact keeps

theorem StaysIn.of_plain {first : Atom} {more : List Atom}
    (notColon : ∀ atom ∈ first :: more, atom.component.isDelim ":" = false)
    (inside : ∀ atom ∈ first :: more, separates atom.component = false) :
    StaysIn (first :: more) := by
  constructor
  · exact fun rest => Selector.thin_append notColon
  · intro rest kept dropped keeps
    simpa using keeps_append notColon inside keeps

theorem StaysIn.cons {first : Atom} {more : List Atom}
    (noPseudo : ∀ rest, statePseudoLength Atom.component (first :: (more ++ rest)) = 0)
    (inside : separates first.component = false) (stays : StaysIn more) :
    StaysIn (first :: more) := by
  constructor
  · intro rest
    rw [List.cons_append, thin_cons (noPseudo rest), stays.thin_append, List.cons_append]
  · intro rest kept dropped keeps
    rw [List.cons_append, keeps_cons (noPseudo rest) inside] at keeps
    exact stays.keeps keeps

/-- A pseudo after one colon is left out as a whole, or stays. -/
theorem thin_pseudo {colon next : Atom} (isColon : colon.component.isDelim ":" = true)
    (notColon : next.component.isDelim ":" = false) (inside : separates next.component = false) :
    LeftOut [colon, next] ∨ StaysIn [colon, next] := by
  cases isState : isOneOfWords stateClasses next.component with
  | true =>
      refine .inl (.of_length fun rest => ?_)
      simp [statePseudoLength, isColon, isState]
  | false =>
      have stays : StaysIn [next] :=
        .of_plain (List.forall_mem_singleton.mpr notColon) (List.forall_mem_singleton.mpr inside)
      refine .inr (.cons (fun rest => ?_) (separates_of_colon isColon) stays)
      simp [statePseudoLength, isState, notColon]

/-- A pseudo-element after two colons is left out as a whole, or stays. -/
theorem thin_element {colon second word : Atom} {name : List Char}
    (isColon : colon.component.isDelim ":" = true) (isSecond : second.component.isDelim ":" = true)
    (isWord : wordOf? word.component = some name)
    (known : String.ofList (lowerAscii name) ∈ pseudoElements) :
    LeftOut [colon, second, word] ∨ StaysIn [colon, second, word] := by
  have notClass : isOneOfWords stateClasses second.component = false := by
    obtain ⟨offset, component⟩ := isDelim_iff.mp isSecond
    rw [component]
    rfl
  cases isState : isOneOfWords stateElements word.component with
  | true =>
      refine .inl (.of_length fun rest => ?_)
      simp [statePseudoLength, isColon, isSecond, notClass, isState]
  | false =>
      have wordIsNoClass : isOneOfWords stateClasses word.component = false := by
        simp only [isOneOfWords, isWord, Option.any_some, List.contains_eq_mem,
          decide_eq_false_iff_not] at isState ⊢
        exact fun isClass => isState (mem_stateElements isClass known)
      have notColon := not_colon_of_word isWord
      have stays : StaysIn [word] := .of_plain (List.forall_mem_singleton.mpr notColon)
        (List.forall_mem_singleton.mpr (separates_of_word isWord))
      have fromSecond : StaysIn [second, word] := by
        refine .cons (fun rest => ?_) (separates_of_colon isSecond) stays
        simp [statePseudoLength, wordIsNoClass, notColon]
      refine .inr (.cons (fun rest => ?_) (separates_of_colon isColon) fromSecond)
      simp [statePseudoLength, notClass, isState]

/-- A simple selector or a pseudo-element is left out as a whole, or stays. -/
theorem thin_piece {taken : List Atom} {piece : Piece} (spelled : Spells piece taken) :
    LeftOut taken ∨ StaysIn taken := by
  cases spelled with
  | plain first more _ notColon inside => exact .inr (.of_plain notColon inside)
  | pseudo colon next _ isColon notColon inside => exact thin_pseudo isColon notColon inside
  | element colon second word name _ isColon isSecond isWord known =>
      exact thin_element isColon isSecond isWord known

/-! ## Compound selectors -/

/-- Whether a compound selector can end before some atoms. -/
def EndsCompound (atoms : List Atom) : Prop :=
  ∀ next ∈ atoms.head?, separates next.component = true

theorem keeps_of_endsCompound {atoms : List Atom} {kept dropped : Bool}
    (ends : EndsCompound atoms) (keeps : Keeps kept dropped atoms) :
    (kept = true ∨ dropped = false) ∧ Keeps false false atoms := by
  cases atoms with
  | nil =>
      rw [Keeps, keepsCompounds, Bool.or_eq_true, Bool.not_eq_true'] at keeps
      exact ⟨keeps, rfl⟩
  | cons first rest =>
      have isSeparator := ends first rfl
      have parts := (keeps_separator isSeparator).mp keeps
      exact ⟨parts.1, (keeps_separator isSeparator).mpr ⟨.inr rfl, parts.2⟩⟩

theorem head?_thin_of_endsCompound {atoms : List Atom} (ends : EndsCompound atoms) :
    (thin atoms).head? = atoms.head? := by
  cases atoms with
  | nil => rfl
  | cons first rest =>
      rw [thin_cons_of_not_colon (not_colon_of_separates (ends first rfl))]
      rfl

theorem endsCompound_thin {atoms : List Atom} (ends : EndsCompound atoms) :
    EndsCompound (thin atoms) := by
  rw [EndsCompound, head?_thin_of_endsCompound ends]
  exact ends

theorem readPiece_of_endsCompound {atoms : List Atom} (ends : EndsCompound atoms) :
    readPiece atoms = (.ok .nothing, atoms) := by
  cases atoms with
  | nil => rfl
  | cons first rest =>
      have isSeparator := ends first rfl
      simp only [readPiece]
      split
      · rename_i isHash
        rw [isHash] at isSeparator
        cases isSeparator
      · rename_i isBlock
        rw [isBlock] at isSeparator
        cases isSeparator
      · split
        · rename_i isPoint
          obtain ⟨offset, component⟩ := isDelim_iff.mp isPoint
          rw [component] at isSeparator
          cases isSeparator
        · rw [not_colon_of_separates isSeparator]
          rfl

theorem readPseudo_ne_nothing {atoms rest : List Atom} :
    readPseudo atoms ≠ (.ok .nothing, rest) := by
  intro read
  unfold readPseudo at read
  split at read
  · cases read
  · split at read
    · dsimp only at read
      split at read <;> cases read
    · split at read
      · obtain ⟨_, _, _, _, _, impossible⟩ := readPseudoElement_eq_ok read
        cases impossible
      · split at read
        · rename_i meaning _
          cases meaning <;> cases read
        · cases read

/-- Where there is no simple selector, nothing is taken. -/
theorem readPiece_eq_nothing {atoms rest : List Atom}
    (read : readPiece atoms = (.ok .nothing, rest)) : rest = atoms := by
  cases atoms with
  | nil =>
      cases read
      rfl
  | cons first others =>
      simp only [readPiece] at read
      split at read
      · cases read
      · rename_i content _
        cases test : readAttributeTest content with
        | error failure =>
            rw [test] at read
            cases read
        | ok value =>
            rw [test] at read
            cases read
      · split at read
        · obtain ⟨_, _, _, _, impossible⟩ := readClass_eq_ok read
          cases impossible
        · split at read
          · exact absurd read readPseudo_ne_nothing
          · cases read
            rfl

theorem readSimples_of_nothing {atoms rest : List Atom}
    (read : readPiece atoms = (.ok .nothing, rest)) :
    readSimples atoms = (.ok ([], false), rest) := by
  rw [readSimples]
  split <;> simp_all

theorem readSimples_of_pseudoElement {atoms rest : List Atom}
    (read : readPiece atoms = (.ok .pseudoElement, rest)) :
    readSimples atoms = (.ok ([], true), rest) := by
  rw [readSimples]
  split <;> simp_all

theorem readSimples_of_simple {atoms rest later : List Atom} {simple : Simple}
    {more : List Simple} {ended : Bool} (read : readPiece atoms = (.ok (.simple simple), rest))
    (others : readSimples rest = (.ok (more, ended), later)) :
    readSimples atoms = (.ok (simple :: more, ended), later) := by
  rw [readSimples]
  split <;> simp_all

theorem readSimples_eq_nil {atoms rest : List Atom} {ended : Bool}
    (read : readSimples atoms = (.ok ([], ended), rest)) :
    readPiece atoms = (.ok .nothing, rest) ∧ ended = false ∨
      readPiece atoms = (.ok .pseudoElement, rest) ∧ ended = true := by
  rw [readSimples] at read
  split at read
  · cases read
  · rename_i nothing
    cases read
    exact .inl ⟨nothing, rfl⟩
  · rename_i element
    cases read
    exact .inr ⟨element, rfl⟩
  · split at read <;> cases read

theorem readSimples_eq_cons {atoms rest : List Atom} {simple : Simple}
    {others : List Simple} {ended : Bool}
    (read : readSimples atoms = (.ok (simple :: others, ended), rest)) :
    ∃ after, readPiece atoms = (.ok (.simple simple), after) ∧
      readSimples after = (.ok (others, ended), rest) := by
  rw [readSimples] at read
  split at read
  · cases read
  · cases read
  · cases read
  · rename_i after piece
    split at read
    · cases read
    · rename_i more
      cases read
      exact ⟨after, piece, more⟩

/-- Simple selectors are read from thinner atoms as some of the simple selectors
that are there, and one of them is left if one was to be kept. -/
theorem readSimples_thin {atoms rest : List Atom} {simples : List Simple}
    {ended kept dropped : Bool} (read : readSimples atoms = (.ok (simples, ended), rest))
    (ends : EndsCompound rest) (keeps : Keeps kept dropped atoms) :
    ∃ fewer still, readSimples (thin atoms) = (.ok (fewer, still), thin rest) ∧
      fewer.Sublist simples ∧ (still = true → ended = true) ∧ Keeps false false rest ∧
      (kept = true ∨ dropped = false ∧ simples = [] ∧ ended = false ∨
        fewer ≠ [] ∨ still = true) := by
  induction simples generalizing atoms kept dropped with
  | nil =>
      have nothingMore := readPiece_of_endsCompound (endsCompound_thin ends)
      rcases readSimples_eq_nil read with ⟨nothing, rfl⟩ | ⟨element, rfl⟩
      · obtain rfl := readPiece_eq_nothing nothing
        have boundary := keeps_of_endsCompound ends keeps
        exact ⟨[], false, readSimples_of_nothing nothingMore, .slnil, id, boundary.2,
          boundary.1.imp_right fun noneDropped => .inl ⟨noneDropped, rfl, rfl⟩⟩
      · obtain ⟨taken, rfl, spelled⟩ := spells_of_readPiece element (by simp)
        rcases thin_piece spelled with leftOut | stays
        · have boundary := keeps_of_endsCompound ends (leftOut.keeps keeps)
          rw [leftOut.thin_append]
          exact ⟨[], false, readSimples_of_nothing nothingMore, .slnil, by simp, boundary.2,
            .inl (by simpa using boundary.1)⟩
        · have boundary := keeps_of_endsCompound ends (stays.keeps keeps)
          rw [stays.thin_append]
          exact ⟨[], true, readSimples_of_pseudoElement (spelled.reads _), .slnil, id, boundary.2,
            .inr (.inr (.inr rfl))⟩
  | cons simple others ih =>
      obtain ⟨after, piece, more⟩ := readSimples_eq_cons read
      obtain ⟨taken, rfl, spelled⟩ := spells_of_readPiece piece (by simp)
      rcases thin_piece spelled with leftOut | stays
      · obtain ⟨fewer, still, reads, sub, ends', keepsLater, some⟩ := ih more (leftOut.keeps keeps)
        rw [leftOut.thin_append]
        exact ⟨fewer, still, reads, .cons _ sub, ends', keepsLater, by simpa using some⟩
      · obtain ⟨fewer, still, reads, sub, ends', keepsLater, _⟩ := ih more (stays.keeps keeps)
        rw [stays.thin_append]
        exact ⟨simple :: fewer, still, readSimples_of_simple (spelled.reads _) reads,
          .cons_cons _ sub, ends', keepsLater, .inr (.inr (.inl (by simp)))⟩

/-- Whether an atom starts a type selector. -/
def startsType (atom : Atom) : Bool :=
  (wordOf? atom.component).isSome || atom.component.isDelim "*" || atom.component.isDelim "|"

/-- What starts a simple selector starts neither a type selector nor anything
between compound selectors. -/
theorem start_of_readPiece {first : Atom} {others rest : List Atom} {piece : Piece}
    (read : readPiece (first :: others) = (.ok piece, rest)) (something : piece ≠ .nothing) :
    startsType first = false ∧ separates first.component = false := by
  simp only [readPiece] at read
  split at read
  · rename_i isHash
    rw [startsType, isHash]
    exact ⟨rfl, rfl⟩
  · rename_i isBlock
    rw [startsType, isBlock]
    exact ⟨rfl, rfl⟩
  · split at read
    · rename_i isPoint
      obtain ⟨offset, component⟩ := isDelim_iff.mp isPoint
      rw [startsType, component]
      exact ⟨rfl, rfl⟩
    · split at read
      · rename_i isColon
        obtain ⟨offset, component⟩ := isDelim_iff.mp isColon
        rw [startsType, component]
        exact ⟨rfl, rfl⟩
      · cases read
        exact absurd rfl something

theorem start_of_readSimples {atoms rest : List Atom} {simples : List Simple} {ended : Bool}
    (read : readSimples atoms = (.ok (simples, ended), rest))
    (something : simples ≠ [] ∨ ended = true) :
    ∃ first others, atoms = first :: others ∧ startsType first = false ∧
      separates first.component = false := by
  have piece : ∃ piece after, readPiece atoms = (.ok piece, after) ∧ piece ≠ .nothing := by
    cases simples with
    | nil =>
        rcases readSimples_eq_nil read with ⟨_, rfl⟩ | ⟨element, _⟩
        · simp at something
        · exact ⟨_, _, element, by simp⟩
    | cons simple others =>
        obtain ⟨after, simple, _⟩ := readSimples_eq_cons read
        exact ⟨_, after, simple, by simp⟩
  obtain ⟨piece, after, pieceRead, isSomething⟩ := piece
  cases atoms with
  | nil =>
      cases pieceRead
      exact absurd rfl isSomething
  | cons first others => exact ⟨first, others, rfl, start_of_readPiece pieceRead isSomething⟩

theorem readQualifiedName?_of_not_startsType {first : Atom} (rest : List Atom)
    (noType : startsType first = false) :
    readQualifiedName? Atom.component false (first :: rest) = (.ok none, first :: rest) := by
  simp only [startsType, Bool.or_eq_false_iff, Option.isSome_eq_false_iff,
    Option.isNone_iff_eq_none] at noType
  simp [readQualifiedName?, noType]

theorem startsWithBar_iff {atoms : List Atom} :
    startsWithBar Atom.component atoms = true ↔
      ∃ bar rest, atoms = bar :: rest ∧ bar.component.isDelim "|" = true := by
  cases atoms with
  | nil => simp [startsWithBar]
  | cons first rest => simp [startsWithBar]

theorem readLocalName_eq_ok {atoms rest : List Atom} {noNamespace : Bool}
    {name : QualifiedName}
    (read : readLocalName Atom.component false noNamespace atoms = (.ok name, rest)) :
    ∃ next, atoms = next :: rest ∧ startsType next = true ∧
      ∀ later, readLocalName Atom.component false noNamespace (next :: later) =
        (.ok name, later) := by
  cases atoms with
  | nil => cases read
  | cons next others =>
      cases isWord : wordOf? next.component with
      | some word =>
          simp only [readLocalName, isWord] at read
          cases read
          exact ⟨next, rfl, by simp [startsType, isWord], by simp [readLocalName, isWord]⟩
      | none =>
          cases isStar : next.component.isDelim "*" with
          | true =>
              simp only [readLocalName, isWord, isStar] at read
              cases read
              exact ⟨next, rfl, by simp [startsType, isStar],
                by simp [readLocalName, isWord, isStar]⟩
          | false => simp [readLocalName, isWord, isStar, refuse] at read

theorem map_some_eq_ok {reading : Reading QualifiedName} {found : Option QualifiedName}
    {rest : List Atom} (read : (reading.1.map some, reading.2) = (.ok found, rest)) :
    ∃ name, found = some name ∧ reading = (.ok name, rest) := by
  obtain ⟨outcome, after⟩ := reading
  cases outcome with
  | error failure => cases read
  | ok name =>
      cases read
      exact ⟨name, rfl, rfl⟩

/-- A qualified name is read from atoms of its own, unless what follows goes on
with a bar. -/
theorem readQualifiedName?_eq_ok {atoms rest : List Atom} {found : Option QualifiedName}
    (read : readQualifiedName? Atom.component false atoms = (.ok found, rest)) :
    found = none ∧ rest = atoms ∨
    ∃ name first more, found = some name ∧ atoms = first :: (more ++ rest) ∧
      (∀ atom ∈ first :: more, startsType atom = true) ∧
      ∀ later, startsWithBar Atom.component later = false →
        readQualifiedName? Atom.component false (first :: (more ++ later)) =
          (.ok found, later) := by
  cases atoms with
  | nil =>
      cases read
      exact .inl ⟨rfl, rfl⟩
  | cons first others =>
      -- a name starts with a word, a star or a bar
      cases isWord : wordOf? first.component with
      | some word =>
          cases hasBar : startsWithBar Atom.component others with
          | true => simp [readQualifiedName?, isWord, hasBar, refuse] at read
          | false =>
              simp only [readQualifiedName?, isWord, hasBar] at read
              cases read
              refine .inr ⟨_, first, [], rfl, rfl, by simp [startsType, isWord], ?_⟩
              intro later noBar
              simp [readQualifiedName?, isWord, noBar]
      | none =>
          cases isStar : first.component.isDelim "*" with
          | true =>
              cases hasBar : startsWithBar Atom.component others with
              | true =>
                  obtain ⟨bar, afterBar, rfl, isBar⟩ := startsWithBar_iff.mp hasBar
                  simp only [readQualifiedName?, isWord, isStar, hasBar, if_true,
                    List.tail_cons] at read
                  obtain ⟨name, rfl, localName⟩ := map_some_eq_ok read
                  obtain ⟨next, rfl, nextStarts, readsNext⟩ := readLocalName_eq_ok localName
                  refine .inr ⟨_, first, [bar, next], rfl, rfl,
                    by simpa [startsType, isStar, isBar] using nextStarts, ?_⟩
                  intro later _
                  simp [readQualifiedName?, isWord, isStar, startsWithBar, isBar, readsNext]
                  rfl
              | false =>
                  simp only [readQualifiedName?, isWord, isStar, hasBar] at read
                  cases read
                  refine .inr ⟨_, first, [], rfl, rfl, by simp [startsType, isStar], ?_⟩
                  intro later noBar
                  simp [readQualifiedName?, isWord, isStar, noBar]
          | false =>
              cases isBar : first.component.isDelim "|" with
              | true =>
                  simp only [readQualifiedName?, isWord, isStar, isBar, if_true] at read
                  obtain ⟨name, rfl, localName⟩ := map_some_eq_ok read
                  obtain ⟨next, rfl, nextStarts, readsNext⟩ := readLocalName_eq_ok localName
                  refine .inr ⟨_, first, [next], rfl, rfl,
                    by simpa [startsType, isBar] using nextStarts, ?_⟩
                  intro later _
                  simp [readQualifiedName?, isWord, isStar, isBar, readsNext]
                  rfl
              | false =>
                  simp only [readQualifiedName?, isWord, isStar, isBar] at read
                  cases read
                  exact .inl ⟨rfl, rfl⟩

theorem separates_of_startsType {atom : Atom} (starts : startsType atom = true) :
    separates atom.component = false := by
  simp only [startsType, Bool.or_eq_true, Option.isSome_iff_exists] at starts
  rcases starts with (⟨name, isWord⟩ | isStar) | isBar
  · exact separates_of_word isWord
  · obtain ⟨offset, component⟩ := isDelim_iff.mp isStar
    rw [component]
    rfl
  · obtain ⟨offset, component⟩ := isDelim_iff.mp isBar
    rw [component]
    rfl

theorem not_colon_of_startsType {atom : Atom} (starts : startsType atom = true) :
    atom.component.isDelim ":" = false := by
  simp only [startsType, Bool.or_eq_true, Option.isSome_iff_exists] at starts
  rcases starts with (⟨name, isWord⟩ | isStar) | isBar
  · exact not_colon_of_word isWord
  · obtain ⟨offset, component⟩ := isDelim_iff.mp isStar
    rw [component]
    rfl
  · obtain ⟨offset, component⟩ := isDelim_iff.mp isBar
    rw [component]
    rfl

theorem not_whitespace_of_inside {component : Component} (inside : separates component = false) :
    component.isWhitespace = false := by
  simp only [separates, Component.isGap, Bool.or_eq_false_iff] at inside
  exact inside.1.1.1

theorem dropWhile_whitespace {atoms : List Atom}
    (noSpace : ∀ next ∈ atoms.head?, next.component.isWhitespace = false) :
    atoms.dropWhile (·.component.isWhitespace) = atoms := by
  cases atoms with
  | nil => rfl
  | cons first others =>
      rw [List.dropWhile_cons, noSpace first rfl]
      rfl

theorem readCompound_eq_ok {atoms rest : List Atom} {simples : List Simple} {ended : Bool} :
    readCompound atoms = (.ok (simples, ended), rest) ↔
      ∃ type after own, readType? atoms = (.ok type, after) ∧
        readSimples after = (.ok (own, ended), rest) ∧
        (type = none → own ≠ [] ∨ ended = true) ∧
        simples = (type.map (·.simples)).getD [] ++ own := by
  constructor
  · intro read
    unfold readCompound at read
    split at read
    · cases read
    · rename_i type after typeRead
      split at read
      · cases read
      · rename_i own stops later more
        split at read
        · cases read
        · rename_i something
          cases read
          refine ⟨type, after, own, typeRead, more, ?_, rfl⟩
          rintro rfl
          cases own with
          | nil => exact .inr (by simpa using something)
          | cons => exact .inl (by simp)
  · rintro ⟨type, after, own, typeRead, more, something, rfl⟩
    simp only [readCompound, typeRead, more]
    rw [if_neg]
    simp only [Bool.and_eq_true, Option.isNone_iff_eq_none, List.isEmpty_iff,
      Bool.not_eq_true', not_and, Bool.not_eq_false]
    intro isNone
    exact (something isNone.1).resolve_left (fun some => some isNone.2)

theorem not_startsWithBar {atoms rest : List Atom} {simples : List Simple} {ended : Bool}
    (read : readSimples atoms = (.ok (simples, ended), rest)) (ends : EndsCompound rest) :
    startsWithBar Atom.component atoms = false := by
  rw [← Bool.not_eq_true, startsWithBar_iff]
  rintro ⟨bar, others, rfl, isBar⟩
  have starts : startsType bar = true := by simp [startsType, isBar]
  by_cases something : simples ≠ [] ∨ ended = true
  · obtain ⟨first, _, same, noType, _⟩ := start_of_readSimples read something
    obtain ⟨rfl, rfl⟩ := List.cons.inj same
    exact Bool.false_ne_true (noType.symm.trans starts)
  · obtain ⟨rfl, rfl⟩ : simples = [] ∧ ended = false := by simpa using something
    rcases readSimples_eq_nil read with ⟨nothing, _⟩ | ⟨_, impossible⟩
    · obtain rfl := readPiece_eq_nothing nothing
      exact Bool.false_ne_true ((separates_of_startsType starts).symm.trans (ends bar rfl))
    · cases impossible

/-- A compound selector is read from thinner atoms as some of its simple
selectors, if it keeps one. -/
theorem readCompound_thin_of_start {atoms rest : List Atom} {simples : List Simple}
    {ended : Bool} (read : readCompound atoms = (.ok (simples, ended), rest))
    (noSpace : ∀ next ∈ atoms.head?, next.component.isWhitespace = false)
    (ends : EndsCompound rest) (keeps : Keeps false false atoms) :
    (∃ fewer still, readCompound (thin atoms) = (.ok (fewer, still), thin rest) ∧
      fewer.Sublist simples ∧ (still = true → ended = true)) ∧
      Keeps false false rest ∧
      ∃ first others, thin atoms = first :: others ∧ separates first.component = false := by
  obtain ⟨type, after, own, typeRead, ownRead, something, rfl⟩ := readCompound_eq_ok.mp read
  rw [readType?, dropWhile_whitespace noSpace] at typeRead
  rcases readQualifiedName?_eq_ok typeRead with ⟨rfl, rfl⟩ | ⟨name, first, more, rfl, rfl, starts, reads⟩
  -- without a type, a piece that is kept starts the compound
  · obtain ⟨fewer, still, fewerRead, sub, ends', keepsRest, some⟩ :=
      readSimples_thin ownRead ends keeps
    have left : fewer ≠ [] ∨ still = true := by
      rcases some with impossible | ⟨_, noOwn, notEnded⟩ | left
      · cases impossible
      · simp [noOwn, notEnded] at something
      · exact left
    obtain ⟨first, others, starts, noType, inside⟩ := start_of_readSimples fewerRead left
    have noSpace' : ∀ next ∈ (thin after).head?, next.component.isWhitespace = false := by
      rw [starts]
      rintro next ⟨⟩
      exact not_whitespace_of_inside inside
    refine ⟨⟨fewer, still, ?_, sub, ends'⟩, keepsRest, first, others, starts, inside⟩
    refine readCompound_eq_ok.mpr ⟨none, thin after, fewer, ?_, fewerRead, fun _ => left, rfl⟩
    rw [readType?, dropWhile_whitespace noSpace', starts]
    exact readQualifiedName?_of_not_startsType others noType
  -- a type is never left out, and still starts the compound
  · have notColon : ∀ atom ∈ first :: more, atom.component.isDelim ":" = false :=
      fun atom member => not_colon_of_startsType (starts atom member)
    have inside : ∀ atom ∈ first :: more, separates atom.component = false :=
      fun atom member => separates_of_startsType (starts atom member)
    have thinned : thin (first :: more ++ after) = first :: more ++ thin after :=
      thin_append notColon
    rw [List.cons_append, List.cons_append] at thinned
    rw [← List.cons_append] at keeps
    obtain ⟨fewer, still, fewerRead, sub, ends', keepsRest, _⟩ :=
      readSimples_thin ownRead ends (keeps_append notColon inside keeps)
    have firstInside := inside first List.mem_cons_self
    have noSpace' : ∀ next ∈ (first :: (more ++ thin after)).head?,
        next.component.isWhitespace = false := by
      rintro next ⟨⟩
      exact not_whitespace_of_inside firstInside
    refine ⟨⟨name.simples ++ fewer, still, ?_, .append_left sub _, ends'⟩,
      keepsRest, first, more ++ thin after, thinned, firstInside⟩
    rw [thinned]
    refine readCompound_eq_ok.mpr ⟨some name, thin after, fewer, ?_, fewerRead, by simp, rfl⟩
    rw [readType?, dropWhile_whitespace noSpace']
    exact reads _ (not_startsWithBar fewerRead (endsCompound_thin ends))

theorem readCompound_append_whitespace {spaces : List Atom}
    (areSpaces : ∀ atom ∈ spaces, atom.component.isWhitespace = true) (atoms : List Atom) :
    readCompound (spaces ++ atoms) = readCompound atoms := by
  simp only [readCompound, readType?, List.dropWhile_append_of_pos areSpaces]

theorem separates_of_gap {component : Component} (isGap : component.isGap = true) :
    separates component = true := by
  simp [separates, isGap]

/-- A list splits where a property ends. -/
theorem exists_split {ι : Type} (property : ι → Bool) (items : List ι) :
    ∃ front back, items = front ++ back ∧ (∀ item ∈ front, property item = true) ∧
      ∀ next ∈ back.head?, property next = false := by
  refine ⟨items.takeWhile property, items.dropWhile property,
    List.takeWhile_append_dropWhile.symm, fun item member => List.mem_takeWhile_imp member, ?_⟩
  intro next isHead
  have fails := List.head?_dropWhile_not property items
  rw [Option.mem_def.mp isHead] at fails
  simpa using fails

/-- A compound selector is read from thinner atoms as some of its simple
selectors, if it keeps one. -/
theorem readCompound_thin {atoms rest : List Atom} {simples : List Simple} {ended : Bool}
    (read : readCompound atoms = (.ok (simples, ended), rest)) (ends : EndsCompound rest)
    (keeps : Keeps false false atoms) :
    (∃ fewer still, readCompound (thin atoms) = (.ok (fewer, still), thin rest) ∧
      fewer.Sublist simples ∧ (still = true → ended = true)) ∧ Keeps false false rest := by
  obtain ⟨spaces, start, rfl, areSpaces, noSpace⟩ :=
    exists_split (fun atom : Atom => atom.component.isWhitespace) atoms
  have areSeparators : ∀ atom ∈ spaces, separates atom.component = true :=
    fun atom member => separates_of_gap (by simp [Component.isGap, areSpaces atom member])
  have notColon : ∀ atom ∈ spaces, atom.component.isDelim ":" = false :=
    fun atom member => not_colon_of_separates (areSeparators atom member)
  rw [readCompound_append_whitespace areSpaces] at read
  rw [thin_append notColon, readCompound_append_whitespace areSpaces]
  obtain ⟨thinner, keepsRest, _⟩ := readCompound_thin_of_start read noSpace ends
    (keeps_append_separators areSeparators keeps)
  exact ⟨thinner, keepsRest⟩

end StyleSieve.Selector
