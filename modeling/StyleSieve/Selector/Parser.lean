import StyleSieve.Css.Nesting
import StyleSieve.Selector.Syntax

/-!
# Reading selectors

Selectors are read from component values, the calls of functions from the inside
out: a call gets its meaning before the list in which it stands is read, so
reading a list only looks at its own components.  A list of selectors in a
function may be forgiving: what is refused in it is left out.
-/

namespace StyleSieve.Selector

open Css

/-- Refuses a selector. -/
def refuse {α : Type} (refusal : Refusal) : Except Failure α :=
  .error (.refused refusal)

/-- The name of a component that is a word. -/
def wordOf? : Component → Option (List Char)
  | .token _ (.ident name) => some name
  | _ => none

/-- The combinator that a component stands for. -/
def combinatorOf? (component : Component) : Option Combinator :=
  if component.isDelim ">" then some .child
  else if component.isDelim "+" then some .next
  else if component.isDelim "~" then some .following
  else none

/-- The comparison that a component stands for. -/
def comparisonOf? (component : Component) : Option Comparison :=
  if component.isDelim "=" then some .equals
  else if component.isDelim "~=" then some .hasWord
  else if component.isDelim "|=" then some .dashed
  else if component.isDelim "^=" then some .starts
  else if component.isDelim "$=" then some .ends
  else if component.isDelim "*=" then some .contains
  else none

/-- The pseudo-elements that are known. -/
def pseudoElements : List String :=
  ["first-line", "first-letter", "prefix", "postfix", "selection", "target-text",
   "spelling-error", "grammar-error", "before", "after", "marker", "placeholder",
   "file-selector-button", "footnote-call", "footnote-marker", "content", "shadow"]

/-- The pseudo-elements that may be written like pseudo-classes. -/
def oldPseudoElements : List String :=
  ["before", "after", "first-line", "first-letter"]

/-! ## Names -/

section Names

variable {ι : Type} (view : ι → Component)

/-- A name that may be restricted to elements or attributes in no namespace, and
may leave open which name it is. -/
structure QualifiedName where
  noNamespace : Bool
  name : Option (List Char)

/-- Reads the name after the bar of a qualified name. -/
def readLocalName (isAttribute noNamespace : Bool) :
    List ι → Except Failure QualifiedName × List ι
  | [] => (.error (.defect .nameEnds), [])
  | next :: rest =>
      match wordOf? (view next) with
      | some name => (.ok ⟨noNamespace, some name⟩, rest)
      | none =>
          if (view next).isDelim "*" && !isAttribute then (.ok ⟨noNamespace, none⟩, rest)
          else (refuse (.noLocalName (view next)), rest)

/-- Whether a bar comes next. -/
def startsWithBar (items : List ι) : Bool :=
  (items.head?.map view).any (·.isDelim "|")

/-- Reads a qualified name, if one comes next. -/
def readQualifiedName? (isAttribute : Bool) :
    List ι → Except Failure (Option QualifiedName) × List ι
  | [] => (.ok none, [])
  | first :: rest =>
      match wordOf? (view first) with
      | some name =>
          if startsWithBar view rest then
            (refuse (.unknownPrefix (view first) (String.ofList name)), rest.tail)
          else (.ok (some ⟨isAttribute, some name⟩), rest)
      | none =>
          if (view first).isDelim "*" then
            if startsWithBar view rest then
              let found := readLocalName view isAttribute false rest.tail
              (found.1.map some, found.2)
            else if isAttribute then (refuse (.noLocalName (view first)), rest)
            else (.ok (some ⟨false, none⟩), rest)
          else if (view first).isDelim "|" then
            let found := readLocalName view isAttribute true rest
            (found.1.map some, found.2)
          else (.ok none, first :: rest)

/-- The arguments of a function before and after its first word `of`. -/
def splitAtOf (arguments : List ι) : List ι × Option (List ι) :=
  let isOf := fun argument => wordOf? (view argument) == some "of".toList
  match arguments.dropWhile (!isOf ·) with
  | [] => (arguments, none)
  | _ :: after => (arguments.takeWhile (!isOf ·), some after)

end Names

/-! ## Conditions on attributes -/

/-- Reads how the value of an attribute is compared, if it is, after its name. -/
def readComparison : List Component →
    Except Failure (Option (Comparison × List Char) × List Component)
  | [] => .ok (none, [])
  | sign :: rest =>
      match comparisonOf? sign with
      | none => refuse (.noOperator sign)
      | some comparison =>
          match rest.dropWhile Component.isWhitespace with
          | .token _ (.ident value) :: later => .ok (some (comparison, value), later)
          | .token _ (.string value _) :: later => .ok (some (comparison, value), later)
          | other => refuse (.noValue other.head?)

/-- Reads the condition on an attribute that stands in square brackets. -/
def readAttributeTest (content : List Component) : Except Failure AttributeTest := do
  let start := content.dropWhile Component.isWhitespace
  let (found, afterName) := readQualifiedName? id true start
  match ← found with
  | none => refuse (.noAttributeName start.head?)
  | some qualified =>
      let (comparison, afterValue) ←
        readComparison (afterName.dropWhile Component.isWhitespace)
      let test : AttributeTest := {
        anyNamespace := !qualified.noNamespace
        name := qualified.name.getD []
        comparison }
      match afterValue.dropWhile Component.isWhitespace with
      | [] => return test
      | last :: _ =>
          match (wordOf? last).map lowerAscii with
          | some ['i'] => return { test with ignoreCase := true }
          | some ['s'] => return test
          | _ => refuse (.noCloser last)

/-! ## Simple selectors -/

/-- A component of a selector; the call of a function comes with what it means
as a condition on one element. -/
inductive Atom where
  | plain (component : Component)
  | call (offset : Nat) (name : List Char) (arguments : List Component)
      (meaning : Except Failure Simple)

namespace Atom

/-- The component of an atom. -/
def component : Atom → Component
  | .plain component => component
  | .call offset name arguments _ => .block offset (.call name) arguments

/-- What an atom means, if it is the call of a function. -/
def meaning? : Atom → Option (Except Failure Simple)
  | .plain _ => none
  | .call _ _ _ meaning => some meaning

end Atom

/-- What reading a part of a selector gives, and the atoms after that part. -/
abbrev Reading (α : Type) := Except Failure α × List Atom

/-- What a simple selector turns out to be. -/
inductive Piece where
  | nothing
  | simple (simple : Simple)
  | pseudoElement

/-- Reads a class name after its point. -/
def readClass : List Atom → Reading Piece
  | [] => (refuse (.noClassName none), [])
  | next :: rest =>
      match wordOf? next.component with
      | some name => (.ok (.simple (.className name)), rest)
      | none => (refuse (.noClassName (some next.component)), rest)

/-- Reads a pseudo-element after its two colons. -/
def readPseudoElement : List Atom → Reading Piece
  | [] => (refuse (.noPseudoElement none), [])
  | next :: rest =>
      match wordOf? next.component with
      | some word =>
          let name := String.ofList (lowerAscii word)
          if pseudoElements.contains name then (.ok .pseudoElement, rest)
          else (refuse (.unknownPseudoElement next.component name), rest)
      | none => (refuse (.noPseudoElement (some next.component)), rest)

/-- Reads a pseudo-class or a pseudo-element after its first colon. -/
def readPseudo : List Atom → Reading Piece
  | [] => (refuse (.noPseudo none), [])
  | next :: rest =>
      match wordOf? next.component with
      | some word =>
          let name := lowerAscii word
          if oldPseudoElements.contains (String.ofList name) then (.ok .pseudoElement, rest)
          else (.ok (.simple (.pseudoClass name)), rest)
      | none =>
          if next.component.isDelim ":" then readPseudoElement rest
          else
            match next.meaning? with
            | some meaning => (meaning.map Piece.simple, rest)
            | none => (refuse (.noPseudo (some next.component)), rest)

/-- Reads a simple selector, if one comes next. -/
def readPiece : List Atom → Reading Piece
  | [] => (.ok .nothing, [])
  | first :: rest =>
      match first.component with
      | .token _ (.hash name true) => (.ok (.simple (.id name)), rest)
      | .block _ .square content =>
          ((readAttributeTest content).map (.simple <| .attribute ·), rest)
      | sign =>
          if sign.isDelim "." then readClass rest
          else if sign.isDelim ":" then readPseudo rest
          else (.ok .nothing, first :: rest)

/-! ### What reading leaves -/

theorem readClass_suffix (atoms : List Atom) : (readClass atoms).2 <:+ atoms := by
  unfold readClass
  split
  · exact List.suffix_refl _
  · split
    · exact List.suffix_cons ..
    · exact List.suffix_cons ..

theorem readPseudoElement_suffix (atoms : List Atom) :
    (readPseudoElement atoms).2 <:+ atoms := by
  unfold readPseudoElement
  split
  · exact List.suffix_refl _
  · split
    · dsimp only
      split
      · exact List.suffix_cons ..
      · exact List.suffix_cons ..
    · exact List.suffix_cons ..

theorem readPseudo_suffix (atoms : List Atom) : (readPseudo atoms).2 <:+ atoms := by
  unfold readPseudo
  split
  · exact List.suffix_refl _
  · rename_i next rest
    split
    · dsimp only
      split
      · exact List.suffix_cons ..
      · exact List.suffix_cons ..
    · split
      · exact (readPseudoElement_suffix rest).trans (List.suffix_cons ..)
      · split
        · exact List.suffix_cons ..
        · exact List.suffix_cons ..

theorem readPiece_suffix (atoms : List Atom) : (readPiece atoms).2 <:+ atoms := by
  unfold readPiece
  split
  · exact List.suffix_refl _
  · rename_i first rest
    split
    · exact List.suffix_cons ..
    · exact List.suffix_cons ..
    · split
      · exact (readClass_suffix rest).trans (List.suffix_cons ..)
      · split
        · exact (readPseudo_suffix rest).trans (List.suffix_cons ..)
        · exact List.suffix_refl _

/-- A piece that is something has been taken off. -/
theorem length_readPiece_lt {atoms rest : List Atom} {piece : Piece}
    (read : readPiece atoms = (.ok piece, rest)) (something : piece ≠ .nothing) :
    rest.length < atoms.length := by
  unfold readPiece at read
  split at read
  · cases read
    exact absurd rfl something
  · rename_i first others
    rw [List.length_cons]
    refine Nat.lt_succ_of_le ?_
    split at read
    · cases read
      exact Nat.le_refl _
    · exact Nat.le_of_eq (congrArg (·.2.length) read.symm)
    · split at read
      · have name := (readClass_suffix others).length_le
        rwa [read] at name
      · split at read
        · have pseudo := (readPseudo_suffix others).length_le
          rwa [read] at pseudo
        · cases read
          exact absurd rfl something

/-- Reads simple selectors, up to a pseudo-element, and whether there is one. -/
def readSimples (atoms : List Atom) : Reading (List Simple × Bool) :=
  match _ : readPiece atoms with
  | (.error failure, rest) => (.error failure, rest)
  | (.ok .nothing, rest) => (.ok ([], false), rest)
  | (.ok .pseudoElement, rest) => (.ok ([], true), rest)
  | (.ok (.simple simple), rest) =>
      match readSimples rest with
      | (.error failure, later) => (.error failure, later)
      | (.ok (more, ended), later) => (.ok (simple :: more, ended), later)
termination_by atoms.length
decreasing_by
  rename_i read
  exact length_readPiece_lt read (by simp)

/-- The conditions of a qualified name on the type of an element. -/
def QualifiedName.simples (qualified : QualifiedName) : List Simple :=
  (qualified.name.map Simple.type).toList ++
    if qualified.noNamespace then [.noNamespace] else []

/-- Reads the type selector that a compound selector starts with, if it does. -/
def readType? (atoms : List Atom) : Reading (Option QualifiedName) :=
  readQualifiedName? Atom.component false (atoms.dropWhile (·.component.isWhitespace))

/-- Reads a compound selector, and whether it names a pseudo-element. -/
def readCompound (atoms : List Atom) : Reading (List Simple × Bool) :=
  match readType? atoms with
  | (.error failure, rest) => (.error failure, rest)
  | (.ok type, rest) =>
      match readSimples rest with
      | (.error failure, later) => (.error failure, later)
      | (.ok (simples, ended), later) =>
          if type.isNone && simples.isEmpty && !ended then
            (refuse (.noCompound (later.head?.map (·.component))), later)
          else (.ok ((type.map (·.simples)).getD [] ++ simples, ended), later)

theorem readSimples_suffix (atoms : List Atom) : (readSimples atoms).2 <:+ atoms := by
  fun_induction readSimples atoms with
  | case1 atoms failure rest read => simpa [read] using readPiece_suffix atoms
  | case2 atoms rest read => simpa [read] using readPiece_suffix atoms
  | case3 atoms rest read => simpa [read] using readPiece_suffix atoms
  | case4 atoms simple rest read failure later more ih =>
      have piece := readPiece_suffix atoms
      rw [read] at piece
      rw [more] at ih
      exact ih.trans piece
  | case5 atoms simple rest read others ended later more ih =>
      have piece := readPiece_suffix atoms
      rw [read] at piece
      rw [more] at ih
      exact ih.trans piece

/-- Simple selectors, or a pseudo-element, have been taken off. -/
theorem length_readSimples_lt {atoms rest : List Atom} {simples : List Simple}
    {ended : Bool} (read : readSimples atoms = (.ok (simples, ended), rest))
    (something : simples ≠ [] ∨ ended = true) : rest.length < atoms.length := by
  rw [readSimples] at read
  split at read
  · cases read
  · cases read
    simp at something
  · rename_i piece
    cases read
    exact length_readPiece_lt piece (by simp)
  · rename_i simple after piece
    have later := (readSimples_suffix after).length_le
    have taken := length_readPiece_lt piece (by simp)
    split at read
    · cases read
    · rename_i more
      cases read
      rw [more] at later
      exact Nat.lt_of_le_of_lt later taken

theorem readLocalName_suffix {ι : Type} (view : ι → Component)
    (isAttribute noNamespace : Bool) (items : List ι) :
    (readLocalName view isAttribute noNamespace items).2 <:+ items := by
  unfold readLocalName
  split
  · exact List.suffix_refl _
  · split
    · exact List.suffix_cons ..
    · split
      · exact List.suffix_cons ..
      · exact List.suffix_cons ..

theorem readQualifiedName?_suffix {ι : Type} (view : ι → Component) (isAttribute : Bool)
    (items : List ι) : (readQualifiedName? view isAttribute items).2 <:+ items := by
  unfold readQualifiedName?
  split
  · exact List.suffix_refl _
  · rename_i first rest
    have afterFirst := List.suffix_cons first rest
    have afterSecond := (List.tail_suffix rest).trans afterFirst
    split
    · split
      · exact afterSecond
      · exact afterFirst
    · split
      · split
        · exact (readLocalName_suffix view isAttribute false rest.tail).trans afterSecond
        · split
          · exact afterFirst
          · exact afterFirst
      · split
        · exact (readLocalName_suffix view isAttribute true rest).trans afterFirst
        · exact List.suffix_refl _

/-- A qualified name has been taken off. -/
theorem length_readQualifiedName?_lt {ι : Type} {view : ι → Component}
    {isAttribute : Bool} {items rest : List ι} {name : QualifiedName}
    (read : readQualifiedName? view isAttribute items = (.ok (some name), rest)) :
    rest.length < items.length := by
  unfold readQualifiedName? at read
  split at read
  · cases read
  · rename_i first others
    have afterBar := (readLocalName_suffix view isAttribute false others.tail).length_le
    have afterFirst := (readLocalName_suffix view isAttribute true others).length_le
    have shorter := List.length_tail (l := others)
    have left := congrArg (·.2.length) read
    rw [List.length_cons]
    split at read
    · split at read
      · cases read
      · cases read
        omega
    · split at read
      · split at read
        · have left := congrArg (·.2.length) read
          simp only at left
          omega
        · split at read
          · cases read
          · cases read
            omega
      · split at read
        · have left := congrArg (·.2.length) read
          simp only at left
          omega
        · cases read

theorem length_of_dropWhile_eq_cons {ι : Type} {kind : ι → Bool} {items rest : List ι}
    {next : ι} (skipped : items.dropWhile kind = next :: rest) :
    rest.length < items.length := by
  have left := (List.dropWhile_suffix kind (l := items)).length_le
  rwa [skipped] at left

theorem readType?_suffix (atoms : List Atom) : (readType? atoms).2 <:+ atoms :=
  (readQualifiedName?_suffix ..).trans (List.dropWhile_suffix _)

/-- A type selector has been taken off. -/
theorem length_readType?_lt {atoms rest : List Atom} {name : QualifiedName}
    (read : readType? atoms = (.ok (some name), rest)) : rest.length < atoms.length :=
  Nat.lt_of_lt_of_le (length_readQualifiedName?_lt read) (List.dropWhile_suffix _).length_le

theorem readCompound_suffix (atoms : List Atom) : (readCompound atoms).2 <:+ atoms := by
  have type := readType?_suffix atoms
  unfold readCompound
  split
  · rename_i read
    rwa [read] at type
  · rename_i rest read
    rw [read] at type
    have simples := readSimples_suffix rest
    split
    · rename_i more
      rw [more] at simples
      exact simples.trans type
    · rename_i more
      rw [more] at simples
      split
      · exact simples.trans type
      · exact simples.trans type

/-- A compound selector has been taken off. -/
theorem length_readCompound_lt {atoms rest : List Atom} {compound : List Simple × Bool}
    (read : readCompound atoms = (.ok compound, rest)) : rest.length < atoms.length := by
  unfold readCompound at read
  split at read
  · cases read
  · rename_i type afterType typeRead
    have simplesLength := (readSimples_suffix afterType).length_le
    split at read
    · cases read
    · rename_i simples ended later more
      rw [more] at simplesLength
      split at read
      · cases read
      · rename_i something
        cases read
        cases type with
        | some found => exact Nat.lt_of_le_of_lt simplesLength (length_readType?_lt typeRead)
        | none =>
            have typeLength := (readType?_suffix atoms).length_le
            rw [typeRead] at typeLength
            refine Nat.lt_of_lt_of_le (length_readSimples_lt more ?_) typeLength
            cases simples with
            | nil => exact .inr (by simpa using something)
            | cons => exact .inl (by simp)

/-! ## Selectors -/

/-- A selector that has been read.  It may name a pseudo-element, and it may be
relative to another element. -/
structure ReadSelector where
  combinator : Combinator
  selector : Complex
  hasPseudoElement : Bool

/-- Reads the compound selectors that continue a chain. -/
def readChain (combinator : Combinator) (read : Complex) (ended : Bool)
    (atoms : List Atom) : Reading ReadSelector :=
  let done : Except Failure ReadSelector := .ok ⟨combinator, read, ended⟩
  match _ : atoms.dropWhile (·.component.isGap) with
  | [] => (done, [])
  | next :: rest =>
      if ended || next.component.isDelim "," then (done, next :: rest)
      else
        match combinatorOf? next.component with
        | some sign =>
            match _ : readCompound rest with
            | (.error failure, later) => (.error failure, later)
            | (.ok (simples, ended), later) =>
                readChain combinator (.combined read sign simples) ended later
        | none =>
            if (atoms.takeWhile (·.component.isGap)).any (·.component.isWhitespace) then
              match _ : readCompound (next :: rest) with
              | (.error failure, later) => (.error failure, later)
              | (.ok (simples, ended), later) =>
                  readChain combinator (.combined read .descendant simples) ended later
            else (done, next :: rest)
termination_by atoms.length
decreasing_by
  · rename_i skipped _ compound
    have taken := length_readCompound_lt compound
    have left := length_of_dropWhile_eq_cons skipped
    omega
  · rename_i skipped _ _ compound
    have taken := length_readCompound_lt compound
    have left := length_of_dropWhile_eq_cons skipped
    rw [List.length_cons] at taken
    omega

/-- The combinator that a relative selector starts with, if it starts with one,
and the atoms after it. -/
def readSign (relative : Bool) (atoms : List Atom) : Option Combinator × List Atom :=
  let start := atoms.dropWhile (·.component.isGap)
  match relative, start.head?.bind (combinatorOf? ·.component) with
  | true, some sign => (some sign, start.tail.dropWhile (·.component.isGap))
  | _, _ => (none, start)

/-- Reads a complex selector. -/
def readSelector (relative : Bool) (atoms : List Atom) : Reading ReadSelector :=
  let start := readSign relative atoms
  match readCompound start.2 with
  | (.error failure, rest) => (.error failure, rest)
  | (.ok (simples, ended), rest) =>
      readChain (start.1.getD .descendant) (.compound simples) ended rest

theorem readChain_suffix (combinator : Combinator) (read : Complex) (ended : Bool)
    (atoms : List Atom) : (readChain combinator read ended atoms).2 <:+ atoms := by
  fun_induction readChain combinator read ended atoms with
  | case1 => exact List.nil_suffix
  | case2 _ _ atoms _ next rest skipped =>
      rw [← skipped]
      exact List.dropWhile_suffix _
  | case3 _ _ atoms next rest skipped _ sign _ failure later compound =>
      have taken := readCompound_suffix rest
      have left := skipped ▸ List.dropWhile_suffix (l := atoms) (·.component.isGap)
      rw [compound] at taken
      exact taken.trans ((List.suffix_cons ..).trans left)
  | case4 _ _ atoms next rest skipped _ sign _ simples ended later compound ih =>
      have taken := readCompound_suffix rest
      have left := skipped ▸ List.dropWhile_suffix (l := atoms) (·.component.isGap)
      rw [compound] at taken
      exact ih.trans (taken.trans ((List.suffix_cons ..).trans left))
  | case5 _ _ atoms next rest skipped _ _ _ failure later compound =>
      have taken := readCompound_suffix (next :: rest)
      rw [compound, ← skipped] at taken
      exact taken.trans (List.dropWhile_suffix _)
  | case6 _ _ atoms next rest skipped _ _ _ simples ended later compound ih =>
      have taken := readCompound_suffix (next :: rest)
      rw [compound, ← skipped] at taken
      exact ih.trans (taken.trans (List.dropWhile_suffix _))
  | case7 _ _ atoms _ next rest skipped =>
      rw [← skipped]
      exact List.dropWhile_suffix _

theorem readSign_suffix (relative : Bool) (atoms : List Atom) :
    (readSign relative atoms).2 <:+ atoms := by
  have start := List.dropWhile_suffix (l := atoms) (·.component.isGap)
  unfold readSign
  dsimp only
  split
  · exact (List.dropWhile_suffix _).trans ((List.tail_suffix _).trans start)
  · exact start

theorem readSelector_suffix (relative : Bool) (atoms : List Atom) :
    (readSelector relative atoms).2 <:+ atoms := by
  have start := readSign_suffix relative atoms
  have compound := readCompound_suffix (readSign relative atoms).2
  unfold readSelector
  dsimp only
  split
  · rename_i read
    rw [read] at compound
    exact compound.trans start
  · rename_i rest read
    rw [read] at compound
    exact (readChain_suffix ..).trans (compound.trans start)

/-! ## Lists of selectors -/

/-- Reads the selectors that follow one in a list, and the failure that ends the
list. -/
def readMore (forgiving relative : Bool) : List Atom → List ReadSelector × Option Failure
  | [] => ([], none)
  | next :: rest =>
      if next.component.isDelim "," then
        match _ : readSelector relative rest with
        | (.ok selector, later) =>
            let more := readMore forgiving relative later
            (selector :: more.1, more.2)
        | (.error (.refused refusal), later) =>
            if forgiving then readMore forgiving relative later
            else ([], some (.refused refusal))
        | (.error failure, _) => ([], some failure)
      else if forgiving then readMore forgiving relative rest
      else ([], some (.refused (.unexpected next.component)))
termination_by atoms => atoms.length
decreasing_by
  · rename_i read
    have left := (readSelector_suffix relative rest).length_le
    rw [read] at left
    exact Nat.lt_succ_of_le left
  · rename_i read
    have left := (readSelector_suffix relative rest).length_le
    rw [read] at left
    exact Nat.lt_succ_of_le left
  · simp

/-- Reads a list of selectors, and the failure that ends it.  What a forgiving
list refuses at its start ends it; later it is left out. -/
def readList (forgiving relative : Bool) (atoms : List Atom) :
    List ReadSelector × Option Failure :=
  match readSelector relative atoms with
  | (.ok first, rest) =>
      let more := readMore forgiving relative rest
      (first :: more.1, more.2)
  | (.error (.refused refusal), _) =>
      ([], if forgiving then none else some (.refused refusal))
  | (.error failure, _) => ([], some failure)

/-! ## Functions -/

/-- What a function of selectors means. -/
inductive Logic where
  | anyOf
  | not
  | has
  deriving DecidableEq, Repr

/-- The meaning of a function of selectors. -/
def logicOf? (name : List Char) : Option Logic :=
  match String.ofList name with
  | "is" | "where" => some .anyOf
  | "not" => some .not
  | "has" => some .has
  | _ => none

/-- Reads the arguments of a function of selectors.  Selectors that name a
pseudo-element are left out. -/
def readLogic (logic : Logic) (arguments : List Atom) : Except Failure Simple :=
  let list := readList (logic != .not) (logic == .has) arguments
  match list.2 with
  | some failure => .error failure
  | none =>
      let kept := list.1.filter (!·.hasPseudoElement)
      match logic with
      | .anyOf => .ok (.anyOf (kept.map (·.selector)))
      | .not => .ok (.not (kept.map (·.selector)))
      | .has => .ok (.has (kept.map fun read => .mk read.combinator read.selector))

/-- What the call of a function means. -/
def readCall (name : List Char) (arguments : List Atom) : Except Failure Simple :=
  match logicOf? name with
  | some logic => readLogic logic arguments
  | none =>
      let components := arguments.map (·.component)
      match (splitAtOf Atom.component arguments).2 with
      | none => .ok (.function name components false [] none)
      | some [] => .ok (.function name components true [] none)
      | some (first :: more) =>
          let list := readList false false (first :: more)
          .ok (.function name components true (list.1.map (·.selector)) list.2)

mutual

/-- A component as an atom of a selector. -/
def Atom.ofComponent : Component → Atom
  | .token offset value => .plain (.token offset value)
  | .block offset (.call name) arguments =>
      .call offset name arguments (readCall (lowerAscii name) (atomsOf arguments))
  | .block offset opening content => .plain (.block offset opening content)

/-- Some components as atoms of a selector. -/
def atomsOf : List Component → List Atom
  | [] => []
  | component :: rest => Atom.ofComponent component :: atomsOf rest

end

/-- The selectors that a text spells. -/
def SelectorList.parse (text : String) : SelectorList :=
  let list := readList false false (atomsOf (Component.bareAll (components text.toList)))
  ⟨list.1.map (·.selector), list.2⟩

end StyleSieve.Selector
