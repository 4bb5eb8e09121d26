import StyleSieve.Proofs.Css.Closing

/-!
# Balanced lexemes

Nesting reads lexemes one by one.  Where those read so far close every block that they open,
the components before and after are read apart.
-/

namespace StyleSieve.Css

/-! ## Nesting step by step -/

/-- How far nesting has come: the open blocks, innermost first, and the components of the
innermost one so far, last one first. -/
structure Nested where
  blocks : List OpenBlock := []
  before : List Component := []

namespace Nested

/-- Nesting one lexeme further. -/
def step (nested : Nested) : Nat × Lexeme → Nested
  | (offset, .token value) => { nested with before := .token offset value :: nested.before }
  | (offset, .opening opening) => ⟨⟨offset, opening, nested.before⟩ :: nested.blocks, []⟩
  | (offset, .closer closer) =>
      match nested.blocks with
      | block :: outer =>
          if block.opening.closer = closer then ⟨outer, block.close nested.before⟩
          else { nested with before := .token offset (.fault (.strayCloser closer)) :: nested.before }
      | [] => ⟨[], .token offset (.fault (.strayCloser closer)) :: nested.before⟩

theorem step_closes {block : OpenBlock} {closer : Char} (fits : block.opening.closer = closer)
    (outer : List OpenBlock) (before : List Component) (offset : Nat) :
    step ⟨block :: outer, before⟩ (offset, .closer closer) = ⟨outer, block.close before⟩ :=
  if_pos fits

theorem step_strays {block : OpenBlock} {closer : Char} (strays : ¬block.opening.closer = closer)
    (outer : List OpenBlock) (before : List Component) (offset : Nat) :
    step ⟨block :: outer, before⟩ (offset, .closer closer) =
      ⟨block :: outer, .token offset (.fault (.strayCloser closer)) :: before⟩ :=
  if_neg strays

/-- Nesting some lexemes further. -/
def steps (nested : Nested) (lexemes : List (Nat × Lexeme)) : Nested :=
  lexemes.foldl step nested

@[simp] theorem steps_nil (nested : Nested) : nested.steps [] = nested := rfl

@[simp] theorem steps_cons (nested : Nested) (read : Nat × Lexeme)
    (rest : List (Nat × Lexeme)) : nested.steps (read :: rest) = (nested.step read).steps rest :=
  rfl

theorem steps_append (nested : Nested) (first second : List (Nat × Lexeme)) :
    nested.steps (first ++ second) = (nested.steps first).steps second :=
  List.foldl_append

/-- Nesting that has come so far with components put before the outermost ones. -/
def onto (base : List Component) : List OpenBlock → List Component → Nested
  | [], before => ⟨[], before ++ base⟩
  | block :: outer, before =>
      let below := onto base outer block.before
      ⟨⟨block.offset, block.opening, below.before⟩ :: below.blocks, before⟩

theorem onto_cons (base : List Component) (component : Component) (blocks : List OpenBlock)
    (before : List Component) :
    onto base blocks (component :: before) =
      ⟨(onto base blocks before).blocks, component :: (onto base blocks before).before⟩ := by
  cases blocks <;> rfl

/-- What stands before the outermost components does not change a step. -/
theorem step_onto (base : List Component) (nested : Nested) (read : Nat × Lexeme) :
    (onto base nested.blocks nested.before).step read =
      onto base (nested.step read).blocks (nested.step read).before := by
  obtain ⟨blocks, before⟩ := nested
  obtain ⟨offset, lexeme⟩ := read
  cases lexeme with
  | token value => exact (onto_cons base _ blocks before).symm
  | opening opening => rfl
  | closer closer =>
      cases blocks with
      | nil => rfl
      | cons block outer =>
          have shape : onto base (block :: outer) before =
              ⟨⟨block.offset, block.opening, (onto base outer block.before).before⟩ ::
                (onto base outer block.before).blocks, before⟩ := rfl
          by_cases fits : block.opening.closer = closer
          · rw [step_closes fits, shape, step_closes (by exact fits)]
            exact (onto_cons base _ outer block.before).symm
          · rw [step_strays fits, shape, step_strays (by exact fits)]
            rfl

theorem steps_onto (base : List Component) (nested : Nested) (lexemes : List (Nat × Lexeme)) :
    (onto base nested.blocks nested.before).steps lexemes =
      onto base (nested.steps lexemes).blocks (nested.steps lexemes).before := by
  induction lexemes generalizing nested with
  | nil => rfl
  | cons read rest ih => rw [steps_cons, steps_cons, step_onto, ih]

theorem closeAll_onto (base : List Component) (blocks : List OpenBlock)
    (before : List Component) :
    OpenBlock.closeAll (onto base blocks before).blocks (onto base blocks before).before =
      base.reverse ++ OpenBlock.closeAll blocks before := by
  induction blocks generalizing before with
  | nil => exact List.reverse_append
  | cons block outer ih =>
      rw [OpenBlock.closeAll, ← ih, OpenBlock.close, onto_cons]
      rfl

end Nested

theorem nest_eq_closeAll (blocks : List OpenBlock) (before : List Component)
    (lexemes : List (Nat × Lexeme)) :
    nest blocks before lexemes =
      OpenBlock.closeAll (Nested.steps ⟨blocks, before⟩ lexemes).blocks
        (Nested.steps ⟨blocks, before⟩ lexemes).before := by
  induction blocks, before, lexemes using nest.induct with
  | case1 blocks before => rfl
  | case2 blocks before offset value rest ih => exact ih
  | case3 blocks before offset opening rest ih => exact ih
  | case4 before offset rest block outer ih =>
      rw [nest, if_pos rfl, ih, Nested.steps_cons, Nested.step_closes rfl]
  | case5 before offset closer rest block outer strays ih =>
      rw [nest, if_neg strays, ih, Nested.steps_cons, Nested.step_strays strays]
  | case6 before offset closer rest ih => exact ih

/-! ## Balance -/

/-- Lexemes that close every block that they open. -/
def Balanced (lexemes : List (Nat × Lexeme)) : Prop :=
  (Nested.steps {} lexemes).blocks = []

instance (lexemes : List (Nat × Lexeme)) : Decidable (Balanced lexemes) :=
  decidable_of_iff ((Nested.steps {} lexemes).blocks.isEmpty = true) List.isEmpty_iff

/-- The components of balanced lexemes stand before those of the lexemes that follow. -/
theorem nest_append_of_balanced {first : List (Nat × Lexeme)} (balanced : Balanced first)
    (second : List (Nat × Lexeme)) :
    nest [] [] (first ++ second) = nest [] [] first ++ nest [] [] second := by
  rw [nest_eq_closeAll, nest_eq_closeAll, nest_eq_closeAll, Nested.steps_append]
  obtain ⟨before, state⟩ : ∃ before, Nested.steps {} first = ⟨[], before⟩ :=
    ⟨_, congrArg (Nested.mk · _) balanced⟩
  rw [state]
  have base := Nested.steps_onto before {} second
  rw [Nested.onto, List.nil_append] at base
  rw [base, Nested.closeAll_onto]
  rfl

/-! ## White space -/

/-- White space opens and closes nothing. -/
theorem blocks_steps_blank (nested : Nested) {gap : List (Nat × Lexeme)} (isGap : AreBlank gap) :
    (nested.steps gap).blocks = nested.blocks := by
  induction gap generalizing nested with
  | nil => rfl
  | cons read rest ih =>
      obtain ⟨offset, lexeme⟩ := read
      have isBlank := isGap _ List.mem_cons_self
      cases lexeme with
      | token value => exact ih _ fun later member => isGap later (List.mem_cons_of_mem _ member)
      | opening opening => cases isBlank
      | closer closer => cases isBlank

theorem balanced_append_blank {lexemes gap : List (Nat × Lexeme)} (isGap : AreBlank gap) :
    Balanced (lexemes ++ gap) ↔ Balanced lexemes := by
  rw [Balanced, Balanced, Nested.steps_append, blocks_steps_blank _ isGap]

/-- White space after some components makes up white space. -/
theorem nest_blank (before : List Component) {gap : List (Nat × Lexeme)} (isGap : AreBlank gap) :
    ∃ blanks, (∀ component ∈ blanks, component.isWhitespace = true) ∧
      nest [] before gap = before.reverse ++ blanks := by
  induction gap generalizing before with
  | nil =>
      refine ⟨[], nofun, ?_⟩
      rw [List.append_nil]
      rfl
  | cons read rest ih =>
      obtain ⟨offset, lexeme⟩ := read
      have isBlank := isGap _ List.mem_cons_self
      cases lexeme with
      | token value =>
          obtain ⟨blanks, areBlank, whole⟩ := ih (.token offset value :: before)
            fun later member => isGap later (List.mem_cons_of_mem _ member)
          refine ⟨.token offset value :: blanks, List.forall_mem_cons.2 ⟨?_, areBlank⟩, ?_⟩
          · cases value with
            | whitespace text => rfl
            | _ => cases isBlank
          · rw [nest, whole, List.reverse_cons, List.append_assoc]
            rfl
      | opening opening => cases isBlank
      | closer closer => cases isBlank

end StyleSieve.Css
