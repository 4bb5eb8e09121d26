import StyleSieve.Proofs.Css.Balance

/-!
# Nested lexemes

Nesting keeps open blocks and what stands in them.  Here the lexemes that make up components
are told from the components: those of a block, its opening first, and its closer last.
-/

namespace StyleSieve.Css

/-- The lexemes that make up components inside a block with a closer, if inside any: a closer
that does not close the block is a token. -/
inductive Nests : Option Char → List Component → List (Nat × Lexeme) → Prop where
  | nil {inside : Option Char} : Nests inside [] []
  | token {inside : Option Char} {offset : Nat} {value : Token} {rest : List Component}
      {lexemes : List (Nat × Lexeme)} : Nests inside rest lexemes →
      Nests inside (.token offset value :: rest) ((offset, .token value) :: lexemes)
  | stray {inside : Option Char} {offset : Nat} {closer : Char} {rest : List Component}
      {lexemes : List (Nat × Lexeme)} : inside ≠ some closer → Nests inside rest lexemes →
      Nests inside (.token offset (.fault (.strayCloser closer)) :: rest)
        ((offset, .closer closer) :: lexemes)
  | block {inside : Option Char} {offset place : Nat} {opening : Opening}
      {content rest : List Component} {inner lexemes : List (Nat × Lexeme)} :
      Nests (some opening.closer) content inner → Nests inside rest lexemes →
      Nests inside (.block offset opening content :: rest)
        ((offset, .opening opening) :: (inner ++ (place, .closer opening.closer) :: lexemes))

theorem Nests.append {inside : Option Char} {first second : List Component}
    {firstLexemes secondLexemes : List (Nat × Lexeme)} (nests : Nests inside first firstLexemes)
    (others : Nests inside second secondLexemes) :
    Nests inside (first ++ second) (firstLexemes ++ secondLexemes) := by
  induction nests with
  | nil => exact others
  | token _ ih => exact .token (ih others)
  | stray strays _ ih => exact .stray strays (ih others)
  | block isContent _ _ ih =>
      rw [List.cons_append, List.cons_append, List.append_assoc, List.cons_append]
      exact .block isContent (ih others)

/-- The closer of the innermost open block. -/
def closerOf (blocks : List OpenBlock) : Option Char :=
  blocks.head?.map (·.opening.closer)

/-- Lexemes that make up components are nested as these. -/
theorem Nests.nest_append {inside : Option Char} {components : List Component}
    {lexemes : List (Nat × Lexeme)} (nests : Nests inside components lexemes)
    {blocks : List OpenBlock} (isInside : closerOf blocks = inside) (before : List Component)
    (rest : List (Nat × Lexeme)) :
    nest blocks before (lexemes ++ rest) = nest blocks (components.reverse ++ before) rest := by
  induction nests generalizing blocks before rest with
  | nil => rfl
  | token _ ih =>
      rw [List.cons_append, nest, ih isInside, List.reverse_cons, List.append_assoc]
      rfl
  | @stray inside offset closer others lexemes strays _ ih =>
      have fits : Fits blocks [.token offset (.fault (.strayCloser closer))] := by
        intro block isHead other isStray same
        rw [List.mem_singleton.1 isStray] at same
        cases same
        apply strays
        rw [← isInside, closerOf, isHead]
        rfl
      rw [List.cons_append, nest_strayCloser fits, ih isInside, List.reverse_cons,
        List.append_assoc]
      rfl
  | @block inside offset place opening content _ inner _ _ _ ihContent ih =>
      rw [List.cons_append, nest, List.append_assoc, ihContent rfl, List.cons_append, nest,
        if_pos rfl, ih isInside, List.reverse_cons, List.append_assoc, List.append_nil,
        OpenBlock.close, List.reverse_reverse]
      rfl

theorem Nests.nest_eq {components : List Component} {lexemes : List (Nat × Lexeme)}
    (nests : Nests none components lexemes) : nest [] [] lexemes = components := by
  have nested : nest [] [] (lexemes ++ []) = nest [] (components.reverse ++ []) [] :=
    nests.nest_append rfl [] []
  rw [List.append_nil, List.append_nil, nest, OpenBlock.closeAll, List.reverse_reverse] at nested
  exact nested

/-! ## Open blocks -/

/-- The lexemes read so far, inside open blocks, innermost first, and after the components
`before` of the innermost one, last one first. -/
def NestsOpen : List OpenBlock → List Component → List (Nat × Lexeme) → Prop
  | [], before, lexemes => Nests none before.reverse lexemes
  | block :: outer, before, lexemes =>
      ∃ front inner, lexemes = front ++ (block.offset, .opening block.opening) :: inner ∧
        NestsOpen outer block.before front ∧
          Nests (some block.opening.closer) before.reverse inner

theorem NestsOpen.concat {blocks : List OpenBlock} {before : List Component}
    {lexemes more : List (Nat × Lexeme)} {component : Component}
    (nests : NestsOpen blocks before lexemes) (last : Nests (closerOf blocks) [component] more) :
    NestsOpen blocks (component :: before) (lexemes ++ more) := by
  cases blocks with
  | nil =>
      rw [NestsOpen, List.reverse_cons]
      exact Nests.append nests last
  | cons block outer =>
      obtain ⟨front, inner, rfl, outerNests, isInner⟩ := nests
      refine ⟨front, inner ++ more, ?_, outerNests, ?_⟩
      · rw [List.append_assoc, List.cons_append]
      · rw [List.reverse_cons]
        exact isInner.append last

/-- A closer that fits ends the innermost open block. -/
theorem NestsOpen.close {block : OpenBlock} {outer : List OpenBlock} {before : List Component}
    {lexemes : List (Nat × Lexeme)} (nests : NestsOpen (block :: outer) before lexemes)
    (place : Nat) :
    NestsOpen outer (block.close before)
      (lexemes ++ [(place, .closer block.opening.closer)]) := by
  obtain ⟨front, inner, rfl, outerNests, isInner⟩ := nests
  rw [List.append_assoc]
  exact outerNests.concat (.block isInner .nil)

theorem NestsOpen.step {nested : Nested} {lexemes : List (Nat × Lexeme)}
    (nests : NestsOpen nested.blocks nested.before lexemes) (read : Nat × Lexeme) :
    NestsOpen (nested.step read).blocks (nested.step read).before (lexemes ++ [read]) := by
  obtain ⟨blocks, before⟩ := nested
  obtain ⟨offset, lexeme⟩ := read
  cases lexeme with
  | token value => exact nests.concat (.token .nil)
  | opening opening => exact ⟨lexemes, [], rfl, nests, .nil⟩
  | closer closer =>
      cases blocks with
      | nil => exact nests.concat (.stray nofun .nil)
      | cons block outer =>
          by_cases fits : block.opening.closer = closer
          · rw [Nested.step_closes fits, ← fits]
            exact nests.close offset
          · rw [Nested.step_strays fits]
            exact nests.concat (.stray (fun same => fits (Option.some.inj same)) .nil)

theorem NestsOpen.steps {nested : Nested} {lexemes : List (Nat × Lexeme)}
    (nests : NestsOpen nested.blocks nested.before lexemes) (more : List (Nat × Lexeme)) :
    NestsOpen (nested.steps more).blocks (nested.steps more).before (lexemes ++ more) := by
  induction more generalizing nested lexemes with
  | nil =>
      rw [List.append_nil]
      exact nests
  | cons read rest ih =>
      have later := ih (nests.step read)
      rw [List.append_assoc] at later
      exact later

/-- The closers that open blocks lack. -/
def closersOf (blocks : List OpenBlock) : List (Nat × Lexeme) :=
  blocks.map fun block => (0, .closer block.opening.closer)

theorem NestsOpen.closeAll {blocks : List OpenBlock} {before : List Component}
    {lexemes : List (Nat × Lexeme)} (nests : NestsOpen blocks before lexemes) :
    Nests none (OpenBlock.closeAll blocks before) (lexemes ++ closersOf blocks) := by
  induction blocks generalizing before lexemes with
  | nil =>
      rw [closersOf, List.map_nil, List.append_nil]
      exact nests
  | cons block outer ih =>
      have closed := ih (nests.close 0)
      rw [List.append_assoc] at closed
      exact closed

/-- The components of lexemes are made up of these and of the closers that are lacking. -/
theorem nests_nest (lexemes : List (Nat × Lexeme)) :
    Nests none (nest [] [] lexemes)
      (lexemes ++ closersOf (Nested.steps {} lexemes).blocks) := by
  have start : NestsOpen (Nested.blocks {}) (Nested.before {}) [] := Nests.nil
  rw [nest_eq_closeAll]
  exact (start.steps lexemes).closeAll

/-- Lacking closers may be added. -/
theorem nest_closersOf (lexemes : List (Nat × Lexeme)) :
    nest [] [] (lexemes ++ closersOf (Nested.steps {} lexemes).blocks) = nest [] [] lexemes :=
  (nests_nest lexemes).nest_eq

end StyleSieve.Css
