import StyleSieve.Css.Statement
import StyleSieve.Proofs.Css.Settling

/-!
# Shifted components

A text that starts further on in its source has the same lexemes and the same components,
each with more characters before it.  Settling them removes the difference.
-/

namespace StyleSieve.Css

open Component

/-! ## Lexemes -/

/-- A lexeme with `count` more characters before it. -/
def shiftedLexeme (count : Nat) (read : Nat × Lexeme) : Nat × Lexeme :=
  (read.1 + count, read.2)

theorem lexemesFrom_add (offset count : Nat) (text : List Char) :
    lexemesFrom (offset + count) text = (lexemesFrom offset text).map (shiftedLexeme count) := by
  induction offset, text using lexemesFrom.induct with
  | case1 offset => rw [lexemesFrom, lexemesFrom, List.map_nil]
  | case2 offset c rest step ih =>
      rw [lexemesFrom, lexemesFrom, List.map_append, List.map_map, Nat.add_right_comm]
      exact congrArg _ ih

theorem filter_shifted (count : Nat) (lexemes : List (Nat × Lexeme)) :
    (lexemes.map (shiftedLexeme count)).filter (!·.2.isComment) =
      (lexemes.filter (!·.2.isComment)).map (shiftedLexeme count) := by
  rw [List.filter_map]
  rfl

/-! ## Components -/

namespace Component

mutual

/-- A component with `count` more characters before it. -/
def shifted (count : Nat) : Component → Component
  | .token offset value => .token (offset + count) value
  | .block offset opening content => .block (offset + count) opening (shiftedAll count content)

/-- Some components with `count` more characters before each. -/
def shiftedAll (count : Nat) : List Component → List Component
  | [] => []
  | component :: rest => component.shifted count :: shiftedAll count rest

end

theorem shiftedAll_eq_map (count : Nat) (components : List Component) :
    shiftedAll count components = components.map (shifted count) := by
  induction components with
  | nil => rfl
  | cons component rest ih => rw [shiftedAll, ih, List.map_cons]

mutual

/-- Settling a shifted component settles the component. -/
theorem settled_shifted (count : Nat) (component : Component) :
    (component.shifted count).settled = component.settled := by
  cases component with
  | token offset value => rfl
  | block offset opening content =>
      rw [shifted, settled, settled, settledAll_shifted count content]

theorem settledAll_shifted (count : Nat) (components : List Component) :
    settledAll (shiftedAll count components) = settledAll components := by
  cases components with
  | nil => rfl
  | cons component rest =>
      rw [shiftedAll, settledAll, settledAll, settled_shifted count component,
        settledAll_shifted count rest]

end

@[simp] theorem offset_shifted (count : Nat) (component : Component) :
    (component.shifted count).offset = component.offset + count := by
  cases component <;> rfl

@[simp] theorem token?_shifted (count : Nat) (component : Component) :
    (component.shifted count).token? = component.token? := by
  cases component <;> rfl

@[simp] theorem isDelim_shifted (count : Nat) (component : Component) (text : String) :
    (component.shifted count).isDelim text = component.isDelim text := by
  rw [isDelim, isDelim, token?_shifted]

@[simp] theorem atKeyword?_shifted (count : Nat) (component : Component) :
    (component.shifted count).atKeyword? = component.atKeyword? := by
  rcases component with ⟨offset, value⟩ | _
  · cases value <;> rfl
  · rfl

@[simp] theorem curlyContent?_shifted (count : Nat) (component : Component) :
    (component.shifted count).curlyContent? = component.curlyContent?.map (shiftedAll count) := by
  rcases component with _ | ⟨offset, opening, content⟩
  · rfl
  · cases opening <;> rfl

@[simp] theorem isGap_shifted (count : Nat) (component : Component) :
    (component.shifted count).isGap = component.isGap := by
  rcases component with ⟨offset, value⟩ | _
  · cases value <;> rfl
  · rfl

end Component

/-! ## Nesting -/

/-- An open block with `count` more characters before it. -/
def OpenBlock.shifted (count : Nat) (block : OpenBlock) : OpenBlock :=
  ⟨block.offset + count, block.opening, block.before.map (Component.shifted count)⟩

theorem OpenBlock.close_shifted (count : Nat) (block : OpenBlock) (content : List Component) :
    (block.shifted count).close (content.map (Component.shifted count)) =
      (block.close content).map (Component.shifted count) := by
  rw [close, close, List.map_cons, Component.shifted, shiftedAll_eq_map, List.map_reverse]
  rfl

theorem closeAll_shifted (count : Nat) (blocks : List OpenBlock) (content : List Component) :
    OpenBlock.closeAll (blocks.map (OpenBlock.shifted count))
        (content.map (Component.shifted count)) =
      (OpenBlock.closeAll blocks content).map (Component.shifted count) := by
  induction blocks generalizing content with
  | nil => rw [List.map_nil, OpenBlock.closeAll, OpenBlock.closeAll, List.map_reverse]
  | cons block outer ih =>
      rw [List.map_cons, OpenBlock.closeAll, OpenBlock.closeAll, OpenBlock.close_shifted, ih]

/-- Shifted lexemes make up shifted components. -/
theorem nest_shifted (count : Nat) (blocks : List OpenBlock) (before : List Component)
    (lexemes : List (Nat × Lexeme)) :
    nest (blocks.map (OpenBlock.shifted count)) (before.map (Component.shifted count))
        (lexemes.map (shiftedLexeme count)) =
      (nest blocks before lexemes).map (Component.shifted count) := by
  induction blocks, before, lexemes using nest.induct with
  | case1 blocks before => exact closeAll_shifted count blocks before
  | case2 blocks before offset value rest ih => exact ih
  | case3 blocks before offset opening rest ih => exact ih
  | case4 before offset rest block outer ih =>
      rw [nest, if_pos rfl, ← ih, ← OpenBlock.close_shifted]
      exact if_pos rfl
  | case5 before offset closer rest block outer strays ih =>
      rw [nest, if_neg strays, ← ih]
      exact if_neg strays
  | case6 before offset closer rest ih => exact ih

end StyleSieve.Css
