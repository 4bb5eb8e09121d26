import StyleSieve.Css.Nesting

/-!
# Divided tokens

A token may count as several tokens, or as none.  However tokens are divided, dividing the
lexemes of a text divides the components that they make up, and offsets do not matter.
-/

namespace StyleSieve.Css

section Dividing

variable (parts : Token → List Token)

/-- The lexemes that a lexeme is divided into. -/
def Lexeme.divided : Lexeme → List Lexeme
  | .token value => (parts value).map .token
  | .opening opener => [.opening opener]
  | .closer c => [.closer c]

/-- Divided lexemes, all without an offset. -/
def divideAll (lexemes : List (Nat × Lexeme)) : List (Nat × Lexeme) :=
  lexemes.flatMap fun read => (read.2.divided parts).map ((0, ·))

theorem divideAll_cons (offset : Nat) (lexeme : Lexeme) (rest : List (Nat × Lexeme)) :
    divideAll parts ((offset, lexeme) :: rest) =
      (lexeme.divided parts).map ((0, ·)) ++ divideAll parts rest :=
  rfl

theorem divideAll_append (first second : List (Nat × Lexeme)) :
    divideAll parts (first ++ second) = divideAll parts first ++ divideAll parts second :=
  List.flatMap_append

theorem divideAll_step (offset : Nat) (lexemes : List Lexeme) :
    divideAll parts (lexemes.map (offset, ·)) =
      (lexemes.flatMap (Lexeme.divided parts)).map ((0, ·)) := by
  induction lexemes with
  | nil => rfl
  | cons lexeme rest ih =>
      rw [List.map_cons, divideAll_cons, ih, List.flatMap_cons, List.map_append]

theorem divideAll_lexemesFrom (offset other : Nat) (text : List Char) :
    divideAll parts (lexemesFrom offset text) = divideAll parts (lexemesFrom other text) := by
  fun_induction lexemesFrom offset text generalizing other with
  | case1 => rw [lexemesFrom]
  | case2 offset c rest step ih =>
      rw [lexemesFrom, divideAll_append, divideAll_append, divideAll_step, divideAll_step, ih]

/-- The divided lexemes of a text begin with those of its first step. -/
theorem divideAll_scan (offset : Nat) (c : Char) (rest : List Char) :
    divideAll parts (lexemesFrom offset (c :: rest)) =
      ((scan c rest).1.flatMap (Lexeme.divided parts)).map ((0, ·)) ++
        divideAll parts (lexemesFrom offset (scan c rest).2) := by
  rw [lexemesFrom, divideAll_append, divideAll_step, divideAll_lexemesFrom parts _ offset]

/-! ## White space -/

/-- The lexeme of a blank on its own. -/
def blank (c : Char) : Nat × Lexeme :=
  (0, .token (.whitespace [c]))

section Blanks

variable {parts}
variable (apart : ∀ text, parts (.whitespace text) = text.map fun c => .whitespace [c])

include apart

theorem divideAll_takeWhile (offset : Nat) (text : List Char) :
    divideAll parts (lexemesFrom offset text) =
      (text.takeWhile isSpace).map blank ++
        divideAll parts (lexemesFrom offset (text.dropWhile isSpace)) := by
  cases text with
  | nil => rfl
  | cons c rest =>
      cases isBlank : isSpace c with
      | false => simp [isBlank]
      | true =>
          have scanned : scan c rest =
              ([.token (.whitespace (c :: rest.takeWhile isSpace))], rest.dropWhile isSpace) := by
            rw [scan, if_pos isBlank]
          rw [divideAll_scan, scanned, List.takeWhile_cons_of_pos isBlank,
            List.dropWhile_cons_of_pos isBlank]
          simp [Lexeme.divided, apart, Function.comp_def, blank]

theorem divideAll_space {c : Char} (isBlank : isSpace c = true) (offset : Nat) (rest : List Char) :
    divideAll parts (lexemesFrom offset (c :: rest)) =
      blank c :: divideAll parts (lexemesFrom offset rest) := by
  rw [divideAll_takeWhile apart offset (c :: rest), divideAll_takeWhile apart offset rest,
    List.takeWhile_cons_of_pos isBlank, List.dropWhile_cons_of_pos isBlank]
  rfl

theorem divideAll_spaces {text : List Char} (areBlank : ∀ c ∈ text, isSpace c = true)
    (offset : Nat) (rest : List Char) :
    divideAll parts (lexemesFrom offset (text ++ rest)) =
      text.map blank ++ divideAll parts (lexemesFrom offset rest) := by
  induction text with
  | nil => rfl
  | cons c more ih =>
      obtain ⟨isBlank, others⟩ := List.forall_mem_cons.1 areBlank
      rw [List.cons_append, divideAll_space apart isBlank, ih others]
      rfl

end Blanks

/-! ## Divided components -/

namespace Component

mutual

/-- The components that a component is divided into. -/
def divided : Component → List Component
  | .token _ value => (parts value).map (.token 0)
  | .block _ opening content => [.block 0 opening (dividedAll content)]

/-- The components that some components are divided into. -/
def dividedAll : List Component → List Component
  | [] => []
  | component :: rest => component.divided ++ dividedAll rest

end

theorem dividedAll_append (first second : List Component) :
    dividedAll parts (first ++ second) = dividedAll parts first ++ dividedAll parts second := by
  induction first with
  | nil => rfl
  | cons component rest ih =>
      rw [List.cons_append, dividedAll, dividedAll, ih, List.append_assoc]

/-- Divided components in the order in which an open block keeps them. -/
def dividedRev (before : List Component) : List Component :=
  (dividedAll parts before.reverse).reverse

theorem dividedRev_cons (component : Component) (before : List Component) :
    dividedRev parts (component :: before) =
      (component.divided parts).reverse ++ dividedRev parts before := by
  rw [dividedRev, List.reverse_cons, dividedAll_append, List.reverse_append]
  simp [dividedAll, dividedRev]

end Component

open Component

/-- An open block with what stands before it divided. -/
def OpenBlock.divided (block : OpenBlock) : OpenBlock :=
  ⟨0, block.opening, dividedRev parts block.before⟩

theorem OpenBlock.close_divided (block : OpenBlock) (content : List Component) :
    (block.divided parts).close (dividedRev parts content) =
      dividedRev parts (block.close content) := by
  rw [OpenBlock.close, OpenBlock.close, dividedRev_cons, Component.divided]
  simp [OpenBlock.divided, dividedRev]

theorem closeAll_divided (blocks : List OpenBlock) (content : List Component) :
    OpenBlock.closeAll (blocks.map (OpenBlock.divided parts)) (dividedRev parts content) =
      dividedAll parts (OpenBlock.closeAll blocks content) := by
  induction blocks generalizing content with
  | nil => simp [OpenBlock.closeAll, dividedRev]
  | cons block outer ih =>
      rw [OpenBlock.closeAll, ← ih, List.map_cons, OpenBlock.closeAll, OpenBlock.close_divided]

theorem nest_tokens (blocks : List OpenBlock) (before : List Component) (tokens : List Token)
    (rest : List (Nat × Lexeme)) :
    nest blocks before ((tokens.map .token).map ((0, ·)) ++ rest) =
      nest blocks ((tokens.map (.token 0)).reverse ++ before) rest := by
  induction tokens generalizing before with
  | nil => rfl
  | cons token more ih =>
      rw [List.map_cons, List.map_cons, List.cons_append, nest, ih]
      simp

/-- Dividing lexemes divides the components that they make up, where a stray closer counts as
itself. -/
theorem nest_divideAll
    (strays : ∀ closer, parts (.fault (.strayCloser closer)) = [.fault (.strayCloser closer)])
    (blocks : List OpenBlock) (before : List Component) (lexemes : List (Nat × Lexeme)) :
    nest (blocks.map (OpenBlock.divided parts)) (dividedRev parts before)
        (divideAll parts lexemes) =
      dividedAll parts (nest blocks before lexemes) := by
  fun_induction nest blocks before lexemes with
  | case1 blocks before => exact closeAll_divided parts blocks before
  | case2 blocks before offset token rest ih =>
      rw [← ih, dividedRev_cons, divideAll_cons, Lexeme.divided, nest_tokens, Component.divided]
  | case3 blocks before offset opening rest ih => exact ih
  | case4 before offset rest block outer ih =>
      rw [← ih, divideAll_cons, Lexeme.divided, List.map_singleton, List.singleton_append,
        List.map_cons, nest, if_pos (by rfl), OpenBlock.close_divided]
  | case5 before offset closer rest block outer unfit ih =>
      have unfitDivided : ¬(block.divided parts).opening.closer = closer := unfit
      rw [← ih, divideAll_cons, Lexeme.divided, List.map_singleton, List.singleton_append,
        List.map_cons, nest, if_neg unfitDivided, dividedRev_cons, Component.divided, strays]
      rfl
  | case6 before offset closer rest ih =>
      rw [← ih, dividedRev_cons, Component.divided, strays]
      rfl

end Dividing

end StyleSieve.Css
