import StyleSieve.Css.Progress

/-!
# Nesting

Openings and closers of the scanned text become blocks.  A closer ends the
innermost open block when it fits and is a stray token otherwise; the end of
the text closes every block that is still open.
-/

namespace StyleSieve.Css

/-- The lexemes of a text that starts `offset` characters into its source, each
with the number of characters before it. -/
def lexemesFrom (offset : Nat) (text : List Char) : List (Nat × Lexeme) :=
  match text with
  | [] => []
  | c :: rest =>
      let step := scan c rest
      step.1.map (offset, ·) ++
        lexemesFrom (offset + (text.length - step.2.length)) step.2
termination_by text.length
decreasing_by
  simpa using Nat.lt_succ_of_le (scan_suffix c rest).length_le

/-- A block whose closer has not been read yet: what opened it, and the
components before it, last one first. -/
structure OpenBlock where
  offset : Nat
  opening : Opening
  before : List Component

namespace OpenBlock

/-- The components around a block, last one first, once the block is closed
with the given components, last one first. -/
def close (block : OpenBlock) (content : List Component) : List Component :=
  .block block.offset block.opening content.reverse :: block.before

/-- The components of a text that ends inside open blocks, innermost first. -/
def closeAll : List OpenBlock → List Component → List Component
  | [], content => content.reverse
  | block :: outer, content => closeAll outer (block.close content)

end OpenBlock

/-- The component tree of lexemes read inside open blocks, innermost first;
`before` holds the components of the innermost one so far, last one first. -/
def nest (blocks : List OpenBlock) (before : List Component) :
    List (Nat × Lexeme) → List Component
  | [] => OpenBlock.closeAll blocks before
  | (offset, .token token) :: rest => nest blocks (.token offset token :: before) rest
  | (offset, .opening opening) :: rest =>
      nest (⟨offset, opening, before⟩ :: blocks) [] rest
  | (offset, .closer closer) :: rest =>
      match blocks with
      | block :: outer =>
          if block.opening.closer = closer then nest outer (block.close before) rest
          else nest blocks (.token offset (.fault (.strayCloser closer)) :: before) rest
      | [] => nest [] (.token offset (.fault (.strayCloser closer)) :: before) rest

/-- Whether a lexeme is a comment. -/
def Lexeme.isComment : Lexeme → Bool
  | .token (.comment _) => true
  | _ => false

/-- The components of a text, comments included. -/
def components (text : List Char) : List Component :=
  nest [] [] (lexemesFrom 0 (normalizeNewlines text))

/-- The components of a text without its comments, at any depth. -/
def significantComponents (text : List Char) : List Component :=
  nest [] [] ((lexemesFrom 0 (normalizeNewlines text)).filter (!·.2.isComment))

end StyleSieve.Css
