import StyleSieve.Proofs.Css.Offsets
import StyleSieve.Proofs.Css.Writing

/-!
# Units that are kept

Settling takes an exponent mark that is a unit of its own, or that a hyphen follows in its unit,
for lower case, because the writer escapes it as such.  Where all units are in this form, the
components of a text that was written for legible components have the tokens of these exactly.
-/

namespace StyleSieve.Css

/-- Whether a token has the unit that it is read back with. -/
def Token.keepsUnit : Token → Bool
  | .dimension _ unit => settledUnit unit == unit
  | _ => true

/-- Whether a lexeme has the unit that it is read back with. -/
def Lexeme.keepsUnit : Lexeme → Bool
  | .token value => value.keepsUnit
  | _ => true

theorem Token.settled_of_keepsUnit {token : Token} (keeps : token.keepsUnit = true) :
    token.settled = token := by
  cases token with
  | dimension spelling unit => rw [Token.settled, beq_iff_eq.1 keeps]
  | _ => rfl

/-- The parts of a token: white space is taken apart by its characters. -/
def Token.parts : Token → List Token
  | .whitespace text => text.map fun c => .whitespace [c]
  | value => [value]

namespace Component

mutual

/-- The tokens of a component wherever they stand, white space character by character. -/
def tokens : Component → List Component
  | .token _ (.whitespace text) => text.map fun c => .token 0 (.whitespace [c])
  | .token _ value => [.token 0 value]
  | .block _ opening content => [.block 0 opening (tokensAll content)]

/-- The tokens of some components wherever they stand. -/
def tokensAll : List Component → List Component
  | [] => []
  | component :: rest => component.tokens ++ tokensAll rest

end

mutual

theorem tokens_eq_divided (component : Component) :
    component.tokens = component.divided Token.parts := by
  match component with
  | .token offset value => cases value <;> simp [tokens, divided, Token.parts]
  | .block offset opening content => rw [tokens, divided, tokensAll_eq_dividedAll content]

/-- The tokens of components are these divided into the parts of their tokens. -/
theorem tokensAll_eq_dividedAll (components : List Component) :
    tokensAll components = dividedAll Token.parts components := by
  match components with
  | [] => rfl
  | component :: rest =>
      rw [tokensAll, dividedAll, tokens_eq_divided component, tokensAll_eq_dividedAll rest]

end

/-- Whether all units in some components, at any depth, are read back as they are. -/
def keepUnits (components : List Component) : Bool :=
  (nodesAll components).all (·.lexeme.keepsUnit)

theorem keepUnits_cons (component : Component) (rest : List Component) :
    keepUnits (component :: rest) = (component.nodes.all (·.lexeme.keepsUnit) && keepUnits rest) := by
  rw [keepUnits, nodesAll, List.all_append, keepUnits]

theorem keepUnits_append (first second : List Component) :
    keepUnits (first ++ second) = (keepUnits first && keepUnits second) := by
  rw [keepUnits, nodesAll_append, List.all_append, keepUnits, keepUnits]

mutual

theorem settled_eq_tokens (component : Component) (sound : component.Sound)
    (keeps : component.nodes.all (·.lexeme.keepsUnit) = true) :
    component.settled = component.tokens := by
  match component with
  | .token offset value =>
      cases value with
      | comment text => exact sound.elim
      | whitespace text =>
          rw [settled, tokens, Token.pieces, List.map_map]
          rfl
      | dimension spelling unit =>
          rw [nodes, List.all_cons, Bool.and_eq_true] at keeps
          have isKept : (Token.dimension spelling unit).keepsUnit = true := keeps.1
          rw [settled, tokens, Token.pieces, Token.settled_of_keepsUnit isKept]
          · rfl
          · exact fun _ => Token.noConfusion
          · exact fun _ => Token.noConfusion
          · exact fun _ => Token.noConfusion
      | _ => rfl
  | .block offset opening content =>
      obtain ⟨-, -, soundContent⟩ := sound
      rw [nodes, List.all_cons, Bool.and_eq_true] at keeps
      rw [settled, tokens, settledAll_eq_tokensAll content soundContent keeps.2]

/-- Settling changes no token where the units are kept. -/
theorem settledAll_eq_tokensAll (components : List Component) (sound : SoundAll components)
    (keeps : keepUnits components = true) : settledAll components = tokensAll components := by
  match components with
  | [] => rfl
  | component :: rest =>
      rw [keepUnits_cons, Bool.and_eq_true] at keeps
      rw [settledAll, tokensAll, settled_eq_tokens component sound.1 keeps.1,
        settledAll_eq_tokensAll rest sound.2 keeps.2]

end

end Component

open Component

/-! ## Texts -/

/-- Every unit of a text is read back as it is. -/
inductive KeepsUnits : List Char → Prop where
  | nil : KeepsUnits []
  | step {c : Char} {rest : List Char} :
      (∀ lexeme ∈ (scan c rest).1, lexeme.keepsUnit = true) → KeepsUnits (scan c rest).2 →
      KeepsUnits (c :: rest)

theorem KeepsUnits.of_scan {c : Char} {rest after : List Char} {lexeme : Lexeme}
    (scanned : scan c rest = ([lexeme], after)) (keeps : lexeme.keepsUnit = true)
    (later : KeepsUnits after) : KeepsUnits (c :: rest) := by
  refine .step ?_ ?_
  · rw [scanned]
    exact List.forall_mem_singleton.2 keeps
  · rw [scanned]
    exact later

theorem KeepsUnits.lexemes {text : List Char} (keeps : KeepsUnits text) (offset : Nat) :
    ∀ read ∈ lexemesFrom offset text, read.2.keepsUnit = true := by
  induction keeps generalizing offset with
  | nil =>
      rw [lexemesFrom]
      exact fun read member => by cases member
  | @step c rest here _ ih =>
      rw [lexemesFrom_cons]
      intro read member
      rcases List.mem_append.1 member with inStep | inRest
      · obtain ⟨lexeme, isRead, rfl⟩ := List.mem_map.1 inStep
        exact here lexeme isRead
      · exact ih _ read inRest

theorem KeepsUnits.dropWhile {text : List Char} (keeps : KeepsUnits text) :
    KeepsUnits (text.dropWhile isSpace) := by
  cases keeps with
  | nil => exact .nil
  | @step c rest here later =>
      cases isBlank : isSpace c with
      | true =>
          rw [scan_blank isBlank] at later
          rw [List.dropWhile_cons_of_pos isBlank]
          exact later
      | false =>
          rw [List.dropWhile_cons_of_neg (by simp [isBlank])]
          exact .step here later

theorem KeepsUnits.spaces {text rest : List Char} (areBlank : ∀ c ∈ text, isSpace c = true)
    (keeps : KeepsUnits rest) : KeepsUnits (text ++ rest) := by
  induction text with
  | nil => exact keeps
  | cons c more ih =>
      obtain ⟨isBlank, others⟩ := List.forall_mem_cons.1 areBlank
      exact .of_scan (scan_blank isBlank _) rfl (ih others).dropWhile

theorem KeepsUnits.emptyComment {rest : List Char} (keeps : KeepsUnits rest) :
    KeepsUnits ("/**/".toList ++ rest) :=
  .of_scan (scan_emptyComment rest) rfl keeps

theorem Lexeme.keepsUnit_of_pieces {lexeme : Lexeme} (settled : lexeme.pieces = [lexeme]) :
    lexeme.keepsUnit = true := by
  cases lexeme with
  | token value =>
      cases value with
      | dimension spelling unit =>
          have same : settledUnit unit = unit := by
            simpa [Lexeme.pieces, Token.pieces, Token.settled] using settled
          exact beq_iff_eq.2 same
      | _ => rfl
  | _ => rfl

/-- A text that is read as settled lexemes keeps its units. -/
theorem ScansTo.keepsUnits {rest text : List Char} {lexemes : List (Nat × Lexeme)}
    (scans : ScansTo rest lexemes text) (keeps : KeepsUnits rest) : KeepsUnits text := by
  induction scans with
  | rest => exact keeps
  | scan scanned settled _ ih => exact .of_scan scanned (Lexeme.keepsUnit_of_pieces settled) ih
  | comment _ ih => exact ih.emptyComment
  | spaces areBlank _ ih => exact .spaces areBlank ih

/-- The units in the text of legible components are kept. -/
theorem keepsUnits_write {components : List Component} (sound : SoundAll components) {seam : Char}
    (isSeam : seam ∈ seams) (legible : areLegible seam components = true) {rest : List Char}
    (keeps : KeepsUnits (seam :: rest)) : KeepsUnits (write components ++ seam :: rest) :=
  (ScansTo.write components sound isSeam legible .rest).keepsUnits keeps

/-- The components of a text whose units are kept have units that are kept. -/
theorem KeepsUnits.components {text : List Char} (clean : Clean text) (keeps : KeepsUnits text) :
    keepUnits (significantComponents text) = true := by
  refine List.all_eq_true.2 ?_
  intro node isNode
  obtain ⟨before, readAfter⟩ := exists_readAfter isNode
  have isRead := readAfter.scanned
  rw [clean.normalize] at isRead
  exact keeps.lexemes 0 _ isRead

end StyleSieve.Css
