import StyleSieve.Css.Statement
import StyleSieve.Proofs.Css.Seams
import StyleSieve.Proofs.Css.Settling

/-!
# Reading written components

The writer puts an empty comment between two components that would run together, but not
between all of them.  Components are legible when each of them is kept by its text and
ends where the next one begins; then their text spells them again, settled.
-/

namespace StyleSieve.Css

open Component

/-! ## Settled lexemes of texts -/

theorem plain_scan {c : Char} {rest after : List Char} {lexeme : Lexeme}
    (scanned : scan c rest = ([lexeme], after)) :
    plain (c :: rest) = lexeme.pieces.map ((0, ·)) ++ plain after := by
  rw [plain_cons, scanned, List.flatMap_singleton]

theorem plain_space {c : Char} (isBlank : isSpace c = true) (rest : List Char) :
    plain (c :: rest) = blank c :: plain rest := by
  rw [plain, plain, settleAll_eq_divideAll, settleAll_eq_divideAll]
  exact divideAll_space (fun _ => rfl) isBlank 0 rest

theorem plain_spaces {text : List Char} (areBlank : ∀ c ∈ text, isSpace c = true)
    (rest : List Char) : plain (text ++ rest) = text.map blank ++ plain rest := by
  rw [plain, plain, settleAll_eq_divideAll, settleAll_eq_divideAll]
  exact divideAll_spaces (fun _ => rfl) areBlank 0 rest

theorem scan_emptyComment (rest : List Char) :
    scan '/' ('*' :: '*' :: '/' :: rest) = ([.token (.comment [])], rest) := by
  rw [scan_symbol (by decide) (by decide) rfl (takeNumber?_none (by decide) (by decide)
    (by decide) _)]
  simp [scanSymbol, takeComment]

theorem plain_emptyComment (rest : List Char) : plain ("/**/".toList ++ rest) = plain rest :=
  plain_scan (scan_emptyComment rest)

/-! ## Tokens -/

theorem settledUnit_idem (unit : List Char) :
    settledUnit (settledUnit unit) = settledUnit unit := by
  match unit with
  | [] => rfl
  | [c] =>
      cases mark : isExponentMark c <;> simp [settledUnit, mark]
  | c :: d :: rest =>
      by_cases isDash : d = '-'
      · subst isDash
        cases mark : isExponentMark c <;> simp [settledUnit, mark]
      · have same : settledUnit (c :: d :: rest) = c :: d :: rest := by
          rw [settledUnit]
          · exact fun _ shape => by cases shape
          · exact fun _ _ shape => isDash (List.cons.inj (List.cons.inj shape).2).1
        rw [same, same]

theorem spreadAll_append (first second : List Component) :
    spreadAll (first ++ second) = spreadAll first ++ spreadAll second := by
  induction first with
  | nil => rfl
  | cons component rest ih =>
      rw [List.cons_append, spreadAll, spreadAll, ih, List.append_assoc]

/-- A token other than white space is settled as one token, which is read as it is. -/
theorem settled_solid {token : Token} (kept : token.isKept = true)
    (solid : ∀ text, token ≠ .whitespace text) (offset : Nat) :
    spreadAll (Component.token offset token).settled = [(0, .token token.settled)] ∧
      token.settled.pieces = [token.settled] := by
  cases token with
  | whitespace text => exact absurd rfl (solid text)
  | comment text => cases kept
  | fault cause => cases kept
  | dimension spelling unit =>
      refine ⟨rfl, ?_⟩
      rw [Token.settled, Token.pieces, Token.settled, settledUnit_idem]
      · exact fun _ => Token.noConfusion
      · exact fun _ => Token.noConfusion
  | _ => exact ⟨rfl, rfl⟩

theorem settled_blanks (text : List Char) (offset : Nat) :
    spreadAll (Component.token offset (.whitespace text)).settled = text.map blank := by
  rw [Component.settled, Token.pieces]
  induction text with
  | nil => rfl
  | cons c more ih =>
      rw [List.map_cons, List.map_cons, spreadAll, ih]
      rfl

/-- Scanning a text gives settled lexemes before it comes to `rest`.  White space stands for
its characters, since the scanner takes as much of it at once as there is, and an empty
comment stands for nothing. -/
inductive ScansTo (rest : List Char) : List (Nat × Lexeme) → List Char → Prop where
  | rest : ScansTo rest [] rest
  | scan {c : Char} {text after : List Char} {lexeme : Lexeme} {lexemes : List (Nat × Lexeme)} :
      scan c text = ([lexeme], after) → lexeme.pieces = [lexeme] → ScansTo rest lexemes after →
      ScansTo rest ((0, lexeme) :: lexemes) (c :: text)
  | comment {text : List Char} {lexemes : List (Nat × Lexeme)} : ScansTo rest lexemes text →
      ScansTo rest lexemes ("/**/".toList ++ text)
  | spaces {blanks text : List Char} {lexemes : List (Nat × Lexeme)} :
      (∀ c ∈ blanks, isSpace c = true) → ScansTo rest lexemes text →
      ScansTo rest (blanks.map blank ++ lexemes) (blanks ++ text)

variable {rest : List Char}

theorem ScansTo.plain_eq {text : List Char} {lexemes : List (Nat × Lexeme)}
    (scans : ScansTo rest lexemes text) : plain text = lexemes ++ plain rest := by
  induction scans with
  | rest => rfl
  | scan scanned settled _ ih => rw [plain_scan scanned, settled, ih]; rfl
  | comment _ ih => rw [plain_emptyComment, ih]
  | spaces areBlank _ ih => rw [plain_spaces areBlank, ih, List.append_assoc]

/-- A token that is kept is read from its text, settled. -/
theorem ScansTo.writeToken {token : Token} (sound : token.Sound) (kept : token.isKept = true)
    (offset : Nat) {text : List Char} (ends : token.endsBefore text = true)
    {lexemes : List (Nat × Lexeme)} (scans : ScansTo rest lexemes text) :
    ScansTo rest (spreadAll (Component.token offset token).settled ++ lexemes)
      (token.write ++ text) := by
  by_cases isBlank : ∃ blanks, token = .whitespace blanks
  · obtain ⟨blanks, rfl⟩ := isBlank
    rw [settled_blanks]
    exact .spaces sound.2 scans
  · have solid : ∀ blanks, token ≠ .whitespace blanks := fun blanks same => isBlank ⟨blanks, same⟩
    obtain ⟨spread, pieces⟩ := settled_solid kept solid offset
    obtain ⟨c, more, whole, scanned⟩ := scan_write sound kept solid ends
    rw [whole, spread]
    exact .scan scanned (congrArg (List.map Lexeme.token) pieces) scans

/-- The text of a token that is kept gives the settled lexemes of the token. -/
theorem plain_writeToken {token : Token} (sound : token.Sound) (kept : token.isKept = true)
    (offset : Nat) {rest : List Char} (ends : token.endsBefore rest = true) :
    plain (token.write ++ rest) = spreadAll (Component.token offset token).settled ++ plain rest := by
  have scans : ScansTo rest [] rest := .rest
  have whole := scans.writeToken sound kept offset ends
  rw [List.append_nil] at whole
  exact whole.plain_eq

/-! ## Components -/

/-- Whether a text cannot continue a component. -/
def Component.endsBefore : Component → List Char → Bool
  | .token _ (.fault (.strayCloser _)), _ => true
  | .token _ value, text => value.endsBefore text
  | .block .., _ => true

theorem Component.endsBefore_seam {seam : Char} (isSeam : seam ∈ seams) (component : Component)
    (text rest : List Char) :
    component.endsBefore (text ++ seam :: rest) = component.endsBefore (text ++ [seam]) := by
  unfold Component.endsBefore
  split
  · rfl
  · exact Token.endsBefore_seam isSeam text rest _
  · rfl

/-- A component that would run into another one ends before a comment. -/
theorem Component.endsBefore_comment {component : Component} {after : Kind}
    (runs : component.kind.runsInto after = true) (rest : List Char) :
    component.endsBefore ("/**/".toList ++ rest) = true := by
  unfold Component.endsBefore
  split
  · rfl
  · refine Token.endsBefore_comment ?_ rest
    intro same
    rw [same] at runs
    cases runs
  · rfl

/-- Whether a component ends where the next one begins, or the given character if it is
the last one: the writer puts a comment between them, or nothing is needed. -/
def meets (seam : Char) (component : Component) (rest : List Component) : Bool :=
  match rest with
  | [] => component.endsBefore [seam]
  | next :: _ =>
      component.kind.runsInto next.kind ||
        ((separator component.kind next).isEmpty &&
          component.endsBefore (write rest ++ [seam]))

mutual

/-- Whether a component is kept by its text. -/
def Component.isLegible : Component → Bool
  | .token _ (.fault (.strayCloser _)) => true
  | .token _ value => value.isKept
  | .block _ opening content =>
      opening.opensBefore (write content ++ [opening.closer]) &&
        areLegible opening.closer content

/-- Whether some components before a character are kept by their text and end where the
next one begins. -/
def areLegible (seam : Char) : List Component → Bool
  | [] => true
  | component :: rest =>
      component.isLegible && meets seam component rest && areLegible seam rest

end

theorem separator_other (next : Component) : separator .other next = [] :=
  rfl

theorem writeFrom_cons (before : Kind) (component : Component) (rest : List Component) :
    writeFrom before (component :: rest) =
      separator before component ++ (component.write ++ writeFrom component.kind rest) := by
  rw [writeFrom, List.append_assoc]

theorem writeFrom_eq (before : Kind) (next : Component) (rest : List Component) :
    writeFrom before (next :: rest) = separator before next ++ write (next :: rest) := by
  rw [write, writeFrom_cons, writeFrom_cons, separator_other, List.nil_append]

mutual

/-- Nothing legible ends inside a string. -/
theorem endsInString_of_isLegible (component : Component)
    (legible : component.isLegible = true) : component.endsInString = false := by
  match component with
  | .token offset value =>
      cases value with
      | fault cause =>
          cases cause with
          | unclosedString => cases legible
          | _ => rfl
      | _ => rfl
  | .block offset opening content =>
      rw [Component.isLegible, Bool.and_eq_true] at legible
      cases opening with
      | call name => exact lastEndsInString_of_areLegible content legible.2
      | _ => rfl

theorem lastEndsInString_of_areLegible (components : List Component) {seam : Char}
    (legible : areLegible seam components = true) :
    Component.endsInString.lastEndsInString components = false := by
  match components with
  | [] => rfl
  | [last] =>
      rw [areLegible, Bool.and_eq_true, Bool.and_eq_true] at legible
      exact endsInString_of_isLegible last legible.1.1
  | _ :: next :: rest =>
      rw [areLegible, Bool.and_eq_true] at legible
      exact lastEndsInString_of_areLegible (next :: rest) legible.2

end

theorem write_block {offset : Nat} {opening : Opening} {content : List Component}
    (legible : (Component.block offset opening content).isLegible = true) :
    (Component.block offset opening content).write =
      opening.write ++ (write content ++ [opening.closer]) := by
  have whole := endsInString_of_isLegible _ legible
  cases opening with
  | call name => rw [Component.write, whole, Opening.write, List.append_assoc]; rfl
  | round => rw [Component.write]; rfl
  | square => rw [Component.write]; rfl
  | curly => rw [Component.write]; rfl

theorem closer_spec (opening : Opening) :
    opening.closer ∈ seams ∧ opening.closer ∈ ['\x7d', ']', ')'] ∧
      isSpace opening.closer = false := by
  have round : ')' ∈ seams ∧ ')' ∈ ['\x7d', ']', ')'] ∧ isSpace ')' = false := by decide
  cases opening with
  | round => exact round
  | call name => exact round
  | square => exact by decide
  | curly => exact by decide

/-- A token that is no closer is sound, legible and ended as a component like as a token. -/
theorem token_spec {value : Token} (notStray : ∀ closer, value ≠ .fault (.strayCloser closer))
    (offset : Nat) :
    ((Component.token offset value).Sound → value.Sound) ∧
      (Component.token offset value).isLegible = value.isKept ∧
        ∀ text, (Component.token offset value).endsBefore text = value.endsBefore text := by
  cases value with
  | comment text => exact ⟨False.elim, rfl, fun _ => rfl⟩
  | fault cause =>
      cases cause with
      | strayCloser closer => exact absurd rfl (notStray closer)
      | _ => exact ⟨id, rfl, fun _ => rfl⟩
  | _ => exact ⟨id, rfl, fun _ => rfl⟩

mutual

/-- A legible component is read from its text, settled. -/
theorem ScansTo.writeComponent (component : Component) (sound : component.Sound)
    (legible : component.isLegible = true) {text : List Char}
    (ends : component.endsBefore text = true) {lexemes : List (Nat × Lexeme)}
    (scans : ScansTo rest lexemes text) :
    ScansTo rest (spreadAll component.settled ++ lexemes) (component.write ++ text) := by
  match component with
  | .token offset value =>
      by_cases stray : ∃ closer, value = .fault (.strayCloser closer)
      · obtain ⟨closer, rfl⟩ := stray
        exact .scan (scan_closer sound text) rfl scans
      · obtain ⟨isSound, isKept, isEnded⟩ :=
          token_spec (fun closer same => stray ⟨closer, same⟩) offset
        rw [isKept] at legible
        rw [isEnded] at ends
        exact scans.writeToken (isSound sound) legible offset ends
  | .block offset opening content =>
      obtain ⟨soundOpening, _, soundContent⟩ := sound
      obtain ⟨isSeam, isCloser, notSpace⟩ := closer_spec opening
      rw [write_block legible]
      rw [Component.isLegible, Bool.and_eq_true, ← opening.opensBefore_seam notSpace _ text] at legible
      obtain ⟨c, more, opened, scanned⟩ := scan_opening soundOpening legible.1
      have closed : ScansTo rest ((0, .closer opening.closer) :: lexemes) (opening.closer :: text) :=
        .scan (scan_closer isCloser text) rfl scans
      have inside := ScansTo.write content soundContent isSeam legible.2 closed
      have whole : spreadAll (Component.block offset opening content).settled ++ lexemes =
          (0, .opening opening) ::
            (spreadAll (settledAll content) ++ (0, .closer opening.closer) :: lexemes) := by
        simp [Component.settled, spreadAll, spread]
      rw [List.append_assoc, List.append_assoc, List.singleton_append, opened, whole]
      exact .scan scanned rfl inside

/-- Legible components are read from their text, settled, before a character that ends them. -/
theorem ScansTo.write (components : List Component) (sound : SoundAll components) {seam : Char}
    (isSeam : seam ∈ seams) (legible : areLegible seam components = true) {text : List Char}
    {lexemes : List (Nat × Lexeme)} (scans : ScansTo rest lexemes (seam :: text)) :
    ScansTo rest (spreadAll (settledAll components) ++ lexemes)
      (Css.write components ++ seam :: text) := by
  match components with
  | [] => exact scans
  | component :: more =>
      rw [areLegible, Bool.and_eq_true, Bool.and_eq_true] at legible
      obtain ⟨⟨first, seamless⟩, others⟩ := legible
      have before := ScansTo.write more sound.2 isSeam others scans
      rw [Css.write, writeFrom_cons, separator_other, List.nil_append, List.append_assoc, settledAll,
        spreadAll_append, List.append_assoc]
      cases more with
      | nil =>
          exact ScansTo.writeComponent component sound.1 first
            ((component.endsBefore_seam isSeam [] text).trans seamless) scans
      | cons next later =>
          rw [writeFrom_eq, List.append_assoc]
          rw [meets, Bool.or_eq_true, Bool.and_eq_true,
            ← component.endsBefore_seam isSeam _ text] at seamless
          -- an empty comment is written between two components that would run together
          rcases seamless with runs | ⟨nothing, ends⟩
          · rw [separator, if_pos runs]
            exact ScansTo.writeComponent component sound.1 first
              (component.endsBefore_comment runs _) before.comment
          · rw [List.isEmpty_iff.1 nothing, List.nil_append]
            exact ScansTo.writeComponent component sound.1 first ends before

end

/-- The text of legible components gives their settled lexemes. -/
theorem plain_write {components : List Component} (sound : SoundAll components) {seam : Char}
    (isSeam : seam ∈ seams) (legible : areLegible seam components = true) (rest : List Char) :
    plain (write components ++ seam :: rest) =
      spreadAll (settledAll components) ++ plain (seam :: rest) := by
  have scans : ScansTo (seam :: rest) [] (seam :: rest) := .rest
  have whole := scans.write components sound isSeam legible
  rw [List.append_nil] at whole
  exact whole.plain_eq

end StyleSieve.Css
