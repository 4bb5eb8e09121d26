import StyleSieve.Proofs.Css.Balance
import StyleSieve.Proofs.Css.Rendering

/-!
# Components and their lexemes

The lexemes of a text are those of its components, but for the closers of the blocks that
the text leaves open.  What the writer gives for components without faults is what it gives
for their lexemes.
-/

namespace StyleSieve.Css

open Component

/-! ## Faults -/

namespace Component

mutual

/-- Whether nothing in a component is broken. -/
def isFaultless : Component → Bool
  | .token _ (.fault _) => false
  | .token .. => true
  | .block _ _ content => areFaultless content

/-- Whether nothing in some components is broken, at any depth. -/
def areFaultless : List Component → Bool
  | [] => true
  | component :: rest => component.isFaultless && areFaultless rest

end

theorem areFaultless_append (first second : List Component) :
    areFaultless (first ++ second) = (areFaultless first && areFaultless second) := by
  induction first with
  | nil => rfl
  | cons component rest ih => rw [List.cons_append, areFaultless, areFaultless, ih, Bool.and_assoc]

theorem isFaultless_token {offset : Nat} {value : Token}
    (whole : (Component.token offset value).isFaultless = true) : ∀ cause, value ≠ .fault cause := by
  rintro cause rfl
  cases whole

theorem areFaultless_of_forall {components : List Component}
    (whole : ∀ component ∈ components, component.isFaultless = true) :
    areFaultless components = true := by
  induction components with
  | nil => rfl
  | cons component rest ih =>
      obtain ⟨first, others⟩ := List.forall_mem_cons.1 whole
      rw [areFaultless, first, ih others]
      rfl

theorem pieces_faultless {value : Token} (whole : ∀ cause, value ≠ .fault cause) :
    ∀ piece ∈ value.pieces, ∀ cause, piece ≠ .fault cause := by
  intro piece member cause
  cases value with
  | comment text => cases member
  | whitespace text =>
      obtain ⟨c, _, rfl⟩ := List.mem_map.1 member
      exact Token.noConfusion
  | fault other => exact absurd rfl (whole other)
  | _ =>
      rw [List.mem_singleton.1 member]
      exact Token.noConfusion

theorem isFaultless_of_token {offset : Nat} {value : Token} (whole : ∀ cause, value ≠ .fault cause) :
    (Component.token offset value).isFaultless = true := by
  cases value with
  | fault cause => exact absurd rfl (whole cause)
  | _ => rfl

mutual

theorem settled_faultless (component : Component) (whole : component.isFaultless = true) :
    areFaultless component.settled = true := by
  match component with
  | .token offset value =>
      refine areFaultless_of_forall ?_
      intro piece member
      obtain ⟨token, isPiece, rfl⟩ := List.mem_map.1 member
      exact isFaultless_of_token (pieces_faultless (isFaultless_token whole) token isPiece)
  | .block offset opening content =>
      rw [Component.settled, areFaultless, isFaultless, settledAll_faultless content whole]
      rfl

theorem settledAll_faultless (components : List Component)
    (whole : areFaultless components = true) : areFaultless (settledAll components) = true := by
  match components with
  | [] => rfl
  | component :: rest =>
      rw [areFaultless, Bool.and_eq_true] at whole
      rw [settledAll, areFaultless_append, settled_faultless component whole.1,
        settledAll_faultless rest whole.2]
      rfl

end

theorem spread_token {offset : Nat} {value : Token} (whole : ∀ cause, value ≠ .fault cause) :
    (Component.token offset value).spread = [(offset, .token value)] := by
  cases value with
  | fault cause => exact absurd rfl (whole cause)
  | _ => rfl

mutual

/-- No lexeme of a component without faults is a fault. -/
theorem spread_faultless (component : Component) (whole : component.isFaultless = true) :
    ∀ read ∈ component.spread, ∀ cause, read.2 ≠ .token (.fault cause) := by
  match component with
  | .token offset value =>
      rw [spread_token (isFaultless_token whole)]
      intro read member cause same
      rw [List.mem_singleton.1 member] at same
      exact isFaultless_token whole cause (Lexeme.token.inj same)
  | .block offset opening content =>
      intro read member cause
      rcases List.mem_cons.1 member with rfl | later
      · exact Lexeme.noConfusion
      · rcases List.mem_append.1 later with inContent | isCloser
        · exact spreadAll_faultless content whole read inContent cause
        · rw [List.mem_singleton.1 isCloser]
          exact Lexeme.noConfusion

theorem spreadAll_faultless (components : List Component)
    (whole : areFaultless components = true) :
    ∀ read ∈ spreadAll components, ∀ cause, read.2 ≠ .token (.fault cause) := by
  match components with
  | [] => exact fun read member => by cases member
  | component :: rest =>
      rw [areFaultless, Bool.and_eq_true] at whole
      exact List.forall_mem_append.2
        ⟨spread_faultless component whole.1, spreadAll_faultless rest whole.2⟩

end

/-- A closer among the lexemes of components without faults closes a block. -/
theorem exists_opening {components : List Component} (whole : areFaultless components = true)
    {offset : Nat} {closer : Char} (member : (offset, .closer closer) ∈ spreadAll components) :
    ∃ start opening, (start, .opening opening) ∈ spreadAll components := by
  induction components with
  | nil => cases member
  | cons component rest ih =>
      rw [areFaultless, Bool.and_eq_true] at whole
      rcases List.mem_append.1 member with inFirst | inRest
      · cases component with
        | token start value =>
            rw [spread_token (isFaultless_token whole.1)] at inFirst
            cases List.mem_singleton.1 inFirst
        | block start opening content =>
            exact ⟨start, opening, List.mem_append_left _ List.mem_cons_self⟩
      · obtain ⟨start, opening, isOpening⟩ := ih whole.2 inRest
        exact ⟨start, opening, List.mem_append_right _ isOpening⟩

end Component

/-! ## Blocks left open -/

/-- Closers without an offset. -/
def AreClosers (lexemes : List (Nat × Lexeme)) : Prop :=
  ∀ read ∈ lexemes, ∃ closer, read = (0, .closer closer) ∧ isCloser closer = true

/-- Lexemes as a settled text gives them: without offsets, and no closer is a token yet. -/
def AreSettled (lexemes : List (Nat × Lexeme)) : Prop :=
  ∀ read ∈ lexemes, read.1 = 0 ∧ ∀ closer, read.2 ≠ .token (.fault (.strayCloser closer))

/-- The lexemes read inside open blocks, innermost first, and the components `before` of the
innermost one, last one first. -/
def spreadOpen : List OpenBlock → List Component → List (Nat × Lexeme)
  | [], before => spreadAll before.reverse
  | inner :: outer, before =>
      spreadOpen outer inner.before ++ (inner.offset, .opening inner.opening) ::
        spreadAll before.reverse

theorem spreadOpen_cons (blocks : List OpenBlock) (component : Component)
    (before : List Component) :
    spreadOpen blocks (component :: before) = spreadOpen blocks before ++ component.spread := by
  have last : spreadAll (component :: before).reverse = spreadAll before.reverse ++ component.spread := by
    rw [List.reverse_cons, spreadAll_append, spreadAll, spreadAll, List.append_nil]
  cases blocks with
  | nil => exact last
  | cons block outer => rw [spreadOpen, spreadOpen, last, List.append_assoc, List.cons_append]

theorem spreadOpen_close (block : OpenBlock) (outer : List OpenBlock) (before : List Component) :
    spreadOpen outer (block.close before) =
      spreadOpen (block :: outer) before ++ [(0, .closer block.opening.closer)] := by
  rw [OpenBlock.close, spreadOpen_cons, spread, spreadOpen, List.append_assoc, List.cons_append]

theorem isCloser_closer (opening : Opening) : isCloser opening.closer = true := by
  cases opening <;> rfl

theorem spreadAll_closeAll (blocks : List OpenBlock) (before : List Component) :
    ∃ closing, spreadAll (OpenBlock.closeAll blocks before) = spreadOpen blocks before ++ closing ∧
      AreClosers closing := by
  induction blocks generalizing before with
  | nil => exact ⟨[], (List.append_nil _).symm, fun read member => by cases member⟩
  | cons block outer ih =>
      obtain ⟨closing, spread, closers⟩ := ih (block.close before)
      refine ⟨(0, .closer block.opening.closer) :: closing, ?_, ?_⟩
      · rw [OpenBlock.closeAll, spread, spreadOpen_close, List.append_assoc, List.singleton_append]
      · refine List.forall_mem_cons.2 ⟨⟨_, rfl, isCloser_closer _⟩, closers⟩

theorem spread_of_settled {offset : Nat} {value : Token}
    (noStray : ∀ closer, Lexeme.token value ≠ .token (.fault (.strayCloser closer))) :
    (Component.token offset value).spread = [(offset, .token value)] := by
  cases value with
  | fault cause =>
      cases cause with
      | strayCloser closer => exact absurd rfl (noStray closer)
      | _ => rfl
  | _ => rfl

/-- Settled lexemes read so far are those of the open blocks and what stands in them. -/
theorem spreadOpen_steps (nested : Nested) {lexemes : List (Nat × Lexeme)}
    (settled : AreSettled lexemes) :
    spreadOpen (nested.steps lexemes).blocks (nested.steps lexemes).before =
      spreadOpen nested.blocks nested.before ++ lexemes := by
  induction lexemes generalizing nested with
  | nil => exact (List.append_nil _).symm
  | cons read rest ih =>
      obtain ⟨⟨noOffset, noStray⟩, others⟩ := List.forall_mem_cons.1 settled
      have step : spreadOpen (nested.step read).blocks (nested.step read).before =
          spreadOpen nested.blocks nested.before ++ [read] := by
        obtain ⟨blocks, before⟩ := nested
        obtain ⟨offset, lexeme⟩ := read
        cases noOffset
        cases lexeme with
        | token value => rw [Nested.step, spreadOpen_cons, spread_of_settled noStray]
        | opening opening =>
            rw [Nested.step, spreadOpen]
            rfl
        | closer closer =>
            cases blocks with
            | nil => exact spreadOpen_cons [] _ before
            | cons block outer =>
                by_cases fits : block.opening.closer = closer
                · rw [Nested.step_closes fits, spreadOpen_close, fits]
                · rw [Nested.step_strays fits, spreadOpen_cons, Component.spread]
      rw [Nested.steps_cons, ih _ others, step, List.append_assoc, List.singleton_append]

/-- The components of settled lexemes have these lexemes, but for closers at the end. -/
theorem spreadAll_nest {lexemes : List (Nat × Lexeme)} (settled : AreSettled lexemes) :
    ∃ closing, spreadAll (nest [] [] lexemes) = lexemes ++ closing ∧ AreClosers closing := by
  obtain ⟨closing, spread, closers⟩ := spreadAll_closeAll (Nested.steps {} lexemes).blocks
    (Nested.steps {} lexemes).before
  refine ⟨closing, ?_, closers⟩
  rw [nest_eq_closeAll, spread, spreadOpen_steps {} settled]
  rfl

theorem areSettled_plain {text : List Char} (clean : Clean text) : AreSettled (plain text) := by
  intro read member
  obtain ⟨first, isRead, isPiece⟩ := List.mem_flatMap.1 member
  obtain ⟨piece, inPieces, rfl⟩ := List.mem_map.1 isPiece
  refine ⟨rfl, ?_⟩
  rintro closer rfl
  have sound := lexemesFrom_sound clean 0 first isRead
  cases lexeme : first.2 with
  | opening opener =>
      rw [lexeme] at inPieces
      cases List.mem_singleton.1 inPieces
  | closer c =>
      rw [lexeme] at inPieces
      cases List.mem_singleton.1 inPieces
  | token value =>
      rw [lexeme] at inPieces sound
      obtain ⟨token, isToken, same⟩ := List.mem_map.1 inPieces
      cases Lexeme.token.inj same
      cases value with
      | comment text => cases isToken
      | whitespace text =>
          obtain ⟨c, _, same⟩ := List.mem_map.1 isToken
          cases same
      | fault cause =>
          cases List.mem_singleton.1 isToken
          cases sound
      | _ => cases List.mem_singleton.1 isToken

/-- The lexemes of a text are those of its components, but for closers at its end. -/
theorem spreadAll_significantComponents (text : List Char) :
    ∃ closing, spreadAll (settledAll (significantComponents text)) =
      plain (normalizeNewlines text) ++ closing ∧ AreClosers closing := by
  rw [settledAll_significantComponents]
  exact spreadAll_nest (areSettled_plain (clean_normalizeNewlines text))

/-! ## Writing -/

/-- Nothing is written between a block or white space and what follows it. -/
theorem separator_quiet {before : Kind} (quiet : before ∈ [.call, .round, .other, .whitespace])
    (next : Component) : Css.separator before next = [] := by
  simp only [List.mem_cons, List.not_mem_nil, or_false] at quiet
  rcases quiet with rfl | rfl | rfl | rfl <;> rfl

theorem render_quiet {before : Kind} (quiet : before ∈ [.call, .round, .other, .whitespace])
    (lexemes : List (Nat × Lexeme)) : render before lexemes = render .other lexemes := by
  cases lexemes with
  | nil => rfl
  | cons read rest =>
      obtain ⟨offset, next⟩ := read
      have other : Kind.other ∈ [.call, .round, .other, .whitespace] := by decide
      rw [render, render]
      cases next with
      | token value => rw [Lexeme.separator, Lexeme.separator, separator_quiet quiet, separator_quiet other]
      | opening opener =>
          rw [Lexeme.separator, Lexeme.separator, separator_quiet quiet, separator_quiet other]
      | closer c => rfl

theorem writeFrom_quiet {before : Kind} (quiet : before ∈ [.call, .round, .other, .whitespace])
    (components : List Component) : writeFrom before components = writeFrom .other components := by
  cases components with
  | nil => rfl
  | cons next rest =>
      have other : Kind.other ∈ [.call, .round, .other, .whitespace] := by decide
      rw [writeFrom_cons, writeFrom_cons, separator_quiet quiet, separator_quiet other]

theorem quiet_block (offset : Nat) (opening : Opening) (content : List Component) :
    (Component.block offset opening content).kind ∈ [.call, .round, .other, .whitespace] := by
  cases opening <;> simp [Component.kind]

/-- The kind of the last of some lexemes after a component of kind `before`. -/
def lastKind (before : Kind) : List (Nat × Lexeme) → Kind
  | [] => before
  | (_, next) :: rest => lastKind next.kind rest

theorem render_append (before : Kind) (first second : List (Nat × Lexeme)) :
    render before (first ++ second) =
      render before first ++ render (lastKind before first) second := by
  induction first generalizing before with
  | nil => rfl
  | cons read rest ih =>
      obtain ⟨offset, next⟩ := read
      rw [List.cons_append, render, render, ih, lastKind, ← List.append_assoc]

theorem render_closer (before : Kind) (offset : Nat) (closer : Char) (rest : List (Nat × Lexeme)) :
    render before ((offset, .closer closer) :: rest) = closer :: render .other rest :=
  rfl

mutual

theorem endsInString_faultless (component : Component) (whole : component.isFaultless = true) :
    component.endsInString = false := by
  match component with
  | .token offset value =>
      cases value with
      | fault cause => cases whole
      | _ => rfl
  | .block offset opening content =>
      cases opening with
      | call name => exact lastEndsInString_faultless content whole
      | _ => rfl

theorem lastEndsInString_faultless (components : List Component)
    (whole : areFaultless components = true) :
    Component.endsInString.lastEndsInString components = false := by
  match components with
  | [] => rfl
  | [last] =>
      rw [areFaultless, Bool.and_eq_true] at whole
      exact endsInString_faultless last whole.1
  | _ :: next :: rest =>
      rw [areFaultless, Bool.and_eq_true] at whole
      exact lastEndsInString_faultless (next :: rest) whole.2

end

theorem write_faultless_block {offset : Nat} {opening : Opening} {content : List Component}
    (whole : (Component.block offset opening content).isFaultless = true) :
    (Component.block offset opening content).write =
      opening.write ++ (writeFrom .other content ++ [opening.closer]) := by
  have closed := endsInString_faultless _ whole
  cases opening with
  | call name => rw [Component.write, closed, Opening.write, List.append_assoc]; rfl
  | round => rw [Component.write]; rfl
  | square => rw [Component.write]; rfl
  | curly => rw [Component.write]; rfl

/-- A token is written after others wherever it stands in the source. -/
theorem kind_anywhere (before : Kind) (offset : Nat) (value : Token) :
    (Component.token 0 value).kind = (Component.token offset value).kind ∧
      Css.separator before (.token 0 value) = Css.separator before (.token offset value) := by
  cases value with
  | whitespace text =>
      have newline : (Component.token 0 (.whitespace text)).startsWithNewline =
          (Component.token offset (.whitespace text)).startsWithNewline := by
        unfold Component.startsWithNewline
        split <;> simp_all
      rw [Css.separator, Css.separator, newline]
      exact ⟨rfl, rfl⟩
  | _ => exact ⟨rfl, rfl⟩

mutual

/-- The writer gives the same for a component without faults as for its lexemes. -/
theorem render_spread (component : Component) (whole : component.isFaultless = true)
    (before : Kind) (rest : List (Nat × Lexeme)) :
    render before (component.spread ++ rest) =
      Css.separator before component ++ (component.write ++ render component.kind rest) := by
  match component with
  | .token offset value =>
      obtain ⟨kind, separator⟩ := kind_anywhere before offset value
      rw [spread_token (isFaultless_token whole), List.singleton_append, render, List.append_assoc,
        Lexeme.kind, Lexeme.separator, kind, separator]
      rfl
  | .block offset opening content =>
      have sameSeparator : (Lexeme.opening opening).separator before =
          Css.separator before (.block offset opening content) := by
        cases opening <;> rfl
      have quietOpening := quiet_block 0 opening []
      have quiet := quiet_block offset opening content
      rw [spread, List.cons_append, List.append_assoc, render, render_append,
        render_spreadAll content whole, List.singleton_append, render_closer,
        write_faultless_block whole, sameSeparator, render_quiet quiet, Lexeme.kind,
        writeFrom_quiet quietOpening]
      simp [Lexeme.write]

/-- The writer gives the same for components without faults as for their lexemes. -/
theorem render_spreadAll (components : List Component) (whole : areFaultless components = true)
    (before : Kind) : render before (spreadAll components) = writeFrom before components := by
  match components with
  | [] => rfl
  | component :: rest =>
      rw [areFaultless, Bool.and_eq_true] at whole
      rw [spreadAll, render_spread component whole.1, writeFrom_cons,
        render_spreadAll rest whole.2]

end

end StyleSieve.Css
