import StyleSieve.Proofs.Css.Dividing
import StyleSieve.Proofs.Css.Soundness

/-!
# Settled components

Two texts spell the same components when the components agree but for their offsets,
comments, the division of white space and the case of an escaped exponent mark.  This
module settles all of these, and shows that blocks open and close in settled lexemes as
they do in the lexemes of the text.
-/

namespace StyleSieve.Css

/-! ## Settling -/

/-- The settled tokens of a token: no comment, and white space character by character. -/
def Token.pieces : Token → List Token
  | .comment _ => []
  | .whitespace text => text.map fun c => .whitespace [c]
  | value => [value.settled]

/-- The settled lexemes of a lexeme. -/
def Lexeme.pieces : Lexeme → List Lexeme
  | .token value => value.pieces.map .token
  | .opening opener => [.opening opener]
  | .closer c => [.closer c]

/-- Settled lexemes, all without an offset. -/
def settleAll (lexemes : List (Nat × Lexeme)) : List (Nat × Lexeme) :=
  lexemes.flatMap fun read => read.2.pieces.map ((0, ·))

namespace Component

mutual

/-- The settled components of a component. -/
def settled : Component → List Component
  | .token _ value => value.pieces.map (.token 0)
  | .block _ opening content => [.block 0 opening (settledAll content)]

/-- The settled components of some components. -/
def settledAll : List Component → List Component
  | [] => []
  | component :: rest => component.settled ++ settledAll rest

end

mutual

theorem settled_eq_divided (component : Component) :
    component.settled = component.divided Token.pieces := by
  match component with
  | .token _ value => rfl
  | .block _ opening content =>
      rw [settled, divided, settledAll_eq_dividedAll content]

/-- Settling divides tokens into their pieces. -/
theorem settledAll_eq_dividedAll (components : List Component) :
    settledAll components = dividedAll Token.pieces components := by
  match components with
  | [] => rfl
  | component :: rest =>
      rw [settledAll, dividedAll, settled_eq_divided component, settledAll_eq_dividedAll rest]

end

theorem settledAll_append (first second : List Component) :
    settledAll (first ++ second) = settledAll first ++ settledAll second := by
  simp only [settledAll_eq_dividedAll, dividedAll_append]

end Component

open Component

/-! ## Settled nesting -/

theorem pieces_eq_divided : Lexeme.pieces = Lexeme.divided Token.pieces := by
  funext lexeme
  cases lexeme <;> rfl

theorem settleAll_eq_divideAll (lexemes : List (Nat × Lexeme)) :
    settleAll lexemes = divideAll Token.pieces lexemes := by
  simp only [settleAll, divideAll, pieces_eq_divided]

theorem settleAll_cons (offset : Nat) (lexeme : Lexeme) (rest : List (Nat × Lexeme)) :
    settleAll ((offset, lexeme) :: rest) =
      lexeme.pieces.map ((0, ·)) ++ settleAll rest :=
  rfl

/-- Settling lexemes settles the components that they make up. -/
theorem nest_settleAll (lexemes : List (Nat × Lexeme)) :
    nest [] [] (settleAll lexemes) = settledAll (nest [] [] lexemes) := by
  rw [settleAll_eq_divideAll, settledAll_eq_dividedAll]
  exact nest_divideAll Token.pieces (fun _ => rfl) [] [] lexemes

/-! ## Spreading -/

/-- The closer that a component is, where it closes nothing. -/
def Component.closer? : Component → Option Char
  | .token _ (.fault (.strayCloser closer)) => some closer
  | _ => none

namespace Component

mutual

/-- The lexemes of a component. -/
def spread : Component → List (Nat × Lexeme)
  | .token offset (.fault (.strayCloser closer)) => [(offset, .closer closer)]
  | .token offset value => [(offset, .token value)]
  | .block offset opening content =>
      (offset, .opening opening) :: (spreadAll content ++ [(0, .closer opening.closer)])

/-- The lexemes of some components. -/
def spreadAll : List Component → List (Nat × Lexeme)
  | [] => []
  | component :: rest => component.spread ++ spreadAll rest

end

mutual

/-- A component that reading a style sheet can give: its tokens are those of the scanner
but no comments, and no closer in a block is the closer of the block. -/
def Sound : Component → Prop
  | .token _ (.fault (.strayCloser closer)) => closer ∈ ['\x7d', ']', ')']
  | .token _ (.comment _) => False
  | .token _ value => value.Sound
  | .block _ opening content =>
      opening.Sound ∧ (∀ component ∈ content, component.closer? ≠ some opening.closer) ∧
        SoundAll content

/-- Components that reading a style sheet can give. -/
def SoundAll : List Component → Prop
  | [] => True
  | component :: rest => component.Sound ∧ SoundAll rest

end

end Component

theorem soundAll_iff (components : List Component) :
    SoundAll components ↔ ∀ component ∈ components, component.Sound := by
  induction components with
  | nil => simp [SoundAll]
  | cons component rest ih => simp [SoundAll, ih]

theorem soundAll_append (first second : List Component) :
    SoundAll (first ++ second) ↔ SoundAll first ∧ SoundAll second := by
  simp only [soundAll_iff, List.mem_append, or_imp, forall_and]

/-- Whether none of some components closes the innermost open block. -/
def Fits (blocks : List OpenBlock) (components : List Component) : Prop :=
  ∀ block ∈ blocks.head?, ∀ component ∈ components,
    component.closer? ≠ some block.opening.closer

theorem fits_nil (components : List Component) : Fits [] components := by
  intro block isHead
  cases isHead

theorem nest_strayCloser {blocks : List OpenBlock} {offset : Nat} {closer : Char}
    (fits : Fits blocks [.token offset (.fault (.strayCloser closer))])
    (before : List Component) (rest : List (Nat × Lexeme)) :
    nest blocks before ((offset, .closer closer) :: rest) =
      nest blocks (.token offset (.fault (.strayCloser closer)) :: before) rest := by
  cases blocks with
  | nil => rw [nest]
  | cons block outer =>
      have unfit : ¬block.opening.closer = closer := by
        intro same
        exact fits block rfl _ List.mem_cons_self (congrArg some same.symm)
      rw [nest, if_neg unfit]

mutual

/-- A component is nested back where its lexemes are read. -/
theorem nest_spread (component : Component) (sound : component.Sound)
    (blocks : List OpenBlock) (fits : Fits blocks [component]) (before : List Component)
    (rest : List (Nat × Lexeme)) :
    nest blocks before (component.spread ++ rest) = nest blocks (component :: before) rest := by
  match component with
  | .token offset value =>
      cases value with
      | fault cause =>
          cases cause with
          | strayCloser closer => exact nest_strayCloser fits before rest
          | badString => rfl
          | badUrl => rfl
          | unclosedString => rfl
          | unclosedUrl => rfl
      | _ => rfl
  | .block offset opening content =>
      obtain ⟨_, inside, soundContent⟩ := sound
      have fitsInside : Fits (⟨offset, opening, before⟩ :: blocks) content := by
        intro block isHead
        cases isHead
        exact inside
      rw [spread, List.cons_append, nest, List.append_assoc,
        nest_spreadAll content soundContent _ fitsInside, List.singleton_append, nest,
        if_pos rfl]
      simp [OpenBlock.close]

/-- Components are nested back where their lexemes are read. -/
theorem nest_spreadAll (components : List Component) (sound : SoundAll components)
    (blocks : List OpenBlock) (fits : Fits blocks components) (before : List Component)
    (rest : List (Nat × Lexeme)) :
    nest blocks before (spreadAll components ++ rest) =
      nest blocks (components.reverse ++ before) rest := by
  match components with
  | [] => rfl
  | component :: more =>
      have first : Fits blocks [component] := by
        intro block isHead other member
        rw [List.mem_singleton.1 member]
        exact fits block isHead component List.mem_cons_self
      have others : Fits blocks more := fun block isHead other member =>
        fits block isHead other (List.mem_cons_of_mem component member)
      rw [spreadAll, List.append_assoc, nest_spread component sound.1 blocks first,
        nest_spreadAll more sound.2 blocks others]
      simp

end

/-- Some components are what their lexemes make up. -/
theorem nest_spreadAll_nil {components : List Component} (sound : SoundAll components) :
    nest [] [] (spreadAll components) = components := by
  have nested := nest_spreadAll components sound [] (fits_nil components) [] []
  simpa [nest, OpenBlock.closeAll] using nested

/-! ## Soundness -/

/-- Open blocks of sound components, none of which would close its block. -/
def OpenSound : List OpenBlock → List Component → Prop
  | [], before => SoundAll before
  | inner :: outer, before =>
      SoundAll before ∧ Fits [inner] before ∧ inner.opening.Sound ∧ OpenSound outer inner.before

theorem soundAll_reverse {components : List Component} (sound : SoundAll components) :
    SoundAll components.reverse := by
  rw [soundAll_iff] at sound ⊢
  intro component member
  exact sound component (List.mem_reverse.1 member)

/-- One more sound component in open blocks, which closes none of them. -/
theorem OpenSound.cons {blocks : List OpenBlock} {before : List Component}
    {component : Component} (sound : OpenSound blocks before) (isSound : component.Sound)
    (fits : Fits blocks [component]) : OpenSound blocks (component :: before) := by
  cases blocks with
  | nil => exact ⟨isSound, sound⟩
  | cons block outer =>
      obtain ⟨soundBefore, fitsBefore, others⟩ := sound
      refine ⟨⟨isSound, soundBefore⟩, ?_, others⟩
      intro other isHead inside member
      cases isHead
      cases member with
      | head => exact fits block rfl component List.mem_cons_self
      | tail _ inBefore => exact fitsBefore block rfl inside inBefore

/-- A block of sound components is sound. -/
theorem OpenSound.close {block : OpenBlock} {outer : List OpenBlock} {before : List Component}
    (sound : OpenSound (block :: outer) before) : OpenSound outer (block.close before) := by
  obtain ⟨soundBefore, fitsBefore, soundOpening, soundOuter⟩ := sound
  refine soundOuter.cons ⟨soundOpening, ?_, soundAll_reverse soundBefore⟩ ?_
  · intro component member
    exact fitsBefore block rfl component (List.mem_reverse.1 member)
  · intro other _ component member same
    rw [List.mem_singleton.1 member] at same
    cases same

theorem closeAll_sound {blocks : List OpenBlock} {before : List Component}
    (sound : OpenSound blocks before) : SoundAll (OpenBlock.closeAll blocks before) := by
  induction blocks generalizing before with
  | nil => exact soundAll_reverse sound
  | cons block outer ih => exact ih sound.close

/-- A token of the scanner that is no comment is sound as a component, and closes nothing. -/
theorem sound_token {value : Token} (sound : value.Sound)
    (noComment : (Lexeme.token value).isComment = false) (offset : Nat) :
    (Component.token offset value).Sound ∧ (Component.token offset value).closer? = none := by
  cases value with
  | comment text => cases noComment
  | fault cause =>
      cases cause with
      | strayCloser closer => cases sound
      | badString => exact ⟨sound, rfl⟩
      | badUrl => exact ⟨sound, rfl⟩
      | unclosedString => exact ⟨sound, rfl⟩
      | unclosedUrl => exact ⟨sound, rfl⟩
  | _ => exact ⟨sound, rfl⟩

theorem fits_of_closer? {component : Component} (noCloser : component.closer? = none)
    (blocks : List OpenBlock) : Fits blocks [component] := by
  intro _ _ other member
  rw [List.mem_singleton.1 member, noCloser]
  exact Option.some_ne_none _ |>.symm

/-- Sound lexemes without comments make up sound components. -/
theorem nest_sound {blocks : List OpenBlock} {before : List Component}
    {lexemes : List (Nat × Lexeme)} (sound : OpenSound blocks before)
    (soundLexemes : ∀ read ∈ lexemes, read.2.Sound ∧ read.2.isComment = false) :
    SoundAll (nest blocks before lexemes) := by
  fun_induction nest blocks before lexemes with
  | case1 blocks before => exact closeAll_sound sound
  | case2 blocks before offset token rest ih =>
      obtain ⟨first, others⟩ := List.forall_mem_cons.1 soundLexemes
      obtain ⟨isSound, noCloser⟩ := sound_token first.1 first.2 offset
      exact ih (sound.cons isSound (fits_of_closer? noCloser blocks)) others
  | case3 blocks before offset opening rest ih =>
      obtain ⟨first, others⟩ := List.forall_mem_cons.1 soundLexemes
      refine ih ⟨trivial, ?_, first.1, sound⟩ others
      intro _ _ other member
      cases member
  | case4 before offset rest block outer ih =>
      exact ih sound.close (List.forall_mem_cons.1 soundLexemes).2
  | case5 before offset closer rest block outer unfit ih =>
      obtain ⟨first, others⟩ := List.forall_mem_cons.1 soundLexemes
      refine ih (sound.cons first.1 ?_) others
      intro other isHead component member same
      cases isHead
      rw [List.mem_singleton.1 member] at same
      exact unfit (Option.some.inj same).symm
  | case6 before offset closer rest ih =>
      obtain ⟨first, others⟩ := List.forall_mem_cons.1 soundLexemes
      exact ih (sound.cons first.1 (fits_nil _)) others

theorem lexemesFrom_sound {text : List Char} (clean : Clean text) (offset : Nat) :
    ∀ read ∈ lexemesFrom offset text, read.2.Sound := by
  fun_induction lexemesFrom offset text with
  | case1 => exact fun read member => by cases member
  | case2 offset c rest step ih =>
      intro read member
      rcases List.mem_append.1 member with inStep | inRest
      · obtain ⟨lexeme, isRead, rfl⟩ := List.mem_map.1 inStep
        exact scan_sound clean lexeme isRead
      · exact ih (clean.tail.suffix (scan_suffix c rest)) read inRest

/-- Reading a style sheet gives sound components. -/
theorem significantComponents_sound (text : List Char) :
    SoundAll (significantComponents text) := by
  refine nest_sound trivial ?_
  intro read member
  obtain ⟨isRead, noComment⟩ := List.mem_filter.1 member
  rw [Bool.not_eq_true'] at noComment
  exact ⟨lexemesFrom_sound (clean_normalizeNewlines text) 0 read isRead, noComment⟩

/-! ## Texts -/

/-- The settled lexemes of a text. -/
def plain (text : List Char) : List (Nat × Lexeme) :=
  settleAll (lexemesFrom 0 text)

/-- The settled lexemes of a text begin with those of its first step. -/
theorem plain_cons (c : Char) (rest : List Char) :
    plain (c :: rest) =
      ((scan c rest).1.flatMap Lexeme.pieces).map ((0, ·)) ++ plain (scan c rest).2 := by
  simp only [plain, settleAll_eq_divideAll, divideAll_scan, pieces_eq_divided]

/-- Comments are settled by being left out. -/
theorem settleAll_significant (lexemes : List (Nat × Lexeme)) :
    settleAll (lexemes.filter (!·.2.isComment)) = settleAll lexemes := by
  induction lexemes with
  | nil => rfl
  | cons read rest ih =>
      obtain ⟨offset, lexeme⟩ := read
      cases isComment : lexeme.isComment with
      | false =>
          rw [List.filter_cons_of_pos (by simp [isComment]), settleAll_cons, settleAll_cons, ih]
      | true =>
          have left : lexeme.pieces = [] := by
            unfold Lexeme.isComment at isComment
            split at isComment
            · rfl
            · cases isComment
          rw [List.filter_cons_of_neg (by simp [isComment]), settleAll_cons, left, ih]
          rfl

/-- The settled components of a text are those of its settled lexemes. -/
theorem settledAll_significantComponents (text : List Char) :
    settledAll (significantComponents text) = nest [] [] (plain (normalizeNewlines text)) := by
  have settled := nest_settleAll
    ((lexemesFrom 0 (normalizeNewlines text)).filter (!·.2.isComment))
  rw [settleAll_significant] at settled
  exact settled.symm

end StyleSieve.Css
