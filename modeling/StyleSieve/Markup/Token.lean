import StyleSieve.Markup.References

/-!
# Markup tokens

Markup is cut into tags, comments and text.  Some elements hold text in which
tags do not count; such text ends only at the end tag of the element.  A tag
that the end of the markup cuts off loses everything but its name.
-/

namespace StyleSieve.Markup

/-- An attribute as it is spelled in a tag: it may have no value. -/
abbrev SpelledAttribute := List Char × Option (List Char)

/-- A piece of markup.  Names are in lower case, and references are resolved. -/
inductive Token where
  | startTag (name : List Char) (attributes : List SpelledAttribute) (closed : Bool)
  | cutTag (name : List Char)
  | endTag (name : List Char)
  | text (text : List Char)
  | comment
  deriving DecidableEq, Repr

/-- Blanks of markup. -/
def isSpace (c : Char) : Bool :=
  c == ' ' || c == '\t' || c == '\n' || c == '\x0c' || c == '\r'

/-- How the text of an element is read. -/
inductive TextMode where
  | markup
  | references
  | raw
  | script
  | unending
  deriving DecidableEq, Repr

/-- How the text of an element with a name is read. -/
def textModeOf (name : List Char) : TextMode :=
  if name == "script".toList then .script
  else if name == "title".toList || name == "textarea".toList then .references
  else if name == "plaintext".toList then .unending
  else if ["style", "xmp", "iframe", "noembed", "noframes"].contains (String.ofList name) then .raw
  else .markup

/-- A character of a name or a value. -/
def plainChar (c : Char) : Char :=
  if c == '\x00' then Css.replacement else c

/-- Whether a character ends the name of a tag. -/
def endsTagName (c : Char) : Bool :=
  isSpace c || c == '/' || c == '>'

/-- Whether a character ends the name of an attribute. -/
def endsAttributeName (c : Char) : Bool :=
  endsTagName c || c == '='

/-- A name in lower case. -/
def nameOf (text : List Char) : List Char :=
  Css.lowerAscii (text.map plainChar)

/-- The value that a text starts with, after the equals sign and blanks, and the
text after it; nothing if it does not end. -/
def takeValue? (text : List Char) : Option (List Char × List Char) :=
  let resolved := fun (value : List Char) => resolveReferences true (value.map plainChar)
  let quoted := fun (quote : Char) (rest : List Char) =>
    match rest.dropWhile (· != quote) with
    | [] => none
    | _ :: after => some (resolved (rest.takeWhile (· != quote)), after)
  match text with
  | '"' :: rest => quoted '"' rest
  | '\'' :: rest => quoted '\'' rest
  | _ =>
      let ends := fun c => isSpace c || c == '>'
      match text.dropWhile (!ends ·) with
      | [] => none
      | after => some (resolved (text.takeWhile (!ends ·)), after)

theorem length_takeValue?_le {text value after : List Char}
    (taken : takeValue? text = some (value, after)) : after.length ≤ text.length := by
  have dropped (p : Char → Bool) (rest : List Char) :
      (rest.dropWhile p).length ≤ rest.length := (rest.dropWhile_sublist p).length_le
  have quoted (quote : Char) (rest : List Char) {v a : List Char}
      (shape : (match rest.dropWhile (· != quote) with
        | [] => none
        | _ :: after =>
            some (resolveReferences true ((rest.takeWhile (· != quote)).map plainChar), after)) =
          some (v, a)) : a.length ≤ rest.length := by
    have bound := dropped (· != quote) rest
    split at shape
    · simp at shape
    · rename_i shaped
      rw [shaped] at bound
      simp only [Option.some.injEq, Prod.mk.injEq] at shape
      simp only [List.length_cons] at bound
      rw [← shape.2]
      omega
  unfold takeValue? at taken
  dsimp only at taken
  split at taken
  · exact Nat.le_succ_of_le (quoted '"' _ taken)
  · exact Nat.le_succ_of_le (quoted '\'' _ taken)
  · split at taken
    · simp at taken
    · simp only [Option.some.injEq, Prod.mk.injEq] at taken
      rw [← taken.2]
      exact dropped _ _

/-- What comes next inside a tag. -/
inductive TagStep where
  | finish (closed : Bool) (after : List Char)
  | skip (after : List Char)
  | spelled (found : SpelledAttribute) (after : List Char)
  | cut

/-- The step of a text inside a tag that starts with an attribute name. -/
def attributeStep (c : Char) (rest : List Char) : TagStep :=
  let name := nameOf (c :: rest.takeWhile (!endsAttributeName ·))
  let afterName := (rest.dropWhile (!endsAttributeName ·)).dropWhile isSpace
  if afterName.head? == some '=' then
    match takeValue? ((afterName.drop 1).dropWhile isSpace) with
    | none => .cut
    | some (value, after) => .spelled (name, some value) after
  else .spelled (name, none) afterName

/-- The step of a text inside a tag. -/
def tagStep (c : Char) (rest : List Char) : TagStep :=
  if c == '>' then .finish false rest
  else if c == '/' then
    if rest.head? == some '>' then .finish true (rest.drop 1) else .skip rest
  else if isSpace c then .skip rest
  else attributeStep c rest

theorem length_dropWhile_le (p : Char → Bool) (text : List Char) :
    (text.dropWhile p).length ≤ text.length :=
  (text.dropWhile_sublist p).length_le

theorem length_attributeStep_le {c : Char} {rest after : List Char} {found : SpelledAttribute}
    (step : attributeStep c rest = .spelled found after) : after.length ≤ rest.length := by
  have name := length_dropWhile_le (!endsAttributeName ·) rest
  have spaces := length_dropWhile_le isSpace (rest.dropWhile (!endsAttributeName ·))
  unfold attributeStep at step
  dsimp only at step
  split at step
  · split at step
    · simp at step
    · rename_i taken
      have value := length_takeValue?_le taken
      have more := length_dropWhile_le isSpace
        (((rest.dropWhile (!endsAttributeName ·)).dropWhile isSpace).drop 1)
      simp only [TagStep.spelled.injEq] at step
      rw [← step.2]
      simp only [List.length_drop] at more
      omega
  · simp only [TagStep.spelled.injEq] at step
    rw [← step.2]
    omega

theorem length_tagStep_skip {c : Char} {rest after : List Char}
    (step : tagStep c rest = .skip after) : after = rest := by
  unfold tagStep at step
  split at step
  · simp at step
  · split at step
    · split at step <;> simp_all
    · split at step
      · simp_all
      · unfold attributeStep at step
        dsimp only at step
        split at step
        · split at step <;> simp at step
        · simp at step

theorem length_tagStep_attribute {c : Char} {rest after : List Char} {found : SpelledAttribute}
    (step : tagStep c rest = .spelled found after) : after.length ≤ rest.length := by
  unfold tagStep at step
  split at step
  · simp at step
  · split at step
    · split at step <;> simp at step
    · split at step
      · simp at step
      · exact length_attributeStep_le step

theorem length_tagStep_finish {c : Char} {rest after : List Char} {closed : Bool}
    (step : tagStep c rest = .finish closed after) : after.length ≤ rest.length := by
  unfold tagStep at step
  split at step
  · simp_all
  · split at step
    · split at step
      · simp only [TagStep.finish.injEq] at step
        rw [← step.2]
        simp
      · simp at step
    · split at step
      · simp at step
      · unfold attributeStep at step
        dsimp only at step
        split at step
        · split at step <;> simp at step
        · simp at step

/-- What a tag holds after its name. -/
structure TagRest where
  attributes : List SpelledAttribute
  closed : Bool
  after : List Char

/-- What a tag holds whose text after the name is given; nothing if the tag does
not end. -/
def takeTag? (text : List Char) : Option TagRest :=
  match text with
  | [] => none
  | c :: rest =>
      match _step : tagStep c rest with
      | .finish closed after => some ⟨[], closed, after⟩
      | .skip after => takeTag? after
      | .spelled found after =>
          (takeTag? after).map fun tag => { tag with attributes := found :: tag.attributes }
      | .cut => none
termination_by text.length
decreasing_by
  · simp [length_tagStep_skip _step]
  · simpa using Nat.lt_succ_of_le (length_tagStep_attribute _step)

theorem length_takeTag?_lt {text : List Char} {tag : TagRest} (taken : takeTag? text = some tag) :
    tag.after.length < text.length := by
  fun_induction takeTag? text generalizing tag with
  | case1 => simp at taken
  | case2 c rest closed after step =>
      simp only [Option.some.injEq] at taken
      rw [← taken]
      simpa using Nat.lt_succ_of_le (length_tagStep_finish step)
  | case3 c rest after step ih =>
      have shape := length_tagStep_skip step
      have bound := ih taken
      rw [shape] at bound
      simp only [List.length_cons]
      omega
  | case4 c rest found after step ih =>
      obtain ⟨inner, taken', shape⟩ := Option.map_eq_some_iff.1 taken
      have bound := ih taken'
      have size := length_tagStep_attribute step
      rw [← shape]
      simp only [List.length_cons]
      omega
  | case5 => simp at taken

/-- The step for a text after the opening of a tag: its token and the text after
it. -/
def scanStartTag (text : List Char) : Token × List Char :=
  let name := nameOf (text.takeWhile (!endsTagName ·))
  match takeTag? (text.dropWhile (!endsTagName ·)) with
  | some tag => (.startTag name tag.attributes tag.closed, tag.after)
  | none => (.cutTag name, [])

/-- The step for a text after the opening of an end tag.  An end tag that is cut
off means nothing. -/
def scanEndTag (text : List Char) : Option Token × List Char :=
  match takeTag? (text.dropWhile (!endsTagName ·)) with
  | some tag => (some (.endTag (nameOf (text.takeWhile (!endsTagName ·)))), tag.after)
  | none => (none, [])

/-- The text after a comment, after its opening.  A comment may be closed by the
end of its own opening. -/
def skipComment : List Char → List Char
  | '>' :: rest => rest
  | '-' :: '>' :: rest => rest
  | text => go text
where
  /-- The text after the next closing of a comment. -/
  go : List Char → List Char
    | [] => []
    | '-' :: '-' :: '>' :: rest => rest
    | '-' :: '-' :: '!' :: '>' :: rest => rest
    | _ :: rest => go rest

/-- The text after the next end of a tag. -/
def skipDeclaration (text : List Char) : List Char :=
  (text.dropWhile (· != '>')).drop 1

/-- Whether a text starts with a word, in any case. -/
def startsWith (word : String) (text : List Char) : Bool :=
  Css.lowerAscii (text.take word.length) == word.toList

/-- Whether a text goes on with the end of the name of a tag after a word. -/
def startsTag (word : List Char) (text : List Char) : Bool :=
  Css.lowerAscii (text.take word.length) == word &&
    ((text.drop word.length).head?.any endsTagName)

/-- The text of an element up to its end tag, and the text from the end tag on. -/
def takeRaw (name : List Char) : List Char → List Char × List Char
  | [] => ([], [])
  | c :: rest =>
      if c == '<' && rest.head? == some '/' && startsTag name (rest.drop 1) then ([], c :: rest)
      else
        let (text, after) := takeRaw name rest
        (c :: text, after)

/-- How far a script has hidden its text in a comment. -/
inductive Cover where
  | plain
  | comment
  | script
  deriving DecidableEq, Repr

/-- How hidden the text of a script is after its next character. -/
def Cover.step (cover : Cover) (text : List Char) : Cover :=
  match cover with
  | .plain => if startsWith "<!--" text then .comment else .plain
  | .comment =>
      if startsWith "-->" text then .plain
      else if text.head? == some '<' && startsTag "script".toList (text.drop 1) then .script
      else .comment
  | .script =>
      if startsWith "-->" text then .plain
      else if startsWith "</" text && startsTag "script".toList (text.drop 2) then .comment
      else .script

/-- The text of a script up to its end tag, and the text from the end tag on.  A
script inside a comment of a script has its own end tag. -/
def takeScript (cover : Cover) : List Char → List Char × List Char
  | [] => ([], [])
  | c :: rest =>
      if cover ≠ .script && c == '<' && rest.head? == some '/' &&
          startsTag "script".toList (rest.drop 1) then ([], c :: rest)
      else
        let (text, after) := takeScript (cover.step (c :: rest)) rest
        (c :: text, after)

/-- The text of an element that is read in a mode of its own, and the text after
it. -/
def takeElementText (mode : TextMode) (name text : List Char) : List Char × List Char :=
  match mode with
  | .markup => ([], text)
  | .references =>
      let (inner, after) := takeRaw name text
      (resolveReferences false inner, after)
  | .raw => takeRaw name text
  | .script => takeScript .plain text
  | .unending => (text, [])

theorem length_takeRaw_le (name text : List Char) :
    (takeRaw name text).2.length ≤ text.length := by
  fun_induction takeRaw name text <;> simp_all
  omega

theorem length_takeScript_le (cover : Cover) (text : List Char) :
    (takeScript cover text).2.length ≤ text.length := by
  fun_induction takeScript cover text <;> simp_all
  omega

theorem length_takeElementText_le (mode : TextMode) (name text : List Char) :
    (takeElementText mode name text).2.length ≤ text.length := by
  cases mode <;> simp [takeElementText, length_takeRaw_le, length_takeScript_le]

/-- A text token, unless the text is empty. -/
def textToken (text : List Char) : List Token :=
  if text.isEmpty then [] else [.text text]

/-- The tokens of a step after a start tag: the text of its element, where that
is read in a mode of its own. -/
def scanOpenTag (text : List Char) : List Token × List Char :=
  let tag := scanStartTag text
  match tag.1 with
  | .startTag name attributes closed =>
      let inner := takeElementText (if closed then .markup else textModeOf name) name tag.2
      (.startTag name attributes closed :: textToken (inner.1.map plainChar), inner.2)
  | other => ([other], tag.2)

/-- The tokens of a step for a text after a less-than sign. -/
def scanAngle (rest : List Char) : List Token × List Char :=
  match rest with
  | '/' :: '>' :: after => ([], after)
  | '/' :: c :: after =>
      if c.isAlpha then
        let tag := scanEndTag (c :: after)
        (tag.1.toList, tag.2)
      else ([.comment], skipDeclaration (c :: after))
  | ['/'] => ([.text ['<', '/']], [])
  | '!' :: '-' :: '-' :: after => ([.comment], skipComment after)
  | '!' :: after =>
      if startsWith "doctype" after then ([], skipDeclaration after)
      else ([.comment], skipDeclaration after)
  | '?' :: after => ([.comment], skipDeclaration after)
  | c :: after =>
      if c.isAlpha then scanOpenTag (c :: after) else ([.text ['<']], c :: after)
  | [] => ([.text ['<']], [])

/-- The tokens of a step for a text that is not empty, and the text after them. -/
def scan (c : Char) (rest : List Char) : List Token × List Char :=
  if c == '<' then scanAngle rest
  else
    let run := (c :: rest.takeWhile (· != '<')).filter (· != '\x00')
    (textToken (resolveReferences false run), rest.dropWhile (· != '<'))

theorem length_skipComment_le (text : List Char) :
    (skipComment text).length ≤ text.length := by
  have inner (text : List Char) : (skipComment.go text).length ≤ text.length := by
    fun_induction skipComment.go text <;> simp_all <;> omega
  unfold skipComment
  split <;> simp_all
  omega

theorem length_skipDeclaration_le (text : List Char) :
    (skipDeclaration text).length ≤ text.length := by
  have bound := length_dropWhile_le (· != '>') text
  simp only [skipDeclaration, List.length_drop]
  omega

theorem length_scanStartTag_le (text : List Char) :
    (scanStartTag text).2.length ≤ text.length := by
  have bound := length_dropWhile_le (!endsTagName ·) text
  unfold scanStartTag
  dsimp only
  split
  · rename_i taken
    have size := length_takeTag?_lt taken
    simp only
    omega
  · simp

theorem length_scanEndTag_le (text : List Char) :
    (scanEndTag text).2.length ≤ text.length := by
  have bound := length_dropWhile_le (!endsTagName ·) text
  unfold scanEndTag
  split
  · rename_i taken
    have size := length_takeTag?_lt taken
    simp only
    omega
  · simp

theorem length_scanOpenTag_le (text : List Char) :
    (scanOpenTag text).2.length ≤ text.length := by
  have bound := length_scanStartTag_le text
  unfold scanOpenTag
  dsimp only
  split
  · rename_i name attributes closed _
    have inner := length_takeElementText_le
      (if closed then .markup else textModeOf name) name (scanStartTag text).2
    simp only
    omega
  · exact bound

theorem length_scanAngle_le (rest : List Char) : (scanAngle rest).2.length ≤ rest.length := by
  unfold scanAngle
  split
  · simp; omega
  · rename_i c after _
    split
    · have := length_scanEndTag_le (c :: after)
      simp_all; omega
    · have := length_skipDeclaration_le (c :: after)
      simp_all; omega
  · simp
  · rename_i after
    have := length_skipComment_le after
    simp_all; omega
  · rename_i after _
    have := length_skipDeclaration_le after
    split <;> simp_all <;> omega
  · rename_i after
    have := length_skipDeclaration_le after
    simp_all; omega
  · split
    · exact length_scanOpenTag_le _
    · simp
  · simp

theorem length_scan_le (c : Char) (rest : List Char) : (scan c rest).2.length ≤ rest.length := by
  unfold scan
  split
  · exact length_scanAngle_le rest
  · exact length_dropWhile_le _ rest

/-- The tokens of a text. -/
def tokensOf (text : List Char) : List Token :=
  match text with
  | [] => []
  | c :: rest => (scan c rest).1 ++ tokensOf (scan c rest).2
termination_by text.length
decreasing_by
  simpa using Nat.lt_succ_of_le (length_scan_le c rest)

/-- Markup in which every line ends with a newline character. -/
def unifyNewlines : List Char → List Char
  | [] => []
  | '\r' :: '\n' :: rest => '\n' :: unifyNewlines rest
  | c :: rest => (if c == '\r' then '\n' else c) :: unifyNewlines rest

/-- The tokens of a document.  A byte order mark in front is ignored. -/
def tokens (source : String) : List Token :=
  match source.toList with
  | '\uFEFF' :: rest => tokensOf (unifyNewlines rest)
  | text => tokensOf (unifyNewlines text)

end StyleSieve.Markup
