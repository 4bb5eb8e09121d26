import StyleSieve.Css.Name
import StyleSieve.Markup.EntityTable
import StyleSieve.Text.CodeRange

/-!
# Character references

An ampersand may start a reference to a character, by its number or by its
name.  An ampersand that starts none stands for itself.
-/

namespace StyleSieve.Markup

open Text (splitAtChar upperHexValue cutAt)

/-- A name with the characters it stands for.  Some old names may do without
the semicolon. -/
structure Entity where
  name : List Char
  needsSemicolon : Bool
  value : List Char
  deriving Repr

/-- The entity that an entry of the table spells. -/
def Entity.ofSpelling (spelling : List Char) : Entity :=
  let codes := fun (text : List Char) =>
    (splitAtChar '+' text).map fun code => Char.ofNat (upperHexValue code)
  match cutAt (· == '!') spelling with
  | (name, some value) => ⟨name, false, codes value⟩
  | (_, none) =>
      match cutAt (· == ':') spelling with
      | (name, some value) => ⟨name, true, codes value⟩
      | (name, none) => ⟨name, true, []⟩

/-- The named characters. -/
def entities : List Entity :=
  entityLines.flatMap fun line => (splitAtChar ' ' line.toList).map Entity.ofSpelling

/-- The characters that numbers from 128 to 159 stand for in practice. -/
def controlSubstitutes : List Nat :=
  [0x20AC, 0x81, 0x201A, 0x192, 0x201E, 0x2026, 0x2020, 0x2021, 0x2C6, 0x2030, 0x160, 0x2039,
   0x152, 0x8D, 0x17D, 0x8F, 0x90, 0x2018, 0x2019, 0x201C, 0x201D, 0x2022, 0x2013, 0x2014,
   0x2DC, 0x2122, 0x161, 0x203A, 0x153, 0x9D, 0x17E, 0x178]

/-- The character that a numeric reference stands for. -/
def charOfNumber (number : Nat) : Char :=
  if 0x80 ≤ number ∧ number < 0xA0 then Char.ofNat (controlSubstitutes.getD (number - 0x80) number)
  else if number ≠ 0 ∧ number.isValidChar then Char.ofNat number
  else Css.replacement

/-- Text without a semicolon in front. -/
def dropSemicolon : List Char → List Char
  | ';' :: rest => rest
  | text => text

/-- The character of a numeric reference, after its ampersand and hash, and the
text after it. -/
def numericReference? (text : List Char) : Option (List Char × List Char) :=
  match text with
  | x :: rest =>
      if x == 'x' || x == 'X' then
        let digits := rest.takeWhile Css.isHexDigit
        if digits.isEmpty then none
        else some ([charOfNumber (Css.hexValue digits)], dropSemicolon (rest.drop digits.length))
      else
        let digits := text.takeWhile Char.isDigit
        let value := digits.foldl (fun value c => 10 * value + (c.toNat - '0'.toNat)) 0
        if digits.isEmpty then none
        else some ([charOfNumber value], dropSemicolon (text.drop digits.length))
  | [] => none

/-- The longest name without a semicolon that a word starts with. -/
def leadingEntity? (word : List Char) : Nat → Option Entity
  | 0 => none
  | length + 1 =>
      let name := word.take (length + 1)
      match entities.find? fun entity => !entity.needsSemicolon && entity.name == name with
      | some entity => some entity
      | none => leadingEntity? word length

/-- The characters of a named reference, after its ampersand, and the text after
it.  In an attribute, a name without a semicolon counts only if no letter, digit
or equals sign follows. -/
def namedReference? (inAttribute : Bool) (text : List Char) : Option (List Char × List Char) :=
  let word := text.takeWhile Char.isAlphanum
  let after := text.drop word.length
  let whole? :=
    if after.head? == some ';' then entities.find? (·.name == word) else none
  match whole? with
  | some entity => some (entity.value, after.drop 1)
  | none =>
      match leadingEntity? word (min word.length 8) with
      | none => none
      | some entity =>
          let rest := text.drop entity.name.length
          let continues := rest.head?.any fun c => c == '=' || c.isAlphanum
          if inAttribute && continues then none else some (entity.value, rest)

/-- The characters of a reference, after its ampersand, and the text after it. -/
def reference? (inAttribute : Bool) (text : List Char) : Option (List Char × List Char) :=
  match text with
  | '#' :: rest => numericReference? rest
  | _ => namedReference? inAttribute text

/-- A text with its references resolved.  The fuel bounds the length of what is
left. -/
def resolveWithin (inAttribute : Bool) : Nat → List Char → List Char
  | 0, text => text
  | _ + 1, [] => []
  | fuel + 1, c :: rest =>
      if c == '&' then
        match reference? inAttribute rest with
        | some (value, after) => value ++ resolveWithin inAttribute fuel after
        | none => c :: resolveWithin inAttribute fuel rest
      else c :: resolveWithin inAttribute fuel rest

/-- A text with its references resolved. -/
def resolveReferences (inAttribute : Bool) (text : List Char) : List Char :=
  resolveWithin inAttribute text.length text

end StyleSieve.Markup
