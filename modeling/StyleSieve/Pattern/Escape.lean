import StyleSieve.Pattern.Source
import StyleSieve.Css.Name
import StyleSieve.Text.CharName
import StyleSieve.Text.Letters

/-!
# Escapes in patterns

A backslash gives the character after it a meaning: a class of characters, a
place in the text, a character by its number, or an earlier group.
-/

namespace StyleSieve.Pattern

open Css (isHexDigit hexValue)

/-- Whether a character is an octal digit. -/
def isOctalDigit (c : Char) : Bool :=
  '0' ≤ c && c ≤ '7'

/-- The value of a run of digits in a base up to ten. -/
def digitsValue (base : Nat) (digits : List Char) : Nat :=
  digits.foldl (fun value digit => base * value + (digit.toNat - '0'.toNat)) 0

/-- The control characters that letters stand for. -/
def controlEscape? (c : Char) : Option Char :=
  match c with
  | 'a' => some '\x07'
  | 'b' => some '\x08'
  | 'f' => some '\x0c'
  | 'n' => some '\n'
  | 'r' => some '\r'
  | 't' => some '\t'
  | 'v' => some '\x0b'
  | '\\' => some '\\'
  | _ => none

/-- The classes that letters stand for. -/
def kindEscape? (asciiOnly : Bool) (c : Char) : Option SetItem :=
  match c with
  | 'd' => some (.kind .digit false asciiOnly)
  | 'D' => some (.kind .digit true asciiOnly)
  | 's' => some (.kind .space false asciiOnly)
  | 'S' => some (.kind .space true asciiOnly)
  | 'w' => some (.kind .word false asciiOnly)
  | 'W' => some (.kind .word true asciiOnly)
  | _ => none

/-- The places that letters stand for. -/
def anchorEscape? (asciiOnly : Bool) (c : Char) : Option Anchor :=
  match c with
  | 'A' => some .textStart
  | 'Z' => some .textEnd
  | 'b' => some (.boundary false asciiOnly)
  | 'B' => some (.boundary true asciiOnly)
  | _ => none

/-- A character given by exactly `count` hexadecimal digits. -/
def readHexEscape (letter : Char) (count : Nat) : Read Char := do
  let digits ← Read.takeUpTo isHexDigit count
  let spelling := '\\' :: letter :: digits
  if digits.length ≠ count then
    Read.fail (.incompleteEscape (String.ofList spelling)) spelling.length
  else if 0x10FFFF < hexValue digits then
    Read.fail (.badEscape (String.ofList spelling)) spelling.length
  else return Text.charAt (hexValue digits)

/-- A character given by its name. -/
def readNamedEscape : Read Char := do
  if ← Read.accept '\x7b' then
    let name ← Read.takeUntil '\x7d' "character name"
    match Text.charNamed? (String.ofList name) with
    | some c => return c
    | none => Read.fail (.unknownCharacterName (String.ofList name)) (name.length + 4)
  else Read.fail .missingBrace

/-- A character given by octal digits. -/
def octalChar (digits : List Char) : Read Char := do
  let spelling := '\\' :: digits
  if 0o377 < digitsValue 8 digits then
    Read.fail (.octalTooLarge (String.ofList spelling)) spelling.length
  else return Char.ofNat (digitsValue 8 digits)

/-- The character of an escape whose meaning is the same everywhere. -/
def readPlainEscape (c : Char) : Read Char := do
  if c == 'x' then readHexEscape c 2
  else if c == 'u' then readHexEscape c 4
  else if c == 'U' then readHexEscape c 8
  else if c == 'N' then readNamedEscape
  else if c.isAlphanum then
    Read.fail (.badEscape (String.ofList ['\\', c])) 2
  else return c

/-- The member that an escape in a character set stands for. -/
def readSetEscape (mode : Mode) (c : Char) : Read SetItem := do
  if let some control := controlEscape? c then return .char control
  if let some item := kindEscape? mode.asciiOnly c then return item
  if isOctalDigit c then
    return .char (← octalChar (c :: (← Read.takeUpTo isOctalDigit 2)))
  return .char (← readPlainEscape c)

/-- Checks that a group can be referred to from inside a lookbehind. -/
def checkLookbehind (index : Nat) : Read Unit := do
  let reading ← get
  match reading.lookbehindFloor with
  | none => return ()
  | some floor =>
      if ((reading.widths[index - 1]?).bind id).isNone then Read.fail .openGroup
      else if floor ≤ index then Read.fail .groupInSameLookbehind
      else return ()

/-- A reference to an earlier group; a flaw stands `back` characters before. -/
def referTo (mode : Mode) (index back : Nat) : Read Node := do
  match (← get).widths[index - 1]? with
  | some (some width) =>
      checkLookbehind index
      return .same index mode.folding width
  | _ => Read.fail .openGroup back

/-- The node of a group number or an octal number that starts with `c`. -/
def readNumberEscape (mode : Mode) (c : Char) : Read Node := do
  let literal (digits : List Char) : Read Node := do
    return .char (← octalChar digits) false mode.folding
  let refer (digits : List Char) : Read Node := do
    let index := digitsValue 10 digits
    if index ≤ (← get).widths.length then
      referTo mode index (digits.length + 1)
    else Read.fail (.invalidGroup index) digits.length
  if c == '0' then literal (c :: (← Read.takeUpTo isOctalDigit 2))
  else
    match ← Read.takeUpTo Char.isDigit 1 with
    | [d] =>
        if isOctalDigit c && isOctalDigit d then
          match ← Read.takeUpTo isOctalDigit 1 with
          | [e] => literal [c, d, e]
          | _ => refer [c, d]
        else refer [c, d]
    | _ => refer [c]

/-- The node that an escape outside a character set stands for. -/
def readEscape (mode : Mode) (c : Char) : Read Node := do
  if let some anchor := anchorEscape? mode.asciiOnly c then return .anchor anchor
  if let some item := kindEscape? mode.asciiOnly c then
    return .set [item] false mode.folding
  if let some control := controlEscape? c then
    return .char control false mode.folding
  if c.isDigit then readNumberEscape mode c
  else return .char (← readPlainEscape c) false mode.folding

end StyleSieve.Pattern
