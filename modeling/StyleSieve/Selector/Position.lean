import StyleSieve.Selector.Syntax

/-!
# Positions among siblings

The arguments of a position function spell a step and an offset: the positions
are the offset plus any multiple of the step, counted from one.
-/

namespace StyleSieve.Selector

open Css

/-- A step and an offset. -/
structure Progression where
  step : Int
  offset : Int
  deriving DecidableEq, Repr

/-- Whether a progression contains the position after some number of elements. -/
def Progression.contains (progression : Progression) (before : Nat) : Bool :=
  let distance : Int := before - (progression.offset - 1)
  if progression.step = 0 then distance = 0
  else distance % progression.step = 0 && 0 ≤ distance / progression.step

/-- The value of an integer spelled with an optional sign. -/
def integerOf (spelling : List Char) : Int :=
  let value := fun (digits : List Char) =>
    (digits.foldl (fun value digit => 10 * value + (digit.toNat - '0'.toNat)) 0 : Nat)
  match spelling with
  | '-' :: digits => -(value digits)
  | '+' :: digits => value digits
  | digits => value digits

/-- Whether a number is spelled as an integer. -/
def isInteger (spelling : List Char) : Bool :=
  spelling.all fun c => c.isDigit || c == '+' || c == '-'

/-- Whether a number is spelled with a sign. -/
def isSigned (spelling : List Char) : Bool :=
  spelling.head? == some '+' || spelling.head? == some '-'

/-- The number that a word starting with `n` ends with, as in `n-3`. -/
def offsetInWord? (word : List Char) : Option Int :=
  match word with
  | 'n' :: '-' :: digits =>
      if !digits.isEmpty && digits.all Char.isDigit then some (-(integerOf digits)) else none
  | _ => none

/-- The progression, if nothing is left but white space. -/
def endWith (progression : Progression) (rest : List Component) :
    Except Defect (Option Progression) :=
  .ok (if rest.all Component.isGap then some progression else none)

/-- The progression with a step, whose offset has had its sign read. -/
def readUnsignedOffset (step sign : Int) (rest : List Component) :
    Except Defect (Option Progression) :=
  match rest.dropWhile Component.isGap with
  | [] => .error .stepEnds
  | .token _ (.number spelling) :: more =>
      if isInteger spelling && !isSigned spelling then
        endWith ⟨step, sign * integerOf spelling⟩ more
      else .ok none
  | _ => .ok none

/-- The progression with a step, whose offset is still to be read. -/
def readOffset (step : Int) (rest : List Component) : Except Defect (Option Progression) :=
  match rest.dropWhile Component.isGap with
  | [] => .ok (some ⟨step, 0⟩)
  | next :: more =>
      if next.isDelim "+" then readUnsignedOffset step 1 more
      else if next.isDelim "-" then readUnsignedOffset step (-1) more
      else
        match next with
        | .token _ (.number spelling) =>
            if isInteger spelling && isSigned spelling then
              endWith ⟨step, integerOf spelling⟩ more
            else .ok none
        | _ => .ok none

/-- The progression that starts with a word, where the step has `sign`. -/
def readWord (sign : Int) (word : List Char) (rest : List Component) :
    Except Defect (Option Progression) :=
  if word == ['n'] then readOffset sign rest
  else if word == ['n', '-'] then readUnsignedOffset sign (-1) rest
  else
    match offsetInWord? word with
    | some offset => endWith ⟨sign, offset⟩ rest
    | none => .ok none

/-- The progression that arguments spell, if they spell one. -/
def Progression.read (arguments : List Component) : Except Defect (Option Progression) :=
  match arguments.dropWhile Component.isGap with
  | [] => .ok none
  | .token _ (.number spelling) :: rest =>
      if isInteger spelling then endWith ⟨0, integerOf spelling⟩ rest else .ok none
  | .token _ (.dimension spelling unit) :: rest =>
      if isInteger spelling then
        let word := lowerAscii unit
        let step := integerOf spelling
        if word == ['n'] then readOffset step rest
        else if word == ['n', '-'] then readUnsignedOffset step (-1) rest
        else
          match offsetInWord? word with
          | some offset => endWith ⟨step, offset⟩ rest
          | none => .ok none
      else .ok none
  | .token _ (.ident name) :: rest =>
      let word := lowerAscii name
      if word == "even".toList then endWith ⟨2, 0⟩ rest
      else if word == "odd".toList then endWith ⟨2, 1⟩ rest
      else
        match word with
        | '-' :: inner => readWord (-1) inner rest
        | _ => readWord 1 word rest
  | first :: rest =>
      if first.isDelim "+" then
        match rest with
        | [] => .error .loneSign
        | .token _ (.ident name) :: more => readWord 1 (lowerAscii name) more
        | _ => .ok none
      else .ok none

end StyleSieve.Selector
