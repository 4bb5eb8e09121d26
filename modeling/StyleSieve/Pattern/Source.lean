import StyleSieve.Pattern.Syntax
import StyleSieve.Pattern.Flaw

/-!
# The text of a pattern while it is read

A pattern is read one sign at a time; a sign is a character, or a backslash
with the character after it.  A backslash that nothing follows is refused as
soon as it comes next.
-/

namespace StyleSieve.Pattern

/-- The flags in force at a place of a pattern. -/
structure Mode where
  ignoreCase : Bool := false
  multiline : Bool := false
  dotAll : Bool := false
  verbose : Bool := false
  asciiOnly : Bool := false
  fullRange : Bool := false
  template : Bool := false
  deriving DecidableEq, Repr

/-- How letters are compared under some flags. -/
def Mode.folding (mode : Mode) : Folding :=
  if !mode.ignoreCase then .exact else if mode.asciiOnly then .ascii else .full

/-- A pattern being read: what is left, the number of characters before it, and
what has been learned about groups and flags.  A group that is still open has
no width. -/
structure Reading where
  source : String
  rest : List Char
  position : Nat
  widths : List (Option Width) := []
  names : List (String × Nat) := []
  lookbehindFloor : Option Nat := none
  pending : List (Nat × Nat) := []
  flags : Mode

/-- Reading a part of a pattern. -/
abbrev Read := StateT Reading (Except Failure)

/-- A sign of a pattern. -/
abbrev Sign := List Char

/-- The sign that a text starts with. -/
def leadingSign? : List Char → Option Sign
  | [] => none
  | '\\' :: c :: _ => some ['\\', c]
  | c :: _ => some [c]

namespace Read

/-- Fails with a flaw at the place `back` characters before the present one. -/
def fail {α : Type} (flaw : Flaw) (back : Nat := 0) : Read α := fun reading =>
  .error (.malformed ⟨reading.source, flaw, some (reading.position - back)⟩)

/-- Refuses a backslash at the end of a pattern when it comes next. -/
def refuseDangling : Read Unit := fun reading =>
  if reading.rest == ['\\'] then
    .error (.malformed ⟨reading.source, .danglingEscape, some reading.position⟩)
  else .ok ((), reading)

/-- The next sign, if there is one. -/
def peek? : Read (Option Sign) := do
  return leadingSign? (← get).rest

/-- The next sign, if there is one, which is taken off. -/
def next? : Read (Option Sign) := do
  let reading ← get
  match leadingSign? reading.rest with
  | none => return none
  | some sign =>
      set { reading with
        rest := reading.rest.drop sign.length
        position := reading.position + sign.length }
      refuseDangling
      return some sign

/-- Takes the next sign off if it is the given character. -/
def accept (c : Char) : Read Bool := do
  if (← peek?) == some [c] then
    let _ ← next?
    return true
  else return false

/-- Takes off at most `count` signs that are characters of a kind. -/
def takeUpTo (allowed : Char → Bool) : Nat → Read (List Char)
  | 0 => return []
  | count + 1 => do
      match ← peek? with
      | some [c] =>
          if allowed c then
            let _ ← next?
            return c :: (← takeUpTo allowed count)
          else return []
      | _ => return []

/-- Takes off all signs that are characters of a kind, while `fuel` lasts. -/
def takeAll (allowed : Char → Bool) : Read (List Char) := do
  takeUpTo allowed (← get).rest.length

/-- Takes off the signs up to a terminator, which is taken off too.  The result
is not empty; `what` says what is missing if it is. -/
def takeUntil (terminator : Char) (what : String) : Read (List Char) := do
  go (← get).rest.length []
where
  /-- The same after the characters `read` have been read. -/
  go (fuel : Nat) (read : List Char) : Read (List Char) := do
    match fuel, ← next? with
    | fuel + 1, some sign =>
        if sign == [terminator] then
          if read.isEmpty then fail (.missingName what) 1 else return read
        else go fuel (read ++ sign)
    | _, _ =>
        if read.isEmpty then fail (.missingName what)
        else fail (.unterminatedName terminator) read.length

/-- The present place, to return to. -/
def mark : Read (List Char × Nat) := do
  let reading ← get
  return (reading.rest, reading.position)

/-- Returns to an earlier place. -/
def returnTo (place : List Char × Nat) : Read Unit := do
  modify fun reading => { reading with rest := place.1, position := place.2 }
  refuseDangling

end Read

end StyleSieve.Pattern
