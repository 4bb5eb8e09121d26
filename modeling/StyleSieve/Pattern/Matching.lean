import StyleSieve.Pattern.Reader
import StyleSieve.Text.LetterCase

/-!
# Matching patterns

A match is sought by trying the alternatives in order.  Matching a part means
handing every place where it may end, best first, to what has to follow, until
that succeeds.
-/

namespace StyleSieve.Pattern

/-- A place in a text: the characters before it, last one first, those after
it, and what the groups have matched so far, latest one first. -/
structure Place where
  before : List Char
  after : List Char
  groups : List (Nat × List Char) := []

/-- What has to follow a part, at the place where the part ends. -/
abbrev Follow := Place → Option Place

/-- Whether a character belongs to a named class. -/
def CharKind.contains (kind : CharKind) (asciiOnly : Bool) (c : Char) : Bool :=
  match kind, asciiOnly with
  | .digit, true => c.isDigit
  | .digit, false => Text.isDecimal c
  | .space, true => c == ' ' || (9 ≤ c.toNat && c.toNat ≤ 13)
  | .space, false => Text.isBlank c
  | .word, true => c.isAlphanum || c == '_'
  | .word, false => Text.isAlphanumeric c || c == '_'

/-- Whether two characters count as equal. -/
def Folding.same (folding : Folding) (c d : Char) : Bool :=
  match folding with
  | .exact => c == d
  | .ascii => c.toLower == d.toLower
  | .full => Text.sameLetter c d

/-- The code points of the characters that count as equal to one. -/
def Folding.forms (folding : Folding) (c : Char) : List Nat :=
  match folding with
  | .exact => [Text.codePoint c]
  | .ascii => [Text.codePoint c.toLower, Text.codePoint c.toUpper]
  | .full => if Text.isStandIn c then [Text.codePoint c] else Text.formsOf c

/-- Whether a character counts as a member of a set's item.  A single character
beyond the basic plane is compared as it stands with the lower-case form. -/
def SetItem.contains (folding : Folding) (c : Char) : SetItem → Bool
  | .char d =>
      if folding == .full && 0xFFFF < d.toNat then Text.toLower c == d else folding.same d c
  | .range first last =>
      (folding.forms c).any fun code => Text.codePoint first ≤ code && code ≤ Text.codePoint last
  | .kind named negated asciiOnly => named.contains asciiOnly c != negated

namespace Place

/-- The place after one more character, if that character is allowed. -/
def step (place : Place) (allowed : Char → Bool) (follow : Follow) : Option Place :=
  match place.after with
  | c :: rest =>
      if allowed c then follow { place with before := c :: place.before, after := rest }
      else none
  | [] => none

/-- The place after some more characters. -/
def advance (place : Place) (count : Nat) : Place :=
  { place with
    before := (place.after.take count).reverse ++ place.before
    after := place.after.drop count }

/-- The place some characters before, if there are so many. -/
def retreat? (place : Place) (count : Nat) : Option Place :=
  if place.before.length < count then none
  else some
    { place with
      before := place.before.drop count
      after := (place.before.take count).reverse ++ place.after }

/-- What a group has matched, if it has. -/
def group? (place : Place) (index : Nat) : Option (List Char) :=
  place.groups.lookup index

/-- Records that a group has matched the characters from an earlier place on. -/
def capture (place : Place) (index : Nat) (start : Place) : Place :=
  let text := start.after.take (place.before.length - start.before.length)
  { place with groups := (index, text) :: place.groups.filter (·.1 != index) }

end Place

/-- Whether a condition holds at a place. -/
def Anchor.holds (anchor : Anchor) (place : Place) : Bool :=
  match anchor with
  | .textStart => place.before.isEmpty
  | .lineStart => place.before.isEmpty || place.before.head? == some '\n'
  | .textEnd => place.after.isEmpty
  | .finalEnd => place.after.isEmpty || place.after == ['\n']
  | .lineEnd => place.after.isEmpty || place.after.head? == some '\n'
  | .boundary negated asciiOnly =>
      let isWord := fun (c : Option Char) => c.any (CharKind.contains .word asciiOnly)
      if place.before.isEmpty && place.after.isEmpty then false
      else (isWord place.before.head? != isWord place.after.head?) != negated

/-- A part, as a function of what has to follow it. -/
abbrev Part := Place → Follow → Option Place

/-- Rounds of a part that takes as many as it can and gives them back one by
one.  A round that takes nothing is the last. -/
def greedyRounds (part : Part) (least : Nat) (greatest : Option Nat) (follow : Follow) :
    Nat → Nat → Option Nat → Place → Option Place
  | 0, _, _, place => follow place
  | fuel + 1, count, last, place =>
      let again (last : Option Nat) := part place fun next =>
        if next.after.length = place.after.length && count < least then
          greedyRounds part least greatest follow fuel (max least (count + 1)) last next
        else greedyRounds part least greatest follow fuel (count + 1) last next
      if count < least then again last
      else if greatest.all (count < ·) && last ≠ some place.after.length then
        again (some place.after.length) <|> follow place
      else follow place

/-- Rounds of a part that takes as few as it can and adds them one by one. -/
def lazyRounds (part : Part) (least : Nat) (greatest : Option Nat) (follow : Follow) :
    Nat → Nat → Option Nat → Place → Option Place
  | 0, _, _, place => follow place
  | fuel + 1, count, last, place =>
      let again (last : Option Nat) := part place fun next =>
        if next.after.length = place.after.length && count < least then
          lazyRounds part least greatest follow fuel (max least (count + 1)) last next
        else lazyRounds part least greatest follow fuel (count + 1) last next
      if count < least then again last
      else
        follow place <|>
          (if greatest.all (count < ·) && last ≠ some place.after.length then
            again (some place.after.length)
          else none)

/-- The place where rounds of a part end that takes as many as it can and gives
none back. -/
def possessiveRounds (part : Part) (least : Nat) (greatest : Option Nat) :
    Nat → Nat → Place → Option Place
  | 0, _, place => some place
  | fuel + 1, count, place =>
      let next? := part place some
      match next? with
      | none => if count < least then none else some place
      | some next =>
          if next.after.length = place.after.length then
            if greatest.all (count < ·) || count < least then some next else some place
          else if greatest.all (count < ·) || count < least then
            possessiveRounds part least greatest fuel (count + 1) next
          else some place

/-- More rounds than a repetition can need from a place on. -/
def enoughRounds (least : Nat) (place : Place) : Nat :=
  least + place.after.length + 2

mutual

/-- Matches a node at a place. -/
def Node.run : Node → Part
  | .char c negated folding => fun place follow =>
      place.step (fun d => folding.same c d != negated) follow
  | .set items negated folding => fun place follow =>
      place.step (fun c => items.any (·.contains folding c) != negated) follow
  | .any newlines => fun place follow =>
      place.step (fun c => newlines || c != '\n') follow
  | .anchor anchor => fun place follow =>
      if anchor.holds place then follow place else none
  | .plain body => runAll body
  | .group index body => fun place follow =>
      runAll body place fun next => follow (next.capture index place)
  | .atomic body => fun place follow =>
      match runAll body place some with
      | some next => follow next
      | none => none
  | .look behind negated body => fun place follow =>
      let start? := if behind then place.retreat? (widthOf body).least else some place
      match start?.bind fun start => runAll body start some with
      | some next =>
          if negated then none else follow { place with groups := next.groups }
      | none => if negated then follow place else none
  | .same index folding _ => fun place follow =>
      match place.group? index with
      | none => none
      | some text =>
          let found := place.after.take text.length
          if found.length = text.length &&
              (text.zip found).all (fun (c, d) => folding.same c d) then
            follow (place.advance text.length)
          else none
  | .ifGroup index whenSet whenUnset => fun place follow =>
      if (place.group? index).isSome then runAll whenSet place follow
      else runAll whenUnset place follow
  | .branch alternatives => runAny alternatives
  | .iterate least greatest greed body => fun place follow =>
      match greed with
      | .greedy =>
          greedyRounds (runAll body) least greatest follow (enoughRounds least place) 0 none place
      | .lazy =>
          lazyRounds (runAll body) least greatest follow (enoughRounds least place) 0 none place
      | .possessive =>
          match possessiveRounds (runAll body) least greatest (enoughRounds least place) 0 place with
          | some next => follow next
          | none => none

/-- Matches a sequence at a place. -/
def runAll : List Node → Part
  | [] => fun place follow => follow place
  | node :: rest => fun place follow => node.run place fun next => runAll rest next follow

/-- Matches the first sequence that lets what follows succeed. -/
def runAny : List (List Node) → Part
  | [] => fun _ _ => none
  | body :: rest => fun place follow =>
      runAll body place follow <|> runAny rest place follow

end

/-- Whether a sequence matches somewhere from a place on. -/
def foundFrom (body : List Node) (before : List Char) : List Char → Bool
  | [] => (runAll body ⟨before, [], []⟩ some).isSome
  | c :: rest =>
      (runAll body ⟨before, c :: rest, []⟩ some).isSome || foundFrom body (c :: before) rest

end StyleSieve.Pattern

namespace StyleSieve

/-- Whether a pattern matches some part of a text. -/
def Pattern.foundIn (pattern : Pattern) (text : String) : Bool :=
  Pattern.foundFrom pattern.body [] text.toList

end StyleSieve
