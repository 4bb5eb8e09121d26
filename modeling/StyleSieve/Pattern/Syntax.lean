/-!
# Patterns

A pattern describes a set of texts.  It is a sequence of nodes; every node
carries what the flags in force at its place mean for it, so that matching
needs no flags.
-/

namespace StyleSieve.Pattern

/-- Whether letters of different case count as equal, and for which letters. -/
inductive Folding where
  | exact
  | ascii
  | full
  deriving DecidableEq, Repr

/-- The named classes of characters. -/
inductive CharKind where
  | digit
  | space
  | word
  deriving DecidableEq, Repr

/-- A member of a character set. -/
inductive SetItem where
  | char (c : Char)
  | range (first last : Char)
  | kind (kind : CharKind) (negated : Bool) (asciiOnly : Bool)
  deriving DecidableEq, Repr

/-- Conditions on a place in a text. -/
inductive Anchor where
  | textStart
  | lineStart
  | textEnd
  | finalEnd
  | lineEnd
  | boundary (negated : Bool) (asciiOnly : Bool)
  deriving DecidableEq, Repr

/-- How a repetition chooses the number of its rounds. -/
inductive Greed where
  | greedy
  | lazy
  | possessive
  deriving DecidableEq, Repr

/-- The least and the greatest length of what a pattern matches; there may be
no greatest. -/
structure Width where
  least : Nat
  greatest : Option Nat
  deriving DecidableEq, Repr

/-- A part of a pattern. -/
inductive Node where
  | char (c : Char) (negated : Bool) (folding : Folding)
  | set (items : List SetItem) (negated : Bool) (folding : Folding)
  | any (newlines : Bool)
  | anchor (anchor : Anchor)
  | plain (body : List Node)
  | group (index : Nat) (body : List Node)
  | atomic (body : List Node)
  | look (behind negated : Bool) (body : List Node)
  | same (index : Nat) (folding : Folding) (width : Width)
  | ifGroup (index : Nat) (whenSet whenUnset : List Node)
  | branch (alternatives : List (List Node))
  | iterate (least : Nat) (greatest : Option Nat) (greed : Greed) (body : List Node)
  deriving Repr

namespace Width

/-- The width of nothing. -/
def zero : Width := ⟨0, some 0⟩

/-- The width of one character. -/
def one : Width := ⟨1, some 1⟩

/-- The width of two parts in sequence. -/
def add (first second : Width) : Width :=
  ⟨first.least + second.least, do return (← first.greatest) + (← second.greatest)⟩

/-- The width of either of two parts. -/
def either (first second : Width) : Width :=
  ⟨min first.least second.least, do return max (← first.greatest) (← second.greatest)⟩

/-- The width of a repeated part. -/
def iterate (width : Width) (least : Nat) (greatest : Option Nat) : Width :=
  ⟨width.least * least,
    match width.greatest, greatest with
    | some 0, _ => some 0
    | some size, some count => some (size * count)
    | some _, none => none
    | none, count => if count = some 0 then some 0 else none⟩

end Width

mutual

/-- The width of a node. -/
def Node.width : Node → Width
  | .char .. | .set .. | .any _ => .one
  | .anchor _ | .look .. => .zero
  | .plain body | .group _ body | .atomic body => widthOf body
  | .same _ _ width => width
  | .ifGroup _ whenSet whenUnset => (widthOf whenSet).either (widthOf whenUnset)
  | .branch alternatives => widthOfAny alternatives
  | .iterate least greatest _ body => (widthOf body).iterate least greatest

/-- The width of a sequence of nodes. -/
def widthOf : List Node → Width
  | [] => .zero
  | node :: rest => node.width.add (widthOf rest)

/-- The width of any of several sequences. -/
def widthOfAny : List (List Node) → Width
  | [] => .zero
  | [body] => widthOf body
  | body :: rest => (widthOf body).either (widthOfAny rest)

end

end StyleSieve.Pattern
