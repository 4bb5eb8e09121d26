/-!
# Similar words

Two words are alike as far as they share runs of characters in the same order:
the longest run that both have, and what is shared before it and after it.
-/

namespace StyleSieve.CommandLine

/-- The number of characters that two texts start with in common. -/
def commonStart : List Char → List Char → Nat
  | c :: first, d :: second => if c = d then commonStart first second + 1 else 0
  | _, _ => 0

/-- A run of characters that two texts share: where it starts in each, and its
length. -/
structure SharedRun where
  first : Nat
  second : Nat
  length : Nat
  deriving DecidableEq, Repr

/-- The longest run that two texts share; of several, the one that starts first
in the first text, and then in the second. -/
def longestShared (first second : List Char) : SharedRun :=
  (List.range first.length).foldl
    (fun best i =>
      (List.range second.length).foldl
        (fun best j =>
          let length := commonStart (first.drop i) (second.drop j)
          if best.length < length then ⟨i, j, length⟩ else best)
        best)
    ⟨0, 0, 0⟩

/-- The number of characters that two texts share in at most `fuel` runs one
inside the other. -/
def sharedWithin : Nat → List Char → List Char → Nat
  | 0, _, _ => 0
  | fuel + 1, first, second =>
      let run := longestShared first second
      if run.length = 0 then 0
      else
        sharedWithin fuel (first.take run.first) (second.take run.second) + run.length +
          sharedWithin fuel (first.drop (run.first + run.length))
            (second.drop (run.second + run.length))

/-- The number of characters that two texts share. -/
def shared (first second : List Char) : Nat :=
  sharedWithin first.length first second

/-- A word with what it shares with another one, out of the length of both. -/
structure Likeness where
  word : String
  shared : Nat
  total : Nat

/-- Whether a word is more like the other one than a second word is; of two that
are equally like it the later one in alphabetical order comes first. -/
def Likeness.precedes (first second : Likeness) : Bool :=
  second.shared * first.total < first.shared * second.total ||
    second.shared * first.total == first.shared * second.total && !(first.word < second.word)

/-- Those of some words that share three fifths of the characters with a word,
the likest first, and at most three of them. -/
def similarWords (word : String) (words : List String) : List String :=
  let likenesses := words.map fun candidate =>
    (⟨candidate, shared candidate.toList word.toList, candidate.length + word.length⟩ : Likeness)
  let close := likenesses.filter fun likeness => 3 * likeness.total ≤ 10 * likeness.shared
  ((close.mergeSort Likeness.precedes).take 3).map (·.word)

end StyleSieve.CommandLine
