/-!
# Splitting texts

Cutting a text at its first separator, or at every separator.
-/

namespace StyleSieve.Text

/-- The pieces of a text between its separators; there is one piece more than
separators. -/
def splitAtChar (separator : Char) : List Char → List (List Char)
  | [] => [[]]
  | c :: rest =>
      match splitAtChar separator rest with
      | piece :: pieces =>
          if c = separator then [] :: piece :: pieces else (c :: piece) :: pieces
      | [] => [[c]]

/-- A text between whose pieces a separator stands. -/
def joinWith (separator : Char) : List (List Char) → List Char
  | [] => []
  | [piece] => piece
  | piece :: rest => piece ++ separator :: joinWith separator rest

/-- What stands before the first character of a kind, and what stands after it
if there is one. -/
def cutAt (separates : Char → Bool) (text : List Char) : List Char × Option (List Char) :=
  match text.dropWhile (!separates ·) with
  | [] => (text, none)
  | _ :: after => (text.takeWhile (!separates ·), some after)

theorem splitAtChar_ne_nil (separator : Char) (text : List Char) :
    splitAtChar separator text ≠ [] := by
  cases text with
  | nil => simp [splitAtChar]
  | cons c rest =>
      unfold splitAtChar
      split
      · split <;> simp
      · simp

end StyleSieve.Text
