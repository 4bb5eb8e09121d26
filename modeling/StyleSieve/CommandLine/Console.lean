import StyleSieve.Text.Surrogate

/-!
# Texts for the console

What is printed is stripped of the sequences that steer terminals.  Messages are
printed even if they cannot be written in bytes as they are.
-/

namespace StyleSieve.CommandLine

/-- The text after the parameters and the letter that end a sequence for
terminals, if they are there. -/
def afterSequence? (text : List Char) : Option (List Char) :=
  match text.dropWhile fun c => c.isDigit || c == ';' || c == '?' with
  | c :: rest => if c.isAlpha then some rest else none
  | [] => none

theorem afterSequence?_length {text rest : List Char} (found : afterSequence? text = some rest) :
    rest.length < text.length := by
  unfold afterSequence? at found
  have shorter := (List.dropWhile_suffix (l := text)
    (fun c => c.isDigit || c == ';' || c == '?')).length_le
  split at found
  case h_1 c more dropped =>
    split at found
    · cases found
      rw [dropped] at shorter
      simp only [List.length_cons] at shorter
      omega
    · cases found
  case h_2 => cases found

/-- A text without sequences for terminals. -/
def withoutSequences (text : List Char) : List Char :=
  match text with
  | '\x1b' :: '[' :: rest =>
      match _found : afterSequence? rest with
      | some after => withoutSequences after
      | none => '\x1b' :: withoutSequences ('[' :: rest)
  | c :: rest => c :: withoutSequences rest
  | [] => []
termination_by text.length
decreasing_by
  · have := afterSequence?_length _found
    simp
    omega
  · simp
  · simp

/-- A text as it is printed. -/
def printed (text : String) : String :=
  String.ofList (withoutSequences text.toList)

/-- A text as it is printed among the messages. -/
def told (text : String) : String :=
  Text.spellSurrogates (printed text)

end StyleSieve.CommandLine
