import StyleSieve.Text.Split

/-!
# Pieces of texts

The pieces between the separators of a text hold no separator, and they are the pieces that the
text is put together from.
-/

namespace StyleSieve.Text

variable {separator : Char}

/-- How a character goes before the pieces of a text: a separator starts a piece of its own, and
any other character joins the first piece. -/
theorem splitAtChar_cons (separator c : Char) (rest : List Char) :
    (c = separator ∧ splitAtChar separator (c :: rest) = [] :: splitAtChar separator rest) ∨
      (c ≠ separator ∧ ∃ piece more, splitAtChar separator rest = piece :: more ∧
        splitAtChar separator (c :: rest) = (c :: piece) :: more) := by
  rw [splitAtChar]
  cases pieces : splitAtChar separator rest with
  | nil => exact absurd pieces (splitAtChar_ne_nil separator rest)
  | cons piece more =>
      by_cases same : c = separator
      · exact .inl ⟨same, if_pos same⟩
      · exact .inr ⟨same, piece, more, rfl, if_neg same⟩

theorem splitAtChar_of_not_mem {text : List Char} (plain : separator ∉ text) :
    splitAtChar separator text = [text] := by
  induction text with
  | nil => rfl
  | cons c rest ih =>
      rw [List.mem_cons, not_or] at plain
      rcases splitAtChar_cons separator c rest with ⟨rfl, _⟩ | ⟨_, piece, more, pieces, whole⟩
      · exact absurd rfl plain.1
      · rw [ih plain.2] at pieces
        cases pieces
        exact whole

/-- The pieces of two texts with a separator between them. -/
theorem splitAtChar_append (front back : List Char) :
    splitAtChar separator (front ++ separator :: back) =
      splitAtChar separator front ++ splitAtChar separator back := by
  induction front with
  | nil =>
      rcases splitAtChar_cons separator separator back with ⟨_, whole⟩ | ⟨other, _⟩
      · exact whole
      · exact absurd rfl other
  | cons c rest ih =>
      rw [List.cons_append]
      rcases splitAtChar_cons separator c rest with ⟨rfl, whole⟩ | ⟨other, piece, more, pieces, whole⟩
      · rcases splitAtChar_cons c c (rest ++ c :: back) with ⟨_, longer⟩ | ⟨other, _⟩
        · rw [longer, whole, ih, List.cons_append]
        · exact absurd rfl other
      · rcases splitAtChar_cons separator c (rest ++ separator :: back) with
          ⟨same, _⟩ | ⟨_, first, later, split, longer⟩
        · exact absurd same other
        · rw [ih, pieces, List.cons_append] at split
          cases split
          rw [longer, whole, List.cons_append]

/-- The pieces of a text hold characters of the text only, and no separator. -/
theorem mem_splitAtChar {text piece : List Char} (isPiece : piece ∈ splitAtChar separator text) :
    ∀ c ∈ piece, c ∈ text ∧ c ≠ separator := by
  induction text generalizing piece with
  | nil =>
      rw [List.mem_singleton.1 isPiece]
      exact fun c member => by cases member
  | cons d rest ih =>
      intro c member
      rcases splitAtChar_cons separator d rest with ⟨_, whole⟩ | ⟨other, first, more, pieces, whole⟩
      · rw [whole] at isPiece
        rcases List.mem_cons.1 isPiece with rfl | later
        · cases member
        · exact (ih later c member).imp_left (List.mem_cons_of_mem d)
      · rw [whole] at isPiece
        rw [pieces] at ih
        rcases List.mem_cons.1 isPiece with rfl | later
        · rcases List.mem_cons.1 member with rfl | inside
          · exact ⟨List.mem_cons_self, other⟩
          · exact (ih List.mem_cons_self c inside).imp_left (List.mem_cons_of_mem d)
        · exact (ih (List.mem_cons_of_mem _ later) c member).imp_left (List.mem_cons_of_mem d)

theorem not_mem_of_mem_splitAtChar {text piece : List Char}
    (isPiece : piece ∈ splitAtChar separator text) : separator ∉ piece :=
  fun member => (mem_splitAtChar isPiece separator member).2 rfl

theorem mem_of_mem_splitAtChar {text piece : List Char} {c : Char}
    (isPiece : piece ∈ splitAtChar separator text) (member : c ∈ piece) : c ∈ text :=
  (mem_splitAtChar isPiece c member).1

theorem joinWith_cons {piece : List Char} {pieces : List (List Char)} (more : pieces ≠ []) :
    joinWith separator (piece :: pieces) = piece ++ separator :: joinWith separator pieces := by
  cases pieces with
  | nil => exact absurd rfl more
  | cons next rest => rfl

theorem head?_joinWith {piece : List Char} (filled : piece ≠ []) (pieces : List (List Char)) :
    (joinWith separator (piece :: pieces)).head? = piece.head? := by
  cases piece with
  | nil => exact absurd rfl filled
  | cons c rest => cases pieces <;> rfl

theorem joinWith_eq_nil_iff {pieces : List (List Char)} (filled : ∀ piece ∈ pieces, piece ≠ []) :
    joinWith separator pieces = [] ↔ pieces = [] := by
  cases pieces with
  | nil => exact iff_of_true rfl rfl
  | cons piece rest =>
      refine iff_of_false (fun empty => ?_) (List.cons_ne_nil _ _)
      have first := filled piece List.mem_cons_self
      have start : (joinWith separator (piece :: rest)).head? = piece.head? :=
        head?_joinWith first rest
      rw [empty, List.head?_nil, eq_comm, List.head?_eq_none_iff] at start
      exact first start

/-- Pieces without separators are found again in the text that they make up. -/
theorem splitAtChar_joinWith {pieces : List (List Char)} (filled : pieces ≠ [])
    (plain : ∀ piece ∈ pieces, separator ∉ piece) :
    splitAtChar separator (joinWith separator pieces) = pieces := by
  induction pieces with
  | nil => exact absurd rfl filled
  | cons piece rest ih =>
      have first := splitAtChar_of_not_mem (plain piece List.mem_cons_self)
      by_cases last : rest = []
      · rw [last]
        exact first
      · rw [joinWith_cons last, splitAtChar_append, first,
          ih last fun other member => plain other (List.mem_cons_of_mem _ member),
          List.singleton_append]

theorem mem_joinWith {pieces : List (List Char)} {c : Char}
    (member : c ∈ joinWith separator pieces) : c = separator ∨ ∃ piece ∈ pieces, c ∈ piece := by
  induction pieces with
  | nil => cases member
  | cons piece rest ih =>
      by_cases last : rest = []
      · rw [last] at member
        exact .inr ⟨piece, List.mem_cons_self, member⟩
      · rw [joinWith_cons last, List.mem_append, List.mem_cons] at member
        rcases member with inside | same | later
        · exact .inr ⟨piece, List.mem_cons_self, inside⟩
        · exact .inl same
        · rcases ih later with same | ⟨other, isPiece, inside⟩
          · exact .inl same
          · exact .inr ⟨other, List.mem_cons_of_mem _ isPiece, inside⟩

theorem cutAt_fst (separates : Char → Bool) (text : List Char) :
    (cutAt separates text).1 = text.takeWhile (!separates ·) := by
  unfold cutAt
  cases after : text.dropWhile (!separates ·) with
  | nil =>
      have whole := List.takeWhile_append_dropWhile (p := (!separates ·)) (l := text)
      rw [after, List.append_nil] at whole
      exact whole.symm
  | cons c rest => rfl

/-- Taking characters from a text ends where the text after it stops it. -/
theorem takeWhile_append_of_stop {isTaken : Char → Bool} (front : List Char) {back : List Char}
    (stops : ∀ c, back.head? = some c → isTaken c = false) :
    (front ++ back).takeWhile isTaken = front.takeWhile isTaken := by
  induction front with
  | nil =>
      cases back with
      | nil => rfl
      | cons c rest => exact List.takeWhile_cons_of_neg (by rw [stops c rfl]; decide)
  | cons c rest ih => rw [List.cons_append, List.takeWhile_cons, List.takeWhile_cons, ih]

end StyleSieve.Text
