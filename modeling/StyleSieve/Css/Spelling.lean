import StyleSieve.Css.Scanner

/-!
# Spellings of numbers

The scanner keeps a number by its spelling: a sign, digits with at most one point
among them, and an exponent.  What it reads as a number is spelled that way and is
what the text starts with.
-/

namespace StyleSieve.Css

/-- Decimal digits, at least one. -/
def AreDigits (text : List Char) : Prop :=
  text ≠ [] ∧ ∀ c ∈ text, c.isDigit = true

/-- The sign of a number, which may be missing. -/
inductive IsSign : List Char → Prop where
  | none : IsSign []
  | plus : IsSign ['+']
  | minus : IsSign ['-']

/-- A number without sign and exponent. -/
inductive IsMantissa : List Char → Prop where
  | whole {digits : List Char} : AreDigits digits → IsMantissa digits
  | fraction {whole digits : List Char} :
      (∀ c ∈ whole, c.isDigit = true) → AreDigits digits → IsMantissa (whole ++ '.' :: digits)

/-- The exponent of a number, which may be missing. -/
inductive IsExponent : List Char → Prop where
  | none : IsExponent []
  | some {mark : Char} {sign digits : List Char} :
      (mark = 'e' ∨ mark = 'E') → IsSign sign → AreDigits digits →
        IsExponent (mark :: (sign ++ digits))

/-- The spelling of a number. -/
inductive IsNumber : List Char → Prop where
  | spelled {sign mantissa exponent : List Char} :
      IsSign sign → IsMantissa mantissa → IsExponent exponent →
        IsNumber (sign ++ (mantissa ++ exponent))

theorem takeSign_spec (text : List Char) :
    IsSign (takeSign text).1 ∧ (takeSign text).1 ++ (takeSign text).2 = text := by
  unfold takeSign
  split
  · exact ⟨.plus, rfl⟩
  · exact ⟨.minus, rfl⟩
  · exact ⟨.none, rfl⟩

theorem takeDigits_spec (text : List Char) :
    (∀ c ∈ (takeDigits text).1, c.isDigit = true) ∧
      (takeDigits text).1 ++ (takeDigits text).2 = text :=
  ⟨fun _ member => List.all_eq_true.1 (List.all_takeWhile) _ member,
    List.takeWhile_append_dropWhile⟩

theorem takeMantissa?_spec {text mantissa after : List Char}
    (found : takeMantissa? text = some (mantissa, after)) :
    IsMantissa mantissa ∧ mantissa ++ after = text := by
  obtain ⟨areDigits, same⟩ := takeDigits_spec text
  unfold takeMantissa? at found
  dsimp only at found
  -- the two places where a number without a point is read
  have whole : (if (takeDigits text).1.isEmpty then none else some (takeDigits text)) =
      some (mantissa, after) → IsMantissa mantissa ∧ mantissa ++ after = text := by
    intro read
    split at read
    · cases read
    · rename_i filled
      simp only [Option.some.injEq] at read
      rw [read] at areDigits same filled
      exact ⟨.whole ⟨by simpa using filled, areDigits⟩, same⟩
  split at found
  · rename_i d rest shape
    split at found
    · rename_i isDigit
      simp only [Option.some.injEq, Prod.mk.injEq] at found
      obtain ⟨areFraction, sameFraction⟩ := takeDigits_spec (d :: rest)
      have filled : (takeDigits (d :: rest)).1 ≠ [] := by simp [takeDigits, isDigit]
      rw [← found.1, ← found.2]
      refine ⟨.fraction areDigits ⟨filled, areFraction⟩, ?_⟩
      rw [List.append_assoc, List.cons_append, sameFraction, ← shape, same]
    · exact whole found
  · exact whole found

theorem takeExponent_spec (text : List Char) :
    IsExponent (takeExponent text).1 ∧ (takeExponent text).1 ++ (takeExponent text).2 = text := by
  unfold takeExponent
  split
  · rename_i mark rest
    split
    · rename_i isMark
      obtain ⟨isSign, sameSign⟩ := takeSign_spec rest
      obtain ⟨areDigits, sameDigits⟩ := takeDigits_spec (takeSign rest).2
      dsimp only
      split
      · exact ⟨.none, rfl⟩
      · rename_i filled
        refine ⟨.some (by simpa using isMark) isSign ⟨by simpa using filled, areDigits⟩, ?_⟩
        rw [List.cons_append, List.append_assoc, sameDigits, sameSign]
    · exact ⟨.none, rfl⟩
  · exact ⟨.none, rfl⟩

theorem takeNumber?_eq (text : List Char) :
    takeNumber? text = (takeMantissa? (takeSign text).2).map fun read =>
      ((takeSign text).1 ++ read.1 ++ (takeExponent read.2).1, (takeExponent read.2).2) :=
  rfl

/-- What is read as a number is one. -/
theorem takeNumber?_spec {text spelling after : List Char}
    (found : takeNumber? text = some (spelling, after)) :
    IsNumber spelling ∧ spelling ++ after = text := by
  rw [takeNumber?_eq] at found
  obtain ⟨⟨mantissa, later⟩, read, same⟩ := Option.map_eq_some_iff.1 found
  simp only [Prod.mk.injEq] at same
  obtain ⟨isSign, sameSign⟩ := takeSign_spec text
  obtain ⟨isMantissa, sameMantissa⟩ := takeMantissa?_spec read
  obtain ⟨isExponent, sameExponent⟩ := takeExponent_spec later
  rw [← same.1, ← same.2, List.append_assoc]
  refine ⟨.spelled isSign isMantissa isExponent, ?_⟩
  rw [List.append_assoc, List.append_assoc, sameExponent, sameMantissa, sameSign]

theorem IsMantissa.length_pos {mantissa : List Char} (isMantissa : IsMantissa mantissa) :
    0 < mantissa.length := by
  cases isMantissa with
  | whole areDigits => exact List.length_pos_iff.2 areDigits.1
  | fraction _ _ =>
      rw [List.length_append]
      exact Nat.add_pos_right _ (Nat.succ_pos _)

theorem IsNumber.length_pos {spelling : List Char} (isNumber : IsNumber spelling) :
    0 < spelling.length := by
  cases isNumber with
  | spelled _ isMantissa _ =>
      rw [List.length_append, List.length_append]
      exact Nat.add_pos_right _ (Nat.add_pos_left isMantissa.length_pos _)

end StyleSieve.Css
