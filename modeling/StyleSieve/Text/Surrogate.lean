/-!
# Lone surrogates

Escapes may name a code point from D800 to DFFF, where there are no characters
but the halves of pairs.  A text holds such a half in the shape of a stand-in,
one of the characters from E0800 to E0FFF, which are not assigned.  It counts as
any other character, but it cannot be written in bytes.
-/

namespace StyleSieve.Text

/-- How far stand-ins are from the halves that they stand for. -/
def standInOffset : Nat := 0xD3000

/-- The character at a code point, or the stand-in for it. -/
def charAt (code : Nat) : Char :=
  if 0xD800 ≤ code ∧ code < 0xE000 then Char.ofNat (code + standInOffset) else Char.ofNat code

theorem toNat_charAt {code : Nat} (inRange : code ≤ 0x10FFFF) :
    (charAt code).toNat =
      if 0xD800 ≤ code ∧ code < 0xE000 then code + standInOffset else code := by
  have isChar {number : Nat} (valid : number.isValidChar) : (Char.ofNat number).toNat = number := by
    rw [Char.ofNat, dif_pos valid]
    rfl
  unfold charAt standInOffset
  split
  · exact isChar (by simp only [Nat.isValidChar]; omega)
  · exact isChar (by simp only [Nat.isValidChar]; omega)

/-- Whether a character stands for the half of a pair. -/
def isStandIn (c : Char) : Bool :=
  0xD800 + standInOffset ≤ c.toNat && c.toNat < 0xE000 + standInOffset

/-- The code point that a character is or stands for. -/
def codePoint (c : Char) : Nat :=
  if isStandIn c then c.toNat - standInOffset else c.toNat

/-- Whether a text can be written in bytes. -/
def isEncodable (text : String) : Bool :=
  !text.toList.any isStandIn

/-- The last `width` lower-case hexadecimal digits of a number. -/
def paddedHex (width value : Nat) : List Char :=
  let digits := Nat.toDigits 16 value
  List.replicate (width - digits.length) '0' ++ digits

/-- A text where the halves of pairs are spelled out. -/
def spellSurrogates (text : String) : String :=
  String.ofList (text.toList.flatMap fun c =>
    if isStandIn c then '\\' :: 'u' :: paddedHex 4 (codePoint c) else [c])

theorem spellSurrogates_of_isEncodable {text : String} (encodable : isEncodable text = true) :
    spellSurrogates text = text := by
  rw [isEncodable, Bool.not_eq_true', List.any_eq_false] at encodable
  rw [spellSurrogates, ← String.toList_inj, String.toList_ofList]
  generalize text.toList = chars at encodable ⊢
  induction chars with
  | nil => rfl
  | cons c rest ih =>
      rw [List.forall_mem_cons] at encodable
      rw [List.flatMap_cons, if_neg encodable.1, ih encodable.2, List.singleton_append]

end StyleSieve.Text
