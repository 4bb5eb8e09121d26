import StyleSieve.Text.Utf8

/-!
# The codec of UTF-8

Bytes are read as a text just if they are the bytes that the text is written in.
-/

namespace StyleSieve.Text

theorem toList_loop (bytes : ByteArray) (start : Nat) (before : List UInt8) :
    ByteArray.toList.loop bytes start before =
      before.reverse ++ bytes.data.toList.drop start := by
  induction start, before using ByteArray.toList.loop.induct bytes with
  | case1 start before inside ih =>
      have index : start < bytes.data.toList.length := by simpa using inside
      have byte : bytes.get! start = bytes.data.toList[start] := by
        simp only [ByteArray.get!, Array.getElem_toList]
        exact getElem!_pos bytes.data start inside
      rw [ByteArray.toList.loop, if_pos inside, ih, List.drop_eq_getElem_cons index, byte,
        List.reverse_cons, List.append_assoc, List.singleton_append]
  | case2 start before outside =>
      have beyond : bytes.data.toList.length ≤ start := by simpa using outside
      rw [ByteArray.toList.loop, if_neg outside, List.drop_eq_nil_of_le beyond, List.append_nil]

/-- The bytes of a text are those of its characters. -/
theorem encodeUtf8_ofList (chars : List Char) :
    encodeUtf8 (String.ofList chars) = chars.flatMap String.utf8EncodeChar := by
  rw [encodeUtf8, String.toUTF8_eq_toByteArray, String.toByteArray_ofList, ByteArray.toList,
    toList_loop, List.utf8Encode, List.data_toByteArray]
  rfl

/-- What the first byte of a character of several bytes says.  The range of the second byte leaves
out the codes that fewer bytes could say, the surrogates, and what is beyond the last code. -/
theorem Utf8Lead.ofByte?_cases {byte : Nat} {lead : Utf8Lead}
    (found : Utf8Lead.ofByte? byte = some lead) :
    (lead.count = 1 ∧ byte = 0xC0 + lead.bits ∧ 2 ≤ lead.bits ∧ lead.bits < 0x20 ∧
        ∀ b, lead.low ≤ b ∧ b ≤ lead.high ↔ 0x80 ≤ b ∧ b ≤ 0xBF) ∨
      (lead.count = 2 ∧ byte = 0xE0 + lead.bits ∧ lead.bits < 0x10 ∧
        ∀ b, lead.low ≤ b ∧ b ≤ lead.high ↔ 0x80 ≤ b ∧ b ≤ 0xBF ∧
          (0xA0 ≤ 0x40 * lead.bits + b ∧ 0x40 * lead.bits + b < 0x3E0 ∨
            0x400 ≤ 0x40 * lead.bits + b)) ∨
      (lead.count = 3 ∧ byte = 0xF0 + lead.bits ∧ lead.bits < 5 ∧
        ∀ b, lead.low ≤ b ∧ b ≤ lead.high ↔ 0x80 ≤ b ∧ b ≤ 0xBF ∧
          0x90 ≤ 0x40 * lead.bits + b ∧ 0x40 * lead.bits + b < 0x190) := by
  obtain ⟨count, low, high, bits⟩ := lead
  dsimp only
  rw [Utf8Lead.ofByte?] at found
  -- the ranges of leading bytes in order, some of which restrict the second byte
  split at found
  · cases found
    exact .inl ⟨rfl, by omega, by omega, by omega, fun _ => Iff.rfl⟩
  split at found
  · cases found
    exact .inr (.inl ⟨rfl, by omega, by omega, fun b => by omega⟩)
  split at found
  · cases found
    exact .inr (.inl ⟨rfl, by omega, by omega, fun b => by omega⟩)
  split at found
  · cases found
    exact .inr (.inl ⟨rfl, by omega, by omega, fun b => by omega⟩)
  split at found
  · cases found
    exact .inr (.inr ⟨rfl, by omega, by omega, fun b => by omega⟩)
  split at found
  · cases found
    exact .inr (.inr ⟨rfl, by omega, by omega, fun b => by omega⟩)
  split at found
  · cases found
    exact .inr (.inr ⟨rfl, by omega, by omega, fun b => by omega⟩)
  · cases found

theorem Utf8Lead.ofByte?_eq_none {byte : Nat} :
    Utf8Lead.ofByte? byte = none ↔ byte < 0xC2 ∨ 0xF4 < byte := by
  grind [Utf8Lead.ofByte?]

theorem Utf8Lead.exists_of_range (byte : Nat) (least : 0xC2 ≤ byte) (most : byte ≤ 0xF4) :
    ∃ lead, Utf8Lead.ofByte? byte = some lead := by
  cases found : Utf8Lead.ofByte? byte with
  | some lead => exact ⟨lead, rfl⟩
  | none =>
      rw [Utf8Lead.ofByte?_eq_none] at found
      omega

section Characters

variable {c : Char} {first second third fourth : Nat}

theorem utf8EncodeChar_one (code : c.toNat < 0x80) :
    String.utf8EncodeChar c = [.ofNat c.toNat] :=
  if_pos (Nat.le_of_lt_succ code)

theorem utf8EncodeChar_two (code : c.toNat = 0x40 * first + second) (least : 2 ≤ first)
    (most : first < 0x20) (low : second < 0x40) :
    String.utf8EncodeChar c = [.ofNat (0xC0 + first), .ofNat (0x80 + second)] := by
  have value : c.val.toNat = 0x40 * first + second := code
  generalize whole : 0x40 * first + second = code at value
  have head : code / 64 % 32 + 192 = 0xC0 + first := by omega
  have last : code % 64 + 128 = 0x80 + second := by omega
  simp only [String.utf8EncodeChar, value]
  rw [if_neg (by omega), if_pos (by omega), head, last]

theorem utf8EncodeChar_three (code : c.toNat = 0x40 * (0x40 * first + second) + third)
    (least : 0x20 ≤ 0x40 * first + second) (most : first < 0x10) (middle : second < 0x40)
    (low : third < 0x40) :
    String.utf8EncodeChar c =
      [.ofNat (0xE0 + first), .ofNat (0x80 + second), .ofNat (0x80 + third)] := by
  have value : c.val.toNat = 0x40 * (0x40 * first + second) + third := code
  generalize whole : 0x40 * (0x40 * first + second) + third = code at value
  have head : code / 4096 % 16 + 224 = 0xE0 + first := by omega
  have next : code / 64 % 64 + 128 = 0x80 + second := by omega
  have last : code % 64 + 128 = 0x80 + third := by omega
  simp only [String.utf8EncodeChar, value]
  rw [if_neg (by omega), if_neg (by omega), if_pos (by omega), head, next, last]

theorem utf8EncodeChar_four
    (code : c.toNat = 0x40 * (0x40 * (0x40 * first + second) + third) + fourth)
    (least : 0x10 ≤ 0x40 * first + second) (most : first < 5) (upper : second < 0x40)
    (middle : third < 0x40) (low : fourth < 0x40) :
    String.utf8EncodeChar c =
      [.ofNat (0xF0 + first), .ofNat (0x80 + second), .ofNat (0x80 + third),
        .ofNat (0x80 + fourth)] := by
  have value : c.val.toNat = 0x40 * (0x40 * (0x40 * first + second) + third) + fourth := code
  generalize whole : 0x40 * (0x40 * (0x40 * first + second) + third) + fourth = code at value
  have head : code / 262144 % 8 + 240 = 0xF0 + first := by omega
  have next : code / 4096 % 64 + 128 = 0x80 + second := by omega
  have later : code / 64 % 64 + 128 = 0x80 + third := by omega
  have last : code % 64 + 128 = 0x80 + fourth := by omega
  simp only [String.utf8EncodeChar, value]
  rw [if_neg (by omega), if_neg (by omega), if_neg (by omega), head, next, later, last]

end Characters

theorem toNat_ofNat (code : Nat) (valid : code.isValidChar) : (Char.ofNat code).toNat = code := by
  rw [Char.ofNat, dif_pos valid]
  rfl

/-- The code of a character: the bits of its first byte and those of the bytes after it. -/
def codeOf (bits : Nat) (tail : List UInt8) : Nat :=
  tail.foldl (fun code byte => 0x40 * code + (byte.toNat - 0x80)) bits

theorem toNat_byte {value : Nat} (fits : value < 0x100) : (UInt8.ofNat value).toNat = value := by
  rw [UInt8.toNat_ofNat', Nat.mod_eq_of_lt fits]

theorem takeTail_cons {low high count value : Nat} {more : List UInt8}
    (within : low ≤ value ∧ value ≤ high) (fits : value < 0x100) :
    takeTail low high (count + 1) (.ofNat value :: more) =
      .ofNat value :: takeTail 0x80 0xBF count more := by
  rw [takeTail, toNat_byte fits]
  exact if_pos within

theorem leadingPiece_of_lead {value : Nat} {rest : List UInt8} {lead : Utf8Lead} {c : Char}
    (tail : List UInt8) (found : Utf8Lead.ofByte? value = some lead) (fits : value < 0x100)
    (large : 0x80 ≤ value)
    (taken : takeTail lead.low lead.high lead.count rest = tail) (full : tail.length = lead.count)
    (code : codeOf lead.bits tail = c.toNat) :
    leadingPiece (.ofNat value) rest = ⟨tail.length + 1, .ok c⟩ := by
  rw [leadingPiece, toNat_byte fits, if_neg (Nat.not_lt.2 large), found]
  dsimp only
  rw [taken, if_pos full, ← codeOf, code, Char.ofNat_toNat]

section Characters

variable {c : Char} {first second third fourth : Nat}

theorem leadingPiece_two (code : c.toNat = 0x40 * first + second) (least : 2 ≤ first)
    (most : first < 0x20) (low : second < 0x40) (rest : List UInt8) :
    leadingPiece (.ofNat (0xC0 + first)) (.ofNat (0x80 + second) :: rest) = ⟨2, .ok c⟩ := by
  obtain ⟨lead, found⟩ := Utf8Lead.exists_of_range (0xC0 + first) (by omega) (by omega)
  rcases Utf8Lead.ofByte?_cases found with
    ⟨count, head, _, _, range⟩ | ⟨_, head, _⟩ | ⟨_, head, _⟩
  · refine leadingPiece_of_lead [.ofNat (0x80 + second)] found (by omega) (by omega) ?_
      count.symm ?_
    · rw [count, takeTail_cons ((range _).2 (by omega)) (by omega)]
      rfl
    · simp only [codeOf, List.foldl_cons, List.foldl_nil,
        toNat_byte (by omega : 0x80 + second < 256)]
      omega
  · omega
  · omega

theorem leadingPiece_three (code : c.toNat = 0x40 * (0x40 * first + second) + third)
    (least : 0x20 ≤ 0x40 * first + second) (most : first < 0x10) (middle : second < 0x40)
    (low : third < 0x40) (rest : List UInt8) :
    leadingPiece (.ofNat (0xE0 + first)) (.ofNat (0x80 + second) :: .ofNat (0x80 + third) :: rest) =
      ⟨3, .ok c⟩ := by
  have valid : c.toNat.isValidChar := c.valid
  obtain ⟨lead, found⟩ := Utf8Lead.exists_of_range (0xE0 + first) (by omega) (by omega)
  rcases Utf8Lead.ofByte?_cases found with ⟨_, head, _⟩ | ⟨count, head, _, range⟩ | ⟨_, head, _⟩
  · omega
  · refine leadingPiece_of_lead [.ofNat (0x80 + second), .ofNat (0x80 + third)] found (by omega)
      (by omega) ?_ count.symm ?_
    · rw [count, takeTail_cons ((range _).2 (by omega)) (by omega),
        takeTail_cons (by omega) (by omega)]
      rfl
    · simp only [codeOf, List.foldl_cons, List.foldl_nil,
        toNat_byte (by omega : 0x80 + second < 256), toNat_byte (by omega : 0x80 + third < 256)]
      omega
  · omega

theorem leadingPiece_four
    (code : c.toNat = 0x40 * (0x40 * (0x40 * first + second) + third) + fourth)
    (least : 0x10 ≤ 0x40 * first + second) (upper : second < 0x40) (middle : third < 0x40)
    (low : fourth < 0x40) (rest : List UInt8) :
    leadingPiece (.ofNat (0xF0 + first))
        (.ofNat (0x80 + second) :: .ofNat (0x80 + third) :: .ofNat (0x80 + fourth) :: rest) =
      ⟨4, .ok c⟩ := by
  have valid : c.toNat.isValidChar := c.valid
  obtain ⟨lead, found⟩ := Utf8Lead.exists_of_range (0xF0 + first) (by omega) (by omega)
  rcases Utf8Lead.ofByte?_cases found with ⟨_, head, _⟩ | ⟨_, head, _⟩ | ⟨count, head, _, range⟩
  · omega
  · omega
  · refine leadingPiece_of_lead
      [.ofNat (0x80 + second), .ofNat (0x80 + third), .ofNat (0x80 + fourth)] found (by omega)
      (by omega) ?_ count.symm ?_
    · rw [count, takeTail_cons ((range _).2 (by omega)) (by omega),
        takeTail_cons (by omega) (by omega), takeTail_cons (by omega) (by omega)]
      rfl
    · simp only [codeOf, List.foldl_cons, List.foldl_nil,
        toNat_byte (by omega : 0x80 + second < 256), toNat_byte (by omega : 0x80 + third < 256),
        toNat_byte (by omega : 0x80 + fourth < 256)]
      omega

end Characters

/-- The bytes of a character are read as that character, whatever comes after them. -/
theorem leadingPiece_of_bytes (c : Char) :
    ∃ byte tail, String.utf8EncodeChar c = byte :: tail ∧
      ∀ after, leadingPiece byte (tail ++ after) = ⟨tail.length + 1, .ok c⟩ := by
  have valid : c.toNat.isValidChar := c.valid
  have divided (code : Nat) : ∃ upper last, code = 0x40 * upper + last ∧ last < 0x40 :=
    ⟨_, _, (Nat.div_add_mod code 0x40).symm, Nat.mod_lt _ (by decide)⟩
  by_cases one : c.toNat < 0x80
  · refine ⟨_, _, utf8EncodeChar_one one, fun after => ?_⟩
    rw [leadingPiece, toNat_byte (by omega), if_pos one, Char.ofNat_toNat]
    rfl
  -- six bits go into each byte until what is left fits the leading one
  obtain ⟨upper, last, code, low⟩ := divided c.toNat
  by_cases two : c.toNat < 0x800
  · exact ⟨_, _, utf8EncodeChar_two code (by omega) (by omega) low,
      leadingPiece_two code (by omega) (by omega) low⟩
  obtain ⟨top, middle, rfl, inside⟩ := divided upper
  by_cases three : c.toNat < 0x10000
  · exact ⟨_, _, utf8EncodeChar_three code (by omega) (by omega) inside low,
      leadingPiece_three code (by omega) (by omega) inside low⟩
  obtain ⟨first, next, rfl, within⟩ := divided top
  exact ⟨_, _, utf8EncodeChar_four code (by omega) (by omega) within inside low,
    leadingPiece_four code (by omega) within inside low⟩

/-! ## Bytes of a sequence of characters -/

theorem utf8Pieces_of_bytes (chars : List Char) :
    (utf8Pieces (chars.flatMap String.utf8EncodeChar)).map Utf8Piece.content = chars.map .ok := by
  induction chars with
  | nil => rw [List.flatMap_nil, utf8Pieces]; rfl
  | cons c rest ih =>
      obtain ⟨byte, tail, bytes, read⟩ := leadingPiece_of_bytes c
      rw [List.flatMap_cons, bytes, List.cons_append, utf8Pieces, read]
      dsimp only
      rw [Nat.add_sub_cancel, List.drop_left, List.map_cons, ih]
      rfl

/-- Nothing of a text is replaced when its bytes are read. -/
theorem decodeUtf8Lossy_encodeUtf8 (text : String) : decodeUtf8Lossy (encodeUtf8 text) = text := by
  rw [← String.ofList_toList (s := text), encodeUtf8_ofList, decodeUtf8Lossy]
  have read := utf8Pieces_of_bytes text.toList
  have restored := congrArg (List.map fun content : Except Utf8Fault Char =>
    content.toOption.getD '\uFFFD') read
  rw [List.map_map, List.map_map] at restored
  exact congrArg String.ofList (restored.trans (List.map_id' _))

/-- A text has no more characters than bytes, and fewer if one of them is outside ASCII. -/
theorem length_le_bytes (chars : List Char) :
    chars.length ≤ (chars.flatMap String.utf8EncodeChar).length ∧
      (chars.all (·.toNat < 0x80) = false →
        chars.length < (chars.flatMap String.utf8EncodeChar).length) := by
  induction chars with
  | nil => exact ⟨Nat.le_refl _, fun wide => absurd wide (by decide)⟩
  | cons c rest ih =>
      have positive : 0 < c.utf8Size := c.utf8Size_pos
      rw [List.flatMap_cons, List.length_append, String.length_utf8EncodeChar, List.length_cons]
      refine ⟨by omega, fun wide => ?_⟩
      rw [List.all_cons, Bool.and_eq_false_iff, decide_eq_false_iff_not] at wide
      rcases wide with wide | wide
      · have several : c.utf8Size ≠ 1 := fun single =>
          wide (Nat.lt_succ_of_le (UInt32.le_iff_toNat_le.mp (Char.utf8Size_eq_one_iff.mp single)))
        omega
      · have more := ih.2 wide
        omega

end StyleSieve.Text
