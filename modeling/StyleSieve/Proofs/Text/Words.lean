import Mathlib.Data.List.Forall2
import StyleSieve.Css.Name
import StyleSieve.Proofs.Text.Utf8
import StyleSieve.Text.Blank
import StyleSieve.Text.LetterCase

/-!
# Words and letter case

Whether a text holds a word of plain letters does not depend on whether all its letters are put in
lower case or only those of ASCII.
-/

namespace StyleSieve.Text

/-! ## Cutting off a word -/

theorem words_cons (c : Char) (rest : List Char) :
    words (c :: rest) =
      if isBlank c then words rest
      else
        match rest, words rest with
        | next :: _, word :: others =>
            if isBlank next then [c] :: word :: others else (c :: word) :: others
        | _, others => [c] :: others := by
  rw [words, runs.eq_def]
  rfl

theorem words_cons_blank {c : Char} (blank : isBlank c) (rest : List Char) :
    words (c :: rest) = words rest := by
  rw [words_cons, if_pos blank]

theorem words_append_blanks {blanks : List Char} (blank : ∀ c ∈ blanks, isBlank c)
    (rest : List Char) : words (blanks ++ rest) = words rest := by
  induction blanks with
  | nil => rfl
  | cons c more ih =>
      rw [List.cons_append, words_cons_blank (blank c List.mem_cons_self),
        ih fun c among => blank c (List.mem_cons_of_mem _ among)]

theorem words_ne_nil {c : Char} (letter : isBlank c = false) (rest : List Char) :
    words (c :: rest) ≠ [] := by
  rw [words_cons, if_neg (by simp [letter])]
  split
  · split <;> exact List.cons_ne_nil _ _
  · exact List.cons_ne_nil _ _

/-- A letter is a word of its own if no letter follows, and else it starts the next word. -/
theorem words_cons_letter {c : Char} (letter : isBlank c = false) (rest : List Char) :
    words (c :: rest) =
      if rest.head?.all isBlank then [c] :: words rest else (words rest).modifyHead (c :: ·) := by
  rw [words_cons, if_neg (by simp [letter])]
  cases rest with
  | nil => rfl
  | cons next more =>
      rw [List.head?_cons, Option.all_some]
      cases blank : isBlank next with
      | true => cases words (next :: more) <;> simp [blank]
      | false =>
          obtain ⟨word, others, found⟩ := List.exists_cons_of_ne_nil (words_ne_nil blank more)
          simp [blank, found]

/-- Letters are a word if no letter follows them, and else they start the next word. -/
theorem words_append_letters {letters : List Char} (some : letters ≠ [])
    (solid : ∀ c ∈ letters, isBlank c = false) (rest : List Char) :
    words (letters ++ rest) =
      if rest.head?.all isBlank then letters :: words rest
      else (words rest).modifyHead (letters ++ ·) := by
  induction letters with
  | nil => exact absurd rfl some
  | cons c more ih =>
      have letter := solid c List.mem_cons_self
      rw [List.cons_append, words_cons_letter letter]
      cases more with
      | nil => rfl
      | cons next others =>
          have nextLetter := solid next (List.mem_cons_of_mem _ List.mem_cons_self)
          rw [if_neg (by simp [nextLetter]), ih (List.cons_ne_nil _ _)
            fun c among => solid c (List.mem_cons_of_mem _ among)]
          split
          · rfl
          · cases words rest <;> rfl

/-! ## Letters outside ASCII -/

/-- The blank characters outside ASCII. -/
def wideBlanks : List CodeRange :=
  [⟨0x85, 0x85⟩, ⟨0xA0, 0xA0⟩, ⟨0x1680, 0x1680⟩, ⟨0x2000, 0x200A⟩, ⟨0x2028, 0x2029⟩,
   ⟨0x202F, 0x202F⟩, ⟨0x205F, 0x205F⟩, ⟨0x3000, 0x3000⟩]

theorem isBlank_wide {c : Char} (wide : 0x80 ≤ c.toNat) :
    isBlank c = inTable wideBlanks c.toNat := by
  rw [Bool.eq_iff_iff]
  simp only [isBlank, inTable, wideBlanks, CodeRange.contains, List.any_cons, List.any_nil,
    Bool.or_eq_true, Bool.and_eq_true, decide_eq_true_eq, beq_iff_eq, Bool.or_false]
  omega

/-- Letters outside ASCII stay outside ASCII in lower case, except the signs of the units of
temperature and the capital with a dot; neither they nor their lower-case forms are blank. -/
theorem lowerTable_apart :
    ∀ run ∈ lowerTable,
      let reach := run.range.last - run.range.first
      (0x80 ≤ run.lower ∧ (run.lower + reach < 0xD800 ∨
          0xDFFF < run.lower ∧ run.lower + reach < 0x110000) ∨
        reach = 0 ∧ (run.lower = 'i'.toNat ∨ run.lower = 'k'.toNat)) ∧
      ∀ blank ∈ wideBlanks,
        (run.range.last < blank.first ∨ blank.last < run.range.first) ∧
          (run.lower + reach < blank.first ∨ blank.last < run.lower) := by
  rw [lowerTable]
  repeat rw [List.flatMap_cons]
  -- A text literal is the text of its characters: nothing has to be decoded.
  repeat rw [String.toList_ofList]
  decide +kernel

theorem isBlank_ofNat {code : Nat} (wide : 0x80 ≤ code) (valid : code.isValidChar)
    (apart : ∀ blank ∈ wideBlanks, blank.contains code = false) :
    isBlank (Char.ofNat code) = false := by
  rw [isBlank_wide (by rwa [toNat_ofNat code valid]), toNat_ofNat code valid]
  exact List.any_eq_false.mpr fun blank among => by simp [apart blank among]

/-- A letter outside ASCII and its lower-case form are both blank or both not, and the form is one
of two ASCII letters or lies outside ASCII too. -/
theorem toLower_wide {c : Char} (wide : 0x80 ≤ c.toNat) :
    isBlank (toLower c) = isBlank c ∧
      (0x80 ≤ (toLower c).toNat ∨ toLower c = 'i' ∨ toLower c = 'k') := by
  rw [toLower, if_neg (Nat.not_lt.mpr wide)]
  split
  · next code found =>
      obtain ⟨run, among, lower⟩ := List.exists_of_findSome?_eq_some found
      rw [CaseRun.lower?, Option.ite_none_right_eq_some, Option.some.injEq] at lower
      obtain ⟨member, rfl⟩ := lower
      simp only [CodeRange.contains, Bool.and_eq_true, decide_eq_true_eq] at member
      -- a run of the table and its image both stand apart from the blanks
      obtain ⟨range, apart⟩ := lowerTable_apart run among
      have solid : isBlank c = false := by
        rw [← Char.ofNat_toNat c]
        refine isBlank_ofNat wide c.valid fun blank among => ?_
        have distance := (apart blank among).1
        simp only [CodeRange.contains, Bool.and_eq_false_iff, decide_eq_false_iff_not]
        omega
      rw [solid]
      rcases range with ⟨high, valid⟩ | ⟨single, letter⟩
      · have valid : (run.lower + (c.toNat - run.range.first)).isValidChar := by
          simp only [Nat.isValidChar]
          omega
        refine ⟨isBlank_ofNat (by omega) valid fun blank among => ?_,
          .inl (by rw [toNat_ofNat _ valid]; omega)⟩
        have distance := (apart blank among).2
        simp only [CodeRange.contains, Bool.and_eq_false_iff, decide_eq_false_iff_not]
        omega
      · rw [show c.toNat - run.range.first = 0 by omega, Nat.add_zero]
        rcases letter with letter | letter <;> rw [letter]
        · exact ⟨rfl, .inr (.inl rfl)⟩
        · exact ⟨rfl, .inr (.inr rfl)⟩
  · exact ⟨rfl, .inl wide⟩

theorem toLower_eq_self {c : Char} (wide : 0x80 ≤ c.toNat) : c.toLower = c := by
  have beyond : ¬(c.val ≥ 'A'.val ∧ c.val ≤ 'Z'.val) := fun upper =>
    absurd (UInt32.le_iff_toNat_le.mp upper.2)
      (Nat.not_le.mpr (Nat.lt_of_lt_of_le (by decide) wide))
  exact dif_neg beyond

theorem isBlank_toLower (c : Char) : isBlank c.toLower = isBlank c := by
  rcases Nat.lt_or_ge c.toNat 0x80 with narrow | wide
  · have each : ∀ code < 0x80,
        isBlank (Char.ofNat code).toLower = isBlank (Char.ofNat code) := by
      decide +kernel
    simpa only [Char.ofNat_toNat] using each c.toNat narrow
  · rw [toLower_eq_self wide]

/-! ## Words in lower case -/

/-- Two texts that are the same, or that both hold characters a word does not hold. -/
def Alike (word first second : List Char) : Prop :=
  first = second ∨ (∃ c ∈ first, c ∉ word) ∧ ∃ c ∈ second, c ∉ word

theorem Alike.append {word first second more others : List Char} (start : Alike word first second)
    (rest : Alike word more others) : Alike word (first ++ more) (second ++ others) := by
  rcases start with rfl | ⟨⟨c, inFirst, foreign⟩, d, inSecond, strange⟩
  · rcases rest with rfl | ⟨⟨c, inMore, foreign⟩, d, inOthers, strange⟩
    · exact .inl rfl
    · exact .inr ⟨⟨c, List.mem_append_right _ inMore, foreign⟩,
        d, List.mem_append_right _ inOthers, strange⟩
  · exact .inr ⟨⟨c, List.mem_append_left _ inFirst, foreign⟩,
      d, List.mem_append_left _ inSecond, strange⟩

theorem Alike.eq_iff {word first second : List Char} (alike : Alike word first second) :
    word = first ↔ word = second := by
  rcases alike with rfl | ⟨⟨c, inFirst, foreign⟩, d, inSecond, strange⟩
  · exact Iff.rfl
  · exact iff_of_false (fun same => foreign (same ▸ inFirst)) fun same => strange (same ▸ inSecond)

section

variable {word : List Char} (plain : ∀ c ∈ word, c.toNat < 0x80 ∧ c ≠ 'i' ∧ c ≠ 'k')

include plain

theorem alike_of_wide {first second : List Char} {c d : Char} (inFirst : c ∈ first)
    (foreign : 0x80 ≤ c.toNat ∨ c = 'i' ∨ c = 'k') (inSecond : d ∈ second)
    (wide : 0x80 ≤ d.toNat) : Alike word first second := by
  refine .inr ⟨⟨c, inFirst, fun inWord => ?_⟩, d, inSecond, fun inWord => ?_⟩
  · obtain ⟨narrow, notI, notK⟩ := plain c inWord
    rcases foreign with high | isI | isK
    · exact absurd high (Nat.not_le.mpr narrow)
    · exact notI isI
    · exact notK isK
  · exact absurd wide (Nat.not_le.mpr (plain d inWord).1)

/-- What a character becomes in lower case, whatever stands around it. -/
theorem lowercaseAfter_cons (before : List Char) (c : Char) (rest : List Char) :
    ∃ letters, lowercaseAfter before (c :: rest) = letters ++ lowercaseAfter (c :: before) rest ∧
      letters ≠ [] ∧ (∀ d ∈ letters, isBlank d = isBlank c) ∧
        Alike word letters [c.toLower] := by
  rw [lowercaseAfter]
  refine ⟨_, rfl, ?_⟩
  -- a sigma, the capital with a dot, and the letters that have one small letter each
  split
  · next sigma =>
      obtain rfl := eq_of_beq sigma
      refine ⟨List.cons_ne_nil _ _, ?_, ?_⟩
      · split <;> exact List.forall_mem_singleton.mpr rfl
      · split <;>
          exact alike_of_wide plain List.mem_cons_self (.inl (by decide)) List.mem_cons_self
            (by decide)
  · split
    · next dotted =>
        obtain rfl := eq_of_beq dotted
        exact ⟨List.cons_ne_nil _ _,
          List.forall_mem_cons.mpr ⟨rfl, List.forall_mem_singleton.mpr rfl⟩,
          alike_of_wide plain List.mem_cons_self (.inr (.inl rfl)) List.mem_cons_self (by decide)⟩
    · refine ⟨List.cons_ne_nil _ _, ?_⟩
      simp only [List.mem_singleton, forall_eq]
      rcases Nat.lt_or_ge c.toNat 0x80 with narrow | wide
      · rw [toLower, if_pos narrow]
        exact ⟨isBlank_toLower c, .inl rfl⟩
      · obtain ⟨blank, foreign⟩ := toLower_wide wide
        refine ⟨blank, alike_of_wide plain List.mem_cons_self foreign List.mem_cons_self ?_⟩
        rwa [toLower_eq_self wide]

/-- The words of a text in lower case, one by one against its words with only the letters of ASCII
in lower case; the two texts start alike too, so that the words grow alike to the left. -/
theorem words_lowercaseAfter (before text : List Char) :
    List.Forall₂ (Alike word) (words (lowercaseAfter before text)) (words (Css.lowerAscii text)) ∧
      (lowercaseAfter before text).head?.all isBlank =
        (Css.lowerAscii text).head?.all isBlank := by
  induction text generalizing before with
  | nil => exact ⟨.nil, rfl⟩
  | cons c rest ih =>
      obtain ⟨letters, eq, some, same, alike⟩ := lowercaseAfter_cons plain before c rest
      obtain ⟨related, heads⟩ := ih (c :: before)
      have ascii : Css.lowerAscii (c :: rest) = [c.toLower] ++ Css.lowerAscii rest := rfl
      rw [eq, ascii]
      -- a letter joins the word after it unless a blank is next, hence the second part
      constructor
      · cases blank : isBlank c with
        | true =>
            rw [words_append_blanks fun d among => (same d among).trans blank,
              words_append_blanks (by simp [isBlank_toLower, blank])]
            exact related
        | false =>
            rw [words_append_letters some fun d among => (same d among).trans blank,
              words_append_letters (List.cons_ne_nil _ _) (by simp [isBlank_toLower, blank]), heads]
            split
            · exact .cons alike related
            · generalize words (lowercaseAfter (c :: before) rest) = all at related
              generalize words (Css.lowerAscii rest) = ascii at related
              cases related with
              | nil => exact .nil
              | cons first others => exact .cons (alike.append first) others
      · obtain ⟨d, more, rfl⟩ := List.exists_cons_of_ne_nil some
        simp [same d List.mem_cons_self, isBlank_toLower]

/-- A word of plain letters stands in a text in lower case just if it stands there once the letters
of ASCII are in lower case. -/
theorem mem_words_lowercase (text : List Char) :
    word ∈ words (lowercase text) ↔ word ∈ words (Css.lowerAscii text) := by
  have related := (words_lowercaseAfter plain [] text).1
  rw [← lowercase] at related
  generalize words (lowercase text) = all at related
  generalize words (Css.lowerAscii text) = ascii at related
  induction related with
  | nil => exact Iff.rfl
  | cons alike _ ih =>
      rw [List.mem_cons, List.mem_cons]
      exact or_congr alike.eq_iff ih

end

end StyleSieve.Text
