import Mathlib.Data.List.Induction
import StyleSieve.Css.Spelling
import StyleSieve.Proofs.Css.Names

/-!
# Reading written numbers and ranges

A number is kept by its spelling.  Each spelling is read back before any text that does
not go on with the number, and so are the ranges of code points.
-/

namespace StyleSieve.Css

/-! ## Where a number ends -/

/-- Whether a text starts with a point and a digit. -/
def startsFraction : List Char → Bool
  | '.' :: d :: _ => d.isDigit
  | _ => false

/-- Whether a text starts with a number without a sign. -/
def startsUnsigned : List Char → Bool
  | '.' :: text => startsFraction ('.' :: text)
  | c :: _ => c.isDigit
  | [] => false

theorem takeMantissa?_none {text : List Char} (noNumber : startsUnsigned text = false) :
    takeMantissa? text = none := by
  have digits : takeDigits text = ([], text) := by
    cases text with
    | nil => rfl
    | cons c rest =>
        have notDigit : c.isDigit = false := by
          unfold startsUnsigned at noNumber
          split at noNumber
          · rename_i same
            rw [(List.cons.inj same).1]
            rfl
          · rename_i same
            rw [(List.cons.inj same).1]
            exact noNumber
          · rename_i same
            cases same
        simp [takeDigits, notDigit]
  rw [takeMantissa?, digits]
  dsimp only
  split
  · rw [startsUnsigned, startsFraction] at noNumber
    rw [if_neg (by simp [noNumber])]
    rfl
  · rfl

/-- Whether a character starts an exponent. -/
def isExponentMark (c : Char) : Bool :=
  c == 'e' || c == 'E'

/-- Whether a text cannot continue a number with the given spelling: neither by a
digit, nor by an exponent or a fraction that the number does not have yet. -/
def endsNumber (spelling text : List Char) : Bool :=
  text.head?.all (!·.isDigit) &&
    (spelling.any isExponentMark ||
      ((takeExponent text).1.isEmpty && (spelling.contains '.' || !startsFraction text)))

theorem takeDigits_append {digits rest : List Char} (areDigits : ∀ c ∈ digits, c.isDigit = true)
    (ends : ∀ c ∈ rest.head?, c.isDigit = false) :
    takeDigits (digits ++ rest) = (digits, rest) := by
  rw [takeDigits, List.takeWhile_append_of_pos areDigits, List.dropWhile_append_of_pos areDigits]
  cases rest with
  | nil => simp
  | cons c more =>
      have stops := ends c rfl
      simp [stops]

theorem takeSign_append {sign rest : List Char} (isSign : IsSign sign)
    (ends : ∀ c ∈ rest.head?, c ≠ '+' ∧ c ≠ '-') :
    takeSign (sign ++ rest) = (sign, rest) := by
  cases isSign with
  | plus => rfl
  | minus => rfl
  | none =>
      cases rest with
      | nil => rfl
      | cons c more =>
          obtain ⟨notPlus, notMinus⟩ := ends c rfl
          simp [takeSign, notPlus, notMinus]

theorem digit_ne_sign {c : Char} (isDigit : c.isDigit = true) : c ≠ '+' ∧ c ≠ '-' := by
  constructor
  · rintro rfl
    cases isDigit
  · rintro rfl
    cases isDigit

/-- A mantissa starts with a digit or a point. -/
theorem IsMantissa.head {mantissa : List Char} (isMantissa : IsMantissa mantissa) :
    ∃ first more, mantissa = first :: more ∧ (first.isDigit = true ∨ first = '.') := by
  cases isMantissa with
  | whole areDigits =>
      obtain ⟨filled, areDigits⟩ := areDigits
      cases mantissa with
      | nil => exact absurd rfl filled
      | cons first more => exact ⟨first, more, rfl, .inl (areDigits first List.mem_cons_self)⟩
  | @fraction whole digits areWhole areDigits =>
      cases whole with
      | nil => exact ⟨'.', digits, rfl, .inr rfl⟩
      | cons first more =>
          exact ⟨first, more ++ '.' :: digits, rfl, .inl (areWhole first List.mem_cons_self)⟩

theorem IsMantissa.head_ne_sign {mantissa : List Char} (isMantissa : IsMantissa mantissa)
    (rest : List Char) : ∀ c ∈ (mantissa ++ rest).head?, c ≠ '+' ∧ c ≠ '-' := by
  obtain ⟨first, more, rfl, isDigit | rfl⟩ := isMantissa.head
  · rintro c ⟨⟩
    exact digit_ne_sign isDigit
  · rintro c ⟨⟩
    decide

/-- A mantissa is read back before a text that starts neither with a digit nor, unless
it has a fraction, with one. -/
theorem takeMantissa?_append {mantissa rest : List Char} (isMantissa : IsMantissa mantissa)
    (ends : ∀ c ∈ rest.head?, c.isDigit = false)
    (noFraction : '.' ∈ mantissa ∨ startsFraction rest = false) :
    takeMantissa? (mantissa ++ rest) = some (mantissa, rest) := by
  cases isMantissa with
  | whole areDigits =>
      obtain ⟨filled, areDigits⟩ := areDigits
      have noPoint : '.' ∉ mantissa := by
        intro member
        cases areDigits '.' member
      have plain := noFraction.resolve_left noPoint
      rw [takeMantissa?, takeDigits_append areDigits ends]
      dsimp only
      split
      · rename_i d more
        rw [startsFraction] at plain
        simp [plain, filled]
      · simp [filled]
  | @fraction whole digits areWhole areDigits =>
      obtain ⟨filled, areDigits⟩ := areDigits
      cases digits with
      | nil => exact absurd rfl filled
      | cons d more =>
          have isDigit := areDigits d List.mem_cons_self
          have point : ∀ c ∈ ('.' :: d :: (more ++ rest)).head?, c.isDigit = false := by
            rintro c ⟨⟩
            decide
          rw [List.append_assoc, List.cons_append, List.cons_append, takeMantissa?,
            takeDigits_append areWhole point]
          have read := takeDigits_append areDigits ends
          rw [List.cons_append] at read
          simp [isDigit, read]

/-- An exponent is read back before a text that does not start with a digit. -/
theorem takeExponent_append {exponent rest : List Char} (isExponent : IsExponent exponent)
    (ends : ∀ c ∈ rest.head?, c.isDigit = false)
    (noExponent : exponent ≠ [] ∨ (takeExponent rest).1 = []) :
    takeExponent (exponent ++ rest) = (exponent, rest) := by
  cases isExponent with
  | none =>
      have same := (takeExponent_spec rest).2
      have empty := noExponent.resolve_left (fun filled => filled rfl)
      rw [empty, List.nil_append] at same
      rw [List.nil_append, Prod.ext_iff]
      exact ⟨empty, same⟩
  | @some mark sign digits isMark isSign areDigits =>
      obtain ⟨filled, areDigits⟩ := areDigits
      have unsigned : ∀ c ∈ (digits ++ rest).head?, c ≠ '+' ∧ c ≠ '-' := by
        cases digits with
        | nil => exact absurd rfl filled
        | cons first more =>
            rintro c ⟨⟩
            exact digit_ne_sign (areDigits first List.mem_cons_self)
      rw [List.cons_append, List.append_assoc, takeExponent, takeSign_append isSign unsigned]
      simp [isMark, takeDigits_append areDigits ends, filled]

theorem IsExponent.head_not_digit {exponent rest : List Char} (isExponent : IsExponent exponent)
    (ends : ∀ c ∈ rest.head?, c.isDigit = false) :
    ∀ c ∈ (exponent ++ rest).head?, c.isDigit = false := by
  cases isExponent with
  | none => exact ends
  | some isMark isSign areDigits =>
      rintro c ⟨⟩
      rcases isMark with rfl | rfl <;> decide

theorem IsExponent.startsFraction {exponent : List Char} (isExponent : IsExponent exponent)
    (filled : exponent ≠ []) (rest : List Char) : startsFraction (exponent ++ rest) = false := by
  cases isExponent with
  | none => exact absurd rfl filled
  | some isMark isSign areDigits => rcases isMark with rfl | rfl <;> rfl

theorem isExponentMark_digit {c : Char} (isDigit : c.isDigit = true) :
    isExponentMark c = false := by
  cases isMark : isExponentMark c with
  | false => rfl
  | true =>
      rw [isExponentMark, Bool.or_eq_true, beq_iff_eq, beq_iff_eq] at isMark
      rcases isMark with rfl | rfl <;> cases isDigit

/-- A number without an exponent has no character that starts one. -/
theorem IsMantissa.no_exponent {sign mantissa : List Char} (isSign : IsSign sign)
    (isMantissa : IsMantissa mantissa) : (sign ++ mantissa).any isExponentMark = false := by
  have signless : sign.any isExponentMark = false := by cases isSign <;> rfl
  have unmarked : mantissa.any isExponentMark = false := by
    rw [List.any_eq_false]
    intro c member
    rw [Bool.not_eq_true]
    cases isMantissa with
    | whole areDigits => exact isExponentMark_digit (areDigits.2 c member)
    | fraction areWhole areDigits =>
        rcases List.mem_append.1 member with inWhole | inFraction
        · exact isExponentMark_digit (areWhole c inWhole)
        · cases inFraction with
          | head => rfl
          | tail _ inDigits => exact isExponentMark_digit (areDigits.2 c inDigits)
  rw [List.any_append, signless, unmarked, Bool.or_self]

/-- A number is read back before a text that cannot continue it. -/
theorem takeNumber?_append {spelling rest : List Char} (isNumber : IsNumber spelling)
    (ends : endsNumber spelling rest = true) :
    takeNumber? (spelling ++ rest) = some (spelling, rest) := by
  cases isNumber with
  | @spelled sign mantissa exponent isSign isMantissa isExponent =>
      rw [endsNumber, Bool.and_eq_true, Bool.or_eq_true, Bool.and_eq_true, Bool.or_eq_true,
        List.isEmpty_iff, Bool.not_eq_true', List.contains_iff_mem] at ends
      obtain ⟨noDigit, others⟩ := ends
      have ends : ∀ c ∈ rest.head?, c.isDigit = false := by
        intro c isHead
        rw [Option.mem_def] at isHead
        simpa [isHead] using noDigit
      have noExponent : exponent ≠ [] ∨ (takeExponent rest).1 = [] := by
        rcases others with marked | ⟨empty, _⟩
        · refine .inl ?_
          rintro rfl
          rw [List.append_nil, isMantissa.no_exponent isSign] at marked
          cases marked
        · exact .inr empty
      have noFraction : '.' ∈ mantissa ∨ startsFraction (exponent ++ rest) = false := by
        by_cases filled : exponent = []
        · subst filled
          rcases others with marked | ⟨_, point | plain⟩
          · rw [List.append_nil, isMantissa.no_exponent isSign] at marked
            cases marked
          · refine .inl ?_
            rw [List.append_nil, List.mem_append] at point
            refine point.resolve_left ?_
            cases isSign <;> decide
          · exact .inr plain
        · exact .inr (isExponent.startsFraction filled rest)
      rw [takeNumber?_eq, List.append_assoc, takeSign_append isSign, List.append_assoc]
      · dsimp only
        rw [takeMantissa?_append isMantissa (isExponent.head_not_digit ends) noFraction,
          Option.map_some, takeExponent_append isExponent ends noExponent, List.append_assoc]
      · rw [List.append_assoc]
        exact isMantissa.head_ne_sign _

theorem isNameStart_digit {c : Char} (isDigit : c.isDigit = true) : isNameStart c = false := by
  rw [Char.isDigit, Bool.and_eq_true, decide_eq_true_eq, decide_eq_true_eq] at isDigit
  have high : c.toNat ≤ 57 := isDigit.2
  have small : ∀ code < 58, 48 ≤ code → isNameStart (Char.ofNat code) = false := by decide
  rw [← Char.ofNat_toNat c]
  exact small c.toNat (Nat.lt_succ_of_le high) isDigit.1

theorem startsIdent_digitOrPoint {c : Char} (head : c.isDigit = true ∨ c = '.')
    (rest : List Char) :
    startsIdent (c :: rest) = false ∧ startsIdent ('-' :: c :: rest) = false := by
  rcases head with isDigit | rfl
  · have notStart := isNameStart_digit isDigit
    have notDash := (digit_ne_sign isDigit).2
    have notBackslash : c ≠ '\\' := by
      rintro rfl
      cases isDigit
    constructor
    · rw [startsIdent, notStart]
      · exact fun _ isDash _ => notDash isDash
      · exact fun _ _ isDash _ => notDash isDash
      · exact notBackslash
    · rw [startsIdent, notStart, beq_eq_false_iff_ne.2 notDash]
      · rfl
      · exact notBackslash
  · constructor <;> rfl

theorem scan_of_takeNumber? {c : Char} {rest spelling after : List Char}
    (notSpace : isSpace c = false) (notRange : c ≠ 'U' ∧ c ≠ 'u')
    (noArrow : c = '-' → rest.head? ≠ some '-') (notIdent : startsIdent (c :: rest) = false)
    (read : takeNumber? (c :: rest) = some (spelling, after)) :
    scan c rest = scanNumeric spelling after := by
  have notCloser : ¬(c = '-' ∧ rest.take 2 = ['-', '>']) := by
    rintro ⟨isDash, same⟩
    refine noArrow isDash ?_
    cases rest with
    | nil => cases same
    | cons d more =>
        rw [List.take_succ_cons] at same
        exact congrArg List.head? same
  simp [scan, notSpace, notRange.1, notRange.2, notCloser, notIdent, read]

/-- A number is scanned as one before a text that cannot continue it. -/
theorem scan_number {spelling rest : List Char} (isNumber : IsNumber spelling)
    (ends : endsNumber spelling rest = true) :
    ∃ c more, spelling ++ rest = c :: more ∧ scan c more = scanNumeric spelling rest := by
  have read := takeNumber?_append isNumber ends
  cases isNumber with
  | @spelled sign mantissa exponent isSign isMantissa isExponent =>
      obtain ⟨first, digits, rfl, head⟩ := isMantissa.head
      have notIdent := startsIdent_digitOrPoint head (digits ++ exponent ++ rest)
      have solid : isSpace first = false ∧ (first ≠ 'U' ∧ first ≠ 'u') ∧ first ≠ '-' := by
        rcases head with isDigit | rfl
        · refine ⟨?_, ⟨?_, ?_⟩, (digit_ne_sign isDigit).2⟩
          · cases isBlank : isSpace first with
            | false => rfl
            | true =>
                simp only [isSpace, Bool.or_eq_true, beq_iff_eq] at isBlank
                rcases isBlank with (rfl | rfl) | rfl <;> cases isDigit
          · rintro rfl
            cases isDigit
          · rintro rfl
            cases isDigit
        · decide
      cases isSign with
      | none =>
          refine ⟨first, _, rfl, ?_⟩
          exact scan_of_takeNumber? solid.1 solid.2.1 (fun isDash => absurd isDash solid.2.2)
            notIdent.1 read
      | plus =>
          refine ⟨'+', _, rfl, ?_⟩
          exact scan_of_takeNumber? (by decide) (by decide) (fun isDash => by cases isDash)
            rfl read
      | minus =>
          refine ⟨'-', _, rfl, ?_⟩
          refine scan_of_takeNumber? (by decide) (by decide) (fun _ isDash => ?_)
            notIdent.2 read
          exact solid.2.2 (Option.some.inj isDash)

/-! ## Ranges of code points -/

theorem hexValue_append (digits : List Char) (digit : Char) :
    hexValue (digits ++ [digit]) = 16 * hexValue digits + hexDigitValue digit := by
  rw [hexValue, List.foldl_append]
  rfl

theorem hexDigit_spec {value : Nat} (small : value < 16) :
    isHexDigit value.digitChar.toUpper = true ∧
      hexDigitValue value.digitChar.toUpper = value := by
  have all : ∀ value < 16, isHexDigit (Nat.digitChar value).toUpper = true ∧
      hexDigitValue (Nat.digitChar value).toUpper = value := by decide
  exact all value small

theorem hexDigits_step {value : Nat} (large : 16 ≤ value) :
    hexDigits value = hexDigits (value / 16) ++ [(value % 16).digitChar.toUpper] := by
  rw [hexDigits, Nat.toDigits_of_base_le (by decide) large, List.map_append]
  rfl

theorem hexDigits_of_lt {value : Nat} (small : value < 16) :
    hexDigits value = [value.digitChar.toUpper] := by
  rw [hexDigits, Nat.toDigits_of_lt_base small]
  rfl

/-- The hexadecimal digits of a number spell it. -/
theorem hexDigits_spec (value : Nat) :
    (∀ c ∈ hexDigits value, isHexDigit c = true) ∧ hexValue (hexDigits value) = value := by
  induction value using Nat.strongRecOn with
  | ind value ih =>
      by_cases small : value < 16
      · rw [hexDigits_of_lt small]
        refine ⟨?_, ?_⟩
        · simpa using (hexDigit_spec small).1
        · rw [hexValue, List.foldl_cons, (hexDigit_spec small).2]
          simp
      · have large := Nat.le_of_not_lt small
        obtain ⟨areHex, same⟩ := ih (value / 16) (Nat.div_lt_self (by omega) (by decide))
        obtain ⟨isHex, digit⟩ := hexDigit_spec (Nat.mod_lt value (by decide : 16 > 0))
        rw [hexDigits_step large]
        constructor
        · exact List.forall_mem_append.2 ⟨areHex, List.forall_mem_singleton.2 isHex⟩
        · rw [hexValue_append, same, digit, Nat.div_add_mod]

theorem hexDigits_ne_nil (value : Nat) : hexDigits value ≠ [] := by
  rw [hexDigits, Ne, List.map_eq_nil_iff]
  exact Nat.toDigits_ne_nil

/-- The number of texts of `count` hexadecimal digits, which bounds their values. -/
def hexBound (count : Nat) : Nat :=
  Nat.pow 16 count

theorem length_hexDigits {value : Nat} (small : value < hexBound 6) :
    (hexDigits value).length ≤ 6 := by
  rw [hexDigits, List.length_map]
  exact (Nat.length_toDigits_le_iff (by decide) (by decide)).2 small

theorem hexDigitValue_lt {c : Char} (isHex : isHexDigit c = true) : hexDigitValue c < 16 := by
  have all : ∀ code < 103, isHexDigit (Char.ofNat code) = true →
      hexDigitValue (Char.ofNat code) < 16 := by decide
  have low : c.toNat < 103 := by
    simp only [isHexDigit, Char.isDigit, Bool.or_eq_true, Bool.and_eq_true,
      decide_eq_true_eq] at isHex
    rcases isHex with (⟨_, high⟩ | ⟨_, high⟩) | ⟨_, high⟩
    · exact Nat.lt_of_le_of_lt (show c.toNat ≤ 57 from high) (by decide)
    · exact Nat.lt_succ_of_le (show c.toNat ≤ 102 from high)
    · exact Nat.lt_of_le_of_lt (show c.toNat ≤ 70 from high) (by decide)
  have value := all c.toNat low
  rw [Char.ofNat_toNat] at value
  exact value isHex

/-- The value of hexadecimal digits is bounded by their number. -/
theorem hexValue_lt {digits : List Char} (areHex : ∀ c ∈ digits, isHexDigit c = true) :
    hexValue digits < hexBound digits.length := by
  induction digits using List.reverseRecOn with
  | nil => decide
  | append_singleton digits digit ih =>
      have front := ih fun c member => areHex c (List.mem_append_left _ member)
      have last := hexDigitValue_lt (areHex digit (by simp))
      have bound : hexBound (digits.length + 1) = hexBound digits.length * 16 := rfl
      rw [hexValue_append, List.length_append, List.length_singleton, bound]
      omega

/-- Whether a text cannot continue a range of code points; a range of one code point
would also be continued by a second bound. -/
def endsRange (single : Bool) : List Char → Bool
  | '-' :: c :: _ => !(single && isHexDigit c)
  | c :: _ => !isHexDigit c && c != '?'
  | [] => true

theorem endsRange_head {single : Bool} {rest : List Char} (ends : endsRange single rest = true) :
    (∀ next ∈ rest.head?, isHexDigit next = false) ∧ ∀ next ∈ rest.head?, (next == '?') = false := by
  unfold endsRange at ends
  split at ends
  · constructor <;> (rintro next ⟨⟩; decide)
  · rw [Bool.and_eq_true, Bool.not_eq_true', bne_iff_ne] at ends
    constructor
    · rintro next ⟨⟩
      exact ends.1
    · rintro next ⟨⟩
      exact beq_eq_false_iff_ne.2 ends.2
  · constructor <;> rintro next ⟨⟩

theorem takeWhile_mark {rest : List Char} (noMark : ∀ next ∈ rest.head?, (next == '?') = false)
    (count : Nat) : (rest.take count).takeWhile (· == '?') = [] := by
  cases rest with
  | nil => simp
  | cons next more =>
      have stops := noMark next rfl
      cases count with
      | zero => rfl
      | succ count => simp only [List.take_succ_cons, List.takeWhile_cons, stops]; rfl

theorem takeUnicodeRange_single {digits rest : List Char}
    (areHex : ∀ c ∈ digits, isHexDigit c = true) (short : digits.length ≤ 6)
    (ends : endsRange true rest = true) :
    takeUnicodeRange (digits ++ rest) = (hexValue digits, hexValue digits, rest) := by
  obtain ⟨noHex, noMark⟩ := endsRange_head ends
  simp only [takeUnicodeRange, takeWhile_hex areHex short noHex, List.drop_left,
    takeWhile_mark noMark, List.length_nil, List.drop_zero]
  rw [if_neg (fun filled => filled rfl)]
  split
  · rename_i more
    cases more with
    | nil => rfl
    | cons c later =>
        rw [endsRange, Bool.true_and, Bool.not_eq_true'] at ends
        simp [ends]
  · rfl

theorem takeUnicodeRange_double {digits last rest : List Char}
    (areHex : ∀ c ∈ digits, isHexDigit c = true) (short : digits.length ≤ 6)
    (areHexLast : ∀ c ∈ last, isHexDigit c = true) (shortLast : last.length ≤ 6)
    (filled : last ≠ []) (ends : endsRange false rest = true) :
    takeUnicodeRange (digits ++ '-' :: (last ++ rest)) =
      (hexValue digits, hexValue last, rest) := by
  have noHex : ∀ next ∈ ('-' :: (last ++ rest)).head?, isHexDigit next = false := by
    rintro next ⟨⟩
    decide
  have noMark : ∀ next ∈ ('-' :: (last ++ rest)).head?, (next == '?') = false := by
    rintro next ⟨⟩
    decide
  simp only [takeUnicodeRange, takeWhile_hex areHex short noHex, List.drop_left,
    takeWhile_mark noMark, List.length_nil, List.drop_zero]
  rw [if_neg (fun filled => filled rfl), takeWhile_hex areHexLast shortLast (endsRange_head ends).1,
    if_pos filled, List.drop_left]

/-- A range of code points is read back before a text that cannot continue it. -/
theorem takeUnicodeRange_write {first last : Nat} (smallFirst : first < hexBound 6)
    (smallLast : last < hexBound 6) {rest : List Char}
    (ends : endsRange (first = last) rest = true) :
    takeUnicodeRange (hexDigits first ++
      ((if first = last then [] else '-' :: hexDigits last) ++ rest)) = (first, last, rest) := by
  obtain ⟨areHex, value⟩ := hexDigits_spec first
  by_cases same : first = last
  · subst same
    rw [if_pos rfl, List.nil_append,
      takeUnicodeRange_single areHex (length_hexDigits smallFirst) (by simpa using ends), value]
  · obtain ⟨areHexLast, valueLast⟩ := hexDigits_spec last
    rw [if_neg same, List.cons_append,
      takeUnicodeRange_double areHex (length_hexDigits smallFirst) areHexLast
        (length_hexDigits smallLast) (hexDigits_ne_nil last) (by simpa [same] using ends),
      value, valueLast]

end StyleSieve.Css
