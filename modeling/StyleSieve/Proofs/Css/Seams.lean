import Mathlib.Data.Bool.AllAny
import StyleSieve.Proofs.Css.ReadBack

/-!
# Seams

A text is glued to what follows it by a comma, a semicolon, a blank or a bracket.  What
stands after such a character cannot change where the tokens before it end, and an empty
comment ends every token but a backslash.
-/

namespace StyleSieve.Css

/-- The characters at which texts are glued together. -/
def seams : List Char :=
  [',', ';', ' ', '\x7b', '\x7d', ')', ']']

theorem seam_spec {seam : Char} (isSeam : seam ∈ seams) :
    isNameChar seam = false ∧ isNameStart seam = false ∧ seam.isDigit = false ∧
      isHexDigit seam = false ∧ isExponentMark seam = false ∧
        seam ∉ ['\\', '-', '+', '.', '?', '>', '<', '!', '*', '=', '|', '\n'] := by
  have all : ∀ seam ∈ seams, isNameChar seam = false ∧ isNameStart seam = false ∧
      seam.isDigit = false ∧ isHexDigit seam = false ∧ isExponentMark seam = false ∧
        seam ∉ ['\\', '-', '+', '.', '?', '>', '<', '!', '*', '=', '|', '\n'] :=
    List.all_iff_forall_prop.1 (by decide)
  exact all seam isSeam

/-- Whether a text goes on with an exponent is seen in its first three characters. -/
theorem takeExponent_isEmpty (c : Char) (more : List Char) :
    (takeExponent (c :: more)).1.isEmpty =
      !(isExponentMark c && (takeSign more).2.head?.any Char.isDigit) := by
  have digits : ∀ text : List Char,
      (takeDigits text).1.isEmpty = !text.head?.any Char.isDigit := by
    intro text
    cases text with
    | nil => rfl
    | cons d later => cases isDigit : d.isDigit <;> simp [takeDigits, isDigit]
  unfold takeExponent isExponentMark
  dsimp only
  split
  · rename_i mark
    rw [digits, mark, Bool.true_and]
    split
    · rename_i none
      rw [none]
      rfl
    · rename_i filled
      rw [Bool.not_eq_true, Bool.not_eq_false'] at filled
      rw [filled]
      rfl
  · rename_i noMark
    rw [Bool.not_eq_true] at noMark
    rw [noMark]
    rfl

section

variable {seam : Char} (isSeam : seam ∈ seams) (text rest : List Char)

theorem head?_seam : (text ++ seam :: rest).head? = (text ++ [seam]).head? := by
  cases text <;> rfl

theorem escapes_seam : escapes (text ++ seam :: rest) = escapes (text ++ [seam]) := by
  rw [escapes, escapes, head?_seam]

/-- A test of what follows a mark in front of a text sees no further than a seam that is no
mark itself. -/
theorem afterMark_seam {mark : Char} (notMark : seam ≠ mark) (test : List Char → Bool)
    (unmarked : ∀ c more others, c ≠ mark → test (c :: more) = test (c :: others))
    (marked : ∀ c more others, test (mark :: c :: more) = test (mark :: c :: others)) :
    test (text ++ seam :: rest) = test (text ++ [seam]) := by
  cases text with
  | nil => exact unmarked seam rest [] notMark
  | cons c more =>
      by_cases isMark : c = mark
      · subst isMark
        cases more with
        | nil => exact marked seam rest []
        | cons d later => exact marked d _ _
      · exact unmarked c _ _ isMark

include isSeam

theorem endsName_seam : endsName (text ++ seam :: rest) = endsName (text ++ [seam]) := by
  cases text with
  | nil =>
      obtain ⟨_, _, _, _, _, notSpecial⟩ := seam_spec isSeam
      have notBackslash : (seam == '\\') = false := by simp_all
      simp [endsName, notBackslash]
  | cons c more => rw [List.cons_append, List.cons_append, endsName, endsName, escapes_seam]

theorem startsUnicodeRange_seam :
    startsUnicodeRange (text ++ seam :: rest) = startsUnicodeRange (text ++ [seam]) := by
  have notPlus : seam ≠ '+' := by
    have notSpecial := (seam_spec isSeam).2.2.2.2.2
    simp_all
  refine afterMark_seam text rest notPlus startsUnicodeRange ?_ fun c more others => rfl
  intro c more others noPlus
  simp [startsUnicodeRange, noPlus]

theorem startsIdent_dash_seam :
    startsIdent ('-' :: (text ++ seam :: rest)) = startsIdent ('-' :: (text ++ [seam])) := by
  cases text with
  | nil =>
      have notBackslash : seam ≠ '\\' := by
        have notSpecial := (seam_spec isSeam).2.2.2.2.2
        simp_all
      rw [List.nil_append, List.nil_append, startsIdent, startsIdent]
      · exact notBackslash
      · exact notBackslash
  | cons c more =>
      by_cases isBackslash : c = '\\'
      · subst isBackslash
        exact escapes_seam more rest
      · rw [List.cons_append, List.cons_append, startsIdent, startsIdent]
        · exact isBackslash
        · exact isBackslash

theorem startsIdent_seam : startsIdent (text ++ seam :: rest) = startsIdent (text ++ [seam]) := by
  have notSpecial := (seam_spec isSeam).2.2.2.2.2
  cases text with
  | nil =>
      have notDash : seam ≠ '-' := by simp_all
      have notBackslash : seam ≠ '\\' := by simp_all
      rw [List.nil_append, List.nil_append, startsIdent_cons notDash notBackslash,
        startsIdent_cons notDash notBackslash]
  | cons c more =>
      by_cases isDash : c = '-'
      · subst isDash
        exact startsIdent_dash_seam isSeam more rest
      · by_cases isBackslash : c = '\\'
        · subst isBackslash
          exact escapes_seam more rest
        · rw [List.cons_append, List.cons_append, startsIdent_cons isDash isBackslash,
            startsIdent_cons isDash isBackslash]

theorem startsFraction_seam :
    startsFraction (text ++ seam :: rest) = startsFraction (text ++ [seam]) := by
  have notPoint : seam ≠ '.' := by
    have notSpecial := (seam_spec isSeam).2.2.2.2.2
    simp_all
  refine afterMark_seam text rest notPoint startsFraction ?_ fun c more others => rfl
  intro c more others noPoint
  simp [startsFraction, noPoint]

theorem startsUnsigned_seam :
    startsUnsigned (text ++ seam :: rest) = startsUnsigned (text ++ [seam]) := by
  have notPoint : seam ≠ '.' := by
    have notSpecial := (seam_spec isSeam).2.2.2.2.2
    simp_all
  cases text with
  | nil => simp [startsUnsigned]
  | cons c more =>
      by_cases isPoint : c = '.'
      · subst isPoint
        exact startsFraction_seam isSeam ('.' :: more) rest
      · simp [startsUnsigned]

theorem takeSign_seam :
    (takeSign (text ++ seam :: rest)).2.head? = (takeSign (text ++ [seam])).2.head? := by
  have notSpecial := (seam_spec isSeam).2.2.2.2.2
  cases text with
  | nil =>
      have notPlus : seam ≠ '+' := by simp_all
      have notMinus : seam ≠ '-' := by simp_all
      simp [takeSign, notPlus, notMinus]
  | cons c more =>
      by_cases isPlus : c = '+'
      · subst isPlus
        exact head?_seam more rest
      · by_cases isMinus : c = '-'
        · subst isMinus
          exact head?_seam more rest
        · simp [takeSign, isPlus, isMinus]

theorem takeExponent_seam :
    (takeExponent (text ++ seam :: rest)).1.isEmpty =
      (takeExponent (text ++ [seam])).1.isEmpty := by
  have notMark := (seam_spec isSeam).2.2.2.2.1
  cases text with
  | nil =>
      rw [List.nil_append, List.nil_append, takeExponent_isEmpty, takeExponent_isEmpty, notMark]
      rfl
  | cons c more =>
      rw [List.cons_append, List.cons_append, takeExponent_isEmpty, takeExponent_isEmpty,
        takeSign_seam isSeam]

theorem endsRange_seam (single : Bool) :
    endsRange single (text ++ seam :: rest) = endsRange single (text ++ [seam]) := by
  have notDash : seam ≠ '-' := by
    have notSpecial := (seam_spec isSeam).2.2.2.2.2
    simp_all
  refine afterMark_seam text rest notDash (endsRange single) ?_ fun c more others => rfl
  intro c more others noDash
  simp [endsRange, noDash]

theorem take_seam :
    ((text ++ seam :: rest).take 3 != "!--".toList) =
      ((text ++ [seam]).take 3 != "!--".toList) := by
  have notSpecial := (seam_spec isSeam).2.2.2.2.2
  have notBang : seam ≠ '!' := by simp_all
  have notDash : seam ≠ '-' := by simp_all
  match text with
  | [] => simp [bne, notBang]
  | [c] => simp [bne, notDash]
  | [c, d] => rfl
  | c :: d :: e :: more => rfl

theorem endsDelim_seam (c : Char) :
    endsDelim c (text ++ seam :: rest) = endsDelim c (text ++ [seam]) := by
  unfold endsDelim
  split
  · rw [escapes_seam]
  · rw [startsIdent_dash_seam isSeam, startsUnsigned_seam isSeam]
  · rw [startsUnsigned_seam isSeam]
  · exact congrArg not (startsUnsigned_seam isSeam ('.' :: text) rest)
  · rw [startsIdent_seam isSeam]
  · rw [startsIdent_seam isSeam, head?_seam]
  · exact take_seam isSeam text rest
  all_goals simp only [head?_seam text rest]

/-- What stands after a seam does not change whether a token ends. -/
theorem Token.endsBefore_seam (token : Token) :
    token.endsBefore (text ++ seam :: rest) = token.endsBefore (text ++ [seam]) := by
  cases token with
  | ident name =>
      simp only [Token.endsBefore, endsIdent, endsName_seam isSeam text rest,
        startsUnicodeRange_seam isSeam text rest, head?_seam text rest]
  | number spelling =>
      simp only [Token.endsBefore, endsNumber, startsIdent_seam isSeam text rest,
        takeExponent_seam isSeam text rest, startsFraction_seam isSeam text rest,
        head?_seam text rest]
  | atKeyword name => exact endsName_seam isSeam text rest
  | hash name isIdentifier => exact endsName_seam isSeam text rest
  | dimension spelling unit => exact endsName_seam isSeam text rest
  | unicodeRange first last => exact endsRange_seam isSeam text rest _
  | delim written =>
      cases written with
      | nil => rfl
      | cons c more =>
          cases more with
          | nil => exact endsDelim_seam isSeam text rest c
          | cons d others => rfl
  | _ => rfl

end

theorem dropWhile_seam {seam : Char} (notSpace : isSpace seam = false) (text rest : List Char) :
    ((text ++ seam :: rest).dropWhile isSpace).head? =
      ((text ++ [seam]).dropWhile isSpace).head? := by
  induction text with
  | nil => simp [notSpace]
  | cons c more ih =>
      rw [List.cons_append, List.cons_append, List.dropWhile_cons, List.dropWhile_cons]
      split
      · exact ih
      · rfl

theorem Opening.opensBefore_seam {seam : Char} (notSpace : isSpace seam = false)
    (opening : Opening) (text rest : List Char) :
    opening.opensBefore (text ++ seam :: rest) = opening.opensBefore (text ++ [seam]) := by
  cases opening with
  | call name => simp only [Opening.opensBefore, dropWhile_seam notSpace text rest]
  | _ => rfl

/-- An empty comment ends every token but a backslash. -/
theorem Token.endsBefore_comment {token : Token} (notBackslash : token ≠ .delim ['\\'])
    (rest : List Char) : token.endsBefore ("/**/".toList ++ rest) = true := by
  have closed : endsName ('/' :: '*' :: '*' :: '/' :: rest) = true := rfl
  have noIdent : startsIdent ('/' :: '*' :: '*' :: '/' :: rest) = false := rfl
  cases token with
  | ident name =>
      simp [Token.endsBefore, endsIdent, closed, startsUnicodeRange]
  | number spelling =>
      simp [Token.endsBefore, endsNumber, noIdent, takeExponent, startsFraction]
  | atKeyword name => exact closed
  | hash name isIdentifier => exact closed
  | dimension spelling unit => exact closed
  | unicodeRange first last => rfl
  | delim text =>
      cases text with
      | nil => rfl
      | cons c more =>
          cases more with
          | nil =>
              have other : c ≠ '\\' := fun same => notBackslash (by rw [same])
              rw [Token.endsBefore]
              unfold endsDelim
              split <;> first
                | rfl
                | exact absurd rfl other
          | cons d others => rfl
  | _ => rfl

end StyleSieve.Css
