import StyleSieve.Text.Quoted

/-!
# Data in messages

Options may carry data of any shape.  Data of a shape that cannot be used are
shown in the message that refuses them.
-/

namespace StyleSieve.Text

/-- A piece of data: a fraction is `digits / 10 ^ places`. -/
inductive Datum where
  | null
  | bool (value : Bool)
  | integer (value : Int)
  | fraction (digits : Int) (places : Nat)
  | text (value : String)
  | list (items : List Datum)
  | record (fields : List (String × Datum))
  deriving Repr

namespace Datum

/-- The digits of a number without its trailing zeros, and how many there were. -/
def significant (digits : List Char) : List Char × Nat :=
  let zeros := (digits.reverse.takeWhile (· == '0')).length
  (digits.take (digits.length - zeros), zeros)

/-- The text of a positive fraction: positional, with at least one digit on
either side of the point, when its first digit stands for a power of ten
between the minus fourth and the fifteenth, and with an exponent otherwise. -/
def writeFraction (value places : Nat) : String :=
  let all := Nat.toDigits 10 value
  let (digits, zeros) := significant all
  let point : Int := all.length - places
  if value = 0 then "0.0"
  else if -4 < point && point ≤ 16 then
    if point ≤ 0 then
      String.ofList ("0.".toList ++ List.replicate point.natAbs '0' ++ digits)
    else
      let whole := (digits ++ List.replicate zeros '0').take point.toNat
      let part := digits.drop point.toNat
      String.ofList (whole ++ List.replicate (point.toNat - whole.length) '0' ++ '.' ::
        if part.isEmpty then ['0'] else part)
  else
    let exponent := point - 1
    let size := (toString exponent.natAbs).toList
    String.ofList (digits.take 1 ++
      (if digits.length > 1 then '.' :: digits.drop 1 else []) ++ 'e' ::
      (if exponent < 0 then '-' else '+') ::
      (List.replicate (2 - size.length) '0' ++ size))

mutual

/-- The text of a piece of data. -/
def write : Datum → String
  | .null => "None"
  | .bool true => "True"
  | .bool false => "False"
  | .integer value => toString value
  | .fraction digits places =>
      (if digits < 0 then "-" else "") ++ writeFraction digits.natAbs places
  | .text value => quoted value
  | .list items => "[" ++ ", ".intercalate (writeItems items) ++ "]"
  | .record fields => "\x7b" ++ ", ".intercalate (writeFields fields) ++ "\x7d"

/-- The texts of the items of a list. -/
def writeItems : List Datum → List String
  | [] => []
  | item :: rest => item.write :: writeItems rest

/-- The texts of the fields of a record. -/
def writeFields : List (String × Datum) → List String
  | [] => []
  | (name, value) :: rest => (quoted name ++ ": " ++ value.write) :: writeFields rest

end

end Datum

end StyleSieve.Text
