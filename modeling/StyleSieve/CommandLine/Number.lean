import StyleSieve.Css.Name
import StyleSieve.Text.Blank
import StyleSieve.Text.Letters
import StyleSieve.Text.Split

/-!
# Numbers as arguments

Which texts are numbers: decimal digits, in groups between underscores, with a
sign, a point and an exponent, or a word for infinity or for no number.
-/

namespace StyleSieve.CommandLine

/-- A text without a sign in front. -/
def withoutSign : List Char → List Char
  | '+' :: rest => rest
  | '-' :: rest => rest
  | text => text

/-- Whether a text is made of groups of digits with single underscores between
them. -/
def isDigits (text : List Char) : Bool :=
  (Text.splitAtChar '_' text).all fun group => group ≠ [] && group.all Text.isDecimal

/-- Whether a text is a number without sign and exponent. -/
def isMantissa (text : List Char) : Bool :=
  match Text.cutAt (· == '.') text with
  | (whole, none) => isDigits whole
  | (whole, some []) => isDigits whole
  | ([], some places) => isDigits places
  | (whole, some places) => isDigits whole && isDigits places

/-- Whether a text is a number. -/
def isNumber (text : String) : Bool :=
  let number := withoutSign (Text.trim text.toList)
  if ["inf", "infinity", "nan"].contains (String.ofList (Css.lowerAscii number)) then true
  else
    match Text.cutAt (fun c => c == 'e' || c == 'E') number with
    | (mantissa, none) => isMantissa mantissa
    | (mantissa, some exponent) => isMantissa mantissa && isDigits (withoutSign exponent)

end StyleSieve.CommandLine
