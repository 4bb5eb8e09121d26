import StyleSieve.Text.Utf8

/-!
# Encodings

The encodings of texts that are known by name.  A byte that has no meaning in
its encoding becomes a replacement character.
-/

namespace StyleSieve.Text

/-- An encoding of texts as bytes. -/
inductive Encoding where
  | ascii
  | latin1
  | windows1252
  | utf8
  | utf8Marked
  | utf16
  | utf16Little
  | utf16Big
  deriving DecidableEq, Repr

namespace Encoding

/-- A name of an encoding in plain form: in lower case, with one dash for any run
of other signs. -/
def plainName (name : String) : String :=
  let step := fun (read : List Char) (c : Char) =>
    if c.isAlphanum || c == '.' then c.toLower :: read
    else if read.head? == some '-' then read
    else '-' :: read
  String.ofList (name.toList.foldl step []).reverse

/-- The encoding with a name. -/
def ofName? (name : String) : Option Encoding :=
  let plain := plainName name
  if ["ascii", "us-ascii", "646", "ansi-x3.4-1968", "iso646-us", "iso-ir-6"].contains plain then
    some .ascii
  else if ["latin-1", "latin1", "latin", "l1", "iso-8859-1", "iso8859-1", "iso8859", "8859",
      "cp819", "ibm819", "iso-ir-100", "iso-8859-1-1987", "csisolatin1"].contains plain then
    some .latin1
  else if ["windows-1252", "cp1252", "1252"].contains plain then some .windows1252
  else if ["utf-8", "utf8", "u8", "utf", "cp65001", "utf8-ucs2", "utf8-ucs4"].contains plain then
    some .utf8
  else if ["utf-8-sig", "utf8-sig"].contains plain then some .utf8Marked
  else if ["utf-16", "utf16", "u16"].contains plain then some .utf16
  else if ["utf-16-le", "utf-16le", "utf16-le", "utf16le", "unicodelittleunmarked"].contains plain
    then some .utf16Little
  else if ["utf-16-be", "utf-16be", "utf16-be", "utf16be", "unicodebigunmarked"].contains plain
    then some .utf16Big
  else none

/-- The characters of the bytes from 128 to 159 in the encoding of western
Windows; five of them have none. -/
def windowsChars : List Nat :=
  [0x20AC, 0xFFFD, 0x201A, 0x192, 0x201E, 0x2026, 0x2020, 0x2021, 0x2C6, 0x2030, 0x160, 0x2039,
   0x152, 0xFFFD, 0x17D, 0xFFFD, 0xFFFD, 0x2018, 0x2019, 0x201C, 0x201D, 0x2022, 0x2013, 0x2014,
   0x2DC, 0x2122, 0x161, 0x203A, 0x153, 0xFFFD, 0x17E, 0x178]

/-- The character of a byte in the encoding of western Windows. -/
def windowsChar (byte : UInt8) : Char :=
  if 0x80 ≤ byte.toNat ∧ byte.toNat < 0xA0 then
    Char.ofNat (windowsChars.getD (byte.toNat - 0x80) 0xFFFD)
  else Char.ofNat byte.toNat

/-- The units of two bytes that a sequence of bytes holds; a last byte that is
alone gives no unit. -/
def units (big : Bool) : List UInt8 → List (Option Nat)
  | first :: second :: rest =>
      some (if big then 0x100 * first.toNat + second.toNat
        else 0x100 * second.toNat + first.toNat) :: units big rest
  | [_] => [none]
  | [] => []

/-- Whether a unit is the first half of a character of two units. -/
def isHighHalf (unit : Nat) : Bool := 0xD800 ≤ unit && unit < 0xDC00

/-- Whether a unit is the second half of a character of two units. -/
def isLowHalf (unit : Nat) : Bool := 0xDC00 ≤ unit && unit < 0xE000

/-- The characters of units of two bytes, after a first half that may be
pending. -/
def charsOfUnits (pending : Option Nat) : List (Option Nat) → List Char
  | [] => if pending.isSome then ['\uFFFD'] else []
  | next :: rest =>
      match pending, next with
      | some high, some unit =>
          if isLowHalf unit then
            Char.ofNat (0x10000 + 0x400 * (high - 0xD800) + (unit - 0xDC00)) ::
              charsOfUnits none rest
          else if isHighHalf unit then '\uFFFD' :: charsOfUnits (some unit) rest
          else '\uFFFD' :: Char.ofNat unit :: charsOfUnits none rest
      | none, some unit =>
          if isHighHalf unit then charsOfUnits (some unit) rest
          else if isLowHalf unit then '\uFFFD' :: charsOfUnits none rest
          else Char.ofNat unit :: charsOfUnits none rest
      | some _, none => ['\uFFFD', '\uFFFD']
      | none, none => ['\uFFFD']

/-- The text that bytes spell. -/
def decode (encoding : Encoding) (bytes : List UInt8) : String :=
  match encoding with
  | .ascii =>
      String.ofList (bytes.map fun byte =>
        if byte.toNat < 0x80 then Char.ofNat byte.toNat else '\uFFFD')
  | .latin1 => String.ofList (bytes.map fun byte => Char.ofNat byte.toNat)
  | .windows1252 => String.ofList (bytes.map windowsChar)
  | .utf8 => decodeUtf8Lossy bytes
  | .utf8Marked =>
      decodeUtf8Lossy (if bytes.take 3 == [0xEF, 0xBB, 0xBF] then bytes.drop 3 else bytes)
  | .utf16 =>
      if bytes.take 2 == [0xFE, 0xFF] then
        String.ofList (charsOfUnits none (units true (bytes.drop 2)))
      else if bytes.take 2 == [0xFF, 0xFE] then
        String.ofList (charsOfUnits none (units false (bytes.drop 2)))
      else String.ofList (charsOfUnits none (units false bytes))
  | .utf16Little => String.ofList (charsOfUnits none (units false bytes))
  | .utf16Big => String.ofList (charsOfUnits none (units true bytes))

end Encoding

end StyleSieve.Text
