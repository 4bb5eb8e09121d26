/-!
# UTF-8

Reading a sequence of bytes as UTF-8.  Every byte belongs to a character or to a
fault; a fault covers the longest start of a character that cannot be
completed, or the single byte that starts none.
-/

namespace StyleSieve.Text

/-- Why bytes are no character. -/
inductive Utf8Fault where
  | invalidStart
  | invalidContinuation
  | unexpectedEnd
  deriving DecidableEq, Repr

/-- The wording of a fault. -/
def Utf8Fault.wording : Utf8Fault → String
  | .invalidStart => "invalid start byte"
  | .invalidContinuation => "invalid continuation byte"
  | .unexpectedEnd => "unexpected end of data"

/-- What a character of several bytes needs after its first byte: the number of
bytes, the range of the first of them, and the bits that the first byte adds. -/
structure Utf8Lead where
  count : Nat
  low : Nat
  high : Nat
  bits : Nat

/-- What the first byte of a character of several bytes asks for. -/
def Utf8Lead.ofByte? (byte : Nat) : Option Utf8Lead :=
  if 0xC2 ≤ byte ∧ byte ≤ 0xDF then some ⟨1, 0x80, 0xBF, byte - 0xC0⟩
  else if byte = 0xE0 then some ⟨2, 0xA0, 0xBF, 0⟩
  else if byte = 0xED then some ⟨2, 0x80, 0x9F, 0xD⟩
  else if 0xE1 ≤ byte ∧ byte ≤ 0xEF then some ⟨2, 0x80, 0xBF, byte - 0xE0⟩
  else if byte = 0xF0 then some ⟨3, 0x90, 0xBF, 0⟩
  else if 0xF1 ≤ byte ∧ byte ≤ 0xF3 then some ⟨3, 0x80, 0xBF, byte - 0xF0⟩
  else if byte = 0xF4 then some ⟨3, 0x80, 0x8F, 4⟩
  else none

/-- The bytes that continue a character, at most `count` of them, the first one
from `low` to `high`. -/
def takeTail (low high : Nat) : Nat → List UInt8 → List UInt8
  | 0, _ => []
  | _ + 1, [] => []
  | count + 1, byte :: rest =>
      if low ≤ byte.toNat ∧ byte.toNat ≤ high then byte :: takeTail 0x80 0xBF count rest else []

/-- A character or a fault, with the number of bytes it takes. -/
structure Utf8Piece where
  size : Nat
  content : Except Utf8Fault Char

/-- The piece that a sequence of bytes starts with. -/
def leadingPiece (byte : UInt8) (rest : List UInt8) : Utf8Piece :=
  if byte.toNat < 0x80 then ⟨1, .ok (Char.ofNat byte.toNat)⟩
  else
    match Utf8Lead.ofByte? byte.toNat with
    | none => ⟨1, .error .invalidStart⟩
    | some lead =>
        let tail := takeTail lead.low lead.high lead.count rest
        let content :=
          if tail.length = lead.count then
            .ok (Char.ofNat
              (tail.foldl (fun code byte => 0x40 * code + (byte.toNat - 0x80)) lead.bits))
          else if tail.length = rest.length then .error .unexpectedEnd
          else .error .invalidContinuation
        ⟨tail.length + 1, content⟩

/-- The pieces of a sequence of bytes. -/
def utf8Pieces (bytes : List UInt8) : List Utf8Piece :=
  match bytes with
  | [] => []
  | byte :: rest =>
      let piece := leadingPiece byte rest
      piece :: utf8Pieces (rest.drop (piece.size - 1))
termination_by bytes.length
decreasing_by
  simp only [List.length_drop, List.length_cons]
  omega

/-- Bytes that are not UTF-8: the fault, its place and its bytes. -/
structure Utf8Error where
  fault : Utf8Fault
  position : Nat
  bytes : List UInt8
  deriving DecidableEq, Repr

/-- The lower-case hexadecimal digits of a byte. -/
def hexByte (byte : UInt8) : String :=
  let digits := Nat.toDigits 16 byte.toNat
  String.ofList (List.replicate (2 - digits.length) '0' ++ digits)

/-- The report of an error. -/
def Utf8Error.message (error : Utf8Error) : String :=
  let place :=
    match error.bytes with
    | [byte] => "byte 0x" ++ hexByte byte ++ " in position " ++ toString error.position
    | bytes =>
        "bytes in position " ++ toString error.position ++ "-" ++
          toString (error.position + bytes.length - 1)
  "'utf-8' codec can't decode " ++ place ++ ": " ++ error.fault.wording

/-- The characters of pieces that start `position` bytes into a sequence, or the
first fault. -/
def charsOfPieces (bytes : List UInt8) (position : Nat) :
    List Utf8Piece → Except Utf8Error (List Char)
  | [] => .ok []
  | piece :: rest =>
      match piece.content with
      | .ok c => (charsOfPieces bytes (position + piece.size) rest).map (c :: ·)
      | .error fault => .error ⟨fault, position, (bytes.drop position).take piece.size⟩

/-- The text that bytes spell in UTF-8. -/
def decodeUtf8 (bytes : List UInt8) : Except Utf8Error String :=
  (charsOfPieces bytes 0 (utf8Pieces bytes)).map String.ofList

/-- The text that bytes spell in UTF-8, with a replacement character for every
fault. -/
def decodeUtf8Lossy (bytes : List UInt8) : String :=
  String.ofList ((utf8Pieces bytes).map fun piece => piece.content.toOption.getD '\uFFFD')

/-- The bytes of a text in UTF-8. -/
def encodeUtf8 (text : String) : List UInt8 :=
  text.toUTF8.toList

end StyleSieve.Text
