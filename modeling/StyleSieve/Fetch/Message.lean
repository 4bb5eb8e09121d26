import StyleSieve.Css.Name
import StyleSieve.Text.Encoding
import StyleSieve.Text.Split
import StyleSieve.Text.Blank

/-!
# Requests and responses

What is sent to a network, and what comes back.  The names of header fields are
compared without regard to case, and a field that is given several times has
all its values, with commas between them.
-/

namespace StyleSieve.Fetch

/-- Header fields, in order: names with values. -/
abbrev Headers := List (String × String)

namespace Headers

/-- The fields with one more; one with exactly the same name gives way to it. -/
def set (headers : Headers) (name value : String) : Headers :=
  if headers.any (·.1 == name) then
    headers.map fun field => if field.1 == name then (name, value) else field
  else headers ++ [(name, value)]

/-- Whether two names are the same but for case. -/
def sameName (first second : String) : Bool :=
  Css.lowerAscii first.toList == Css.lowerAscii second.toList

/-- The value of a field, if it is there. -/
def get? (headers : Headers) (name : String) : Option String :=
  match (headers.filter fun field => sameName field.1 name).map (·.2) with
  | [] => none
  | values => some (", ".intercalate values)

/-- Whether the fields can be sent: they are in ASCII. -/
def areAscii (headers : Headers) : Bool :=
  headers.all fun field => (field.1 ++ field.2).toList.all (·.toNat < 0x80)

end Headers

/-- A request for the text at an address. -/
structure Request where
  address : String
  headers : Headers
  deriving DecidableEq, Repr

/-- A response to a request. -/
structure Response where
  status : Nat := 200
  headers : Headers := []
  body : List UInt8 := []
  deriving DecidableEq, Repr

/-- What may go wrong between a request and its response. -/
inductive Trouble where
  | connectTimeout
  | readTimeout
  | writeTimeout
  | poolTimeout
  | anyTimeout
  | connectError
  | readError
  | writeError
  | closeError
  | networkError
  | localProtocolError
  | remoteProtocolError
  | protocolError
  | proxyError
  | unsupportedProtocol
  | transportError
  | decodingError
  | tooManyRedirects
  | requestError
  | unnamed
  deriving DecidableEq, Repr

/-- Whether a trouble is that too much time went by. -/
def Trouble.isTimeout : Trouble → Bool
  | .connectTimeout | .readTimeout | .writeTimeout | .poolTimeout | .anyTimeout => true
  | _ => false

/-- The parts of a header value between its semicolons; a semicolon between
quotes does not count. -/
def splitParameters (quoted : Bool) : List Char → List (List Char)
  | [] => [[]]
  | c :: rest =>
      if c = ';' ∧ quoted = false then [] :: splitParameters false rest
      else
        match splitParameters (if c = '"' then !quoted else quoted) rest with
        | part :: parts => (c :: part) :: parts
        | [] => [[c]]

/-- The value of a parameter without quotes around it. -/
def unquoted (value : List Char) : List Char :=
  if 1 < value.length ∧ value.head? = some '"' ∧ value.getLast? = some '"' then
    plain ((value.drop 1).dropLast)
  else if 1 < value.length ∧ value.head? = some '<' ∧ value.getLast? = some '>' then
    (value.drop 1).dropLast
  else value
where
  /-- A quoted text without the backslashes that protect its characters. -/
  plain : List Char → List Char
    | '\\' :: c :: rest => if c = '\\' ∨ c = '"' then c :: plain rest else '\\' :: plain (c :: rest)
    | c :: rest => c :: plain rest
    | [] => []

namespace Response

/-- The name of the encoding that a response says its body is in. -/
def charset? (response : Response) : Option String :=
  (response.headers.get? "Content-Type").bind fun kind =>
    ((splitParameters false kind.toList).drop 1).findSome? fun parameter =>
      match Text.cutAt (· == '=') parameter with
      | (name, some value) =>
          if Css.lowerAscii (Text.trim name) = "charset".toList then
            some (String.ofList (Css.lowerAscii (unquoted (Text.trim value))))
          else none
      | _ => none

/-- The names of the codings that a response says its body is in, in the order
in which they were put on. -/
def codings (response : Response) : List String :=
  ((response.headers.get? "Content-Encoding").map fun names =>
    (Text.splitAtChar ',' names.toList).map fun name =>
      String.ofList (Css.lowerAscii (Text.trim name))).getD []

/-- The place that a response says to look at instead. -/
def redirection? (response : Response) : Option String :=
  if [301, 302, 303, 307, 308].contains response.status then response.headers.get? "Location"
  else none

end Response

/-- What is known by name of the ways in which texts are sent as bytes: codings
of contents, which are taken off or leave a report, and character sets, whose
codec gives a text or ends in an error of some kind. -/
structure Codecs where
  coding? : String → Option (List UInt8 → Except String (List UInt8))
  charset? : String → Option (List UInt8 → Except String String)

namespace Codecs

/-- The content of a response: its body without the codings that are known, of
which the last one is taken off first. -/
def content (codecs : Codecs) (response : Response) : Except String (List UInt8) :=
  (response.codings.filterMap codecs.coding?).reverse.foldlM (fun bytes decode => decode bytes)
    response.body

/-- The text that the content of a response spells in the character set that it
names, or in UTF-8 if it names none that is known. -/
def text (codecs : Codecs) (response : Response) (content : List UInt8) :
    Except String String :=
  if content.isEmpty then .ok ""
  else
    match response.charset?.bind codecs.charset? with
    | some decode => decode content
    | none => .ok (Text.decodeUtf8Lossy content)

end Codecs

/-- Codecs that give no text, by name, with the kinds of errors that they end
in. -/
def textlessCodecs : List (String × String) :=
  ["base64", "base-64", "base64-codec", "hex", "hex-codec", "bz2", "bz2-codec", "zip", "zlib",
      "zlib-codec", "quopri", "quopri-codec", "quoted-printable", "quotedprintable", "uu",
      "uu-codec"].map (·, "AssertionError") ++
    [("rot13", "TypeError"), ("rot-13", "TypeError"), ("undefined", "UnicodeError"),
      ("idna", "UnicodeError")]

/-- Contents as they are, and the encodings that are known by name. -/
def plainCodecs : Codecs where
  coding? name := if name = "identity" then some .ok else none
  charset? name :=
    match textlessCodecs.lookup (Text.Encoding.plainName name) with
    | some kind => some fun _ => .error kind
    | none => (Text.Encoding.ofName? name).map fun encoding bytes => .ok (encoding.decode bytes)

end StyleSieve.Fetch
