import StyleSieve.Fetch.HostName
import StyleSieve.Location.Url
import StyleSieve.Text.Quoted
import StyleSieve.Text.Utf8

/-!
# Targets of requests

The address that a request is sent to, in canonical form: in ASCII, without the
port that belongs to the scheme, and without dots for directories.
-/

namespace StyleSieve.Fetch

/-- Why a text is no address for requests. -/
inductive TargetError where
  | tooLong
  | unprintable (c : Char) (position : Nat)
  | host (error : HostError)
  | port (text : String)
  | pathBesideHost
  | doubleSlash
  | leadingColon
  deriving DecidableEq, Repr

/-- The wording of the error. -/
def TargetError.message : TargetError → String
  | .tooLong => "URL too long"
  | .unprintable c position =>
      "Invalid non-printable ASCII character in URL, " ++ Text.quoted c.toString ++
        " at position " ++ toString position ++ "."
  | .host (.noIpv4 name) => "Invalid IPv4 address: " ++ Text.quoted name
  | .host (.noIpv6 name) => "Invalid IPv6 address: " ++ Text.quoted name
  | .host (.noLabels name) => "Invalid IDNA hostname: " ++ Text.quoted name
  | .port spelling => "Invalid port: " ++ Text.quoted spelling
  | .pathBesideHost => "For absolute URLs, path must be empty or begin with '/'"
  | .doubleSlash => "Relative URLs cannot have a path starting with '//'"
  | .leadingColon => "Relative URLs cannot have a path starting with ':'"

/-- An address for requests.  A query or a fragment may be there and be
empty. -/
structure Target where
  scheme : List Char := []
  user : List Char := []
  host : List Char := []
  port : Option Nat := none
  path : List Char := []
  query : Option (List Char) := none
  fragment : Option (List Char) := none
  deriving DecidableEq, Repr

/-- Whether a character is one of ASCII that can be seen, a blank included. -/
def isPrintableAscii (c : Char) : Bool :=
  0x20 ≤ c.toNat && c.toNat < 0x7F

/-- Whether a character of an address is written as it is, where some printable
characters are not. -/
def isSafeExcept (excluded : String) (c : Char) : Bool :=
  isPrintableAscii c && !excluded.toList.contains c

/-- Whether a character may stand in the name of a user. -/
def isSafeInUser : Char → Bool := isSafeExcept " \"#<>?\x60\x7b\x7d/;=@[\\]^|"

/-- Whether a character may stand in a path. -/
def isSafeInPath : Char → Bool := isSafeExcept " \"#<>?\x60\x7b\x7d"

/-- Whether a character may stand in a query. -/
def isSafeInQuery : Char → Bool := isSafeExcept " \"#<>"

/-- Whether a character may stand in a fragment. -/
def isSafeInFragment : Char → Bool := isSafeExcept " \"<>\x60"

/-- The port that addresses with a scheme have unless they name one. -/
def usualPort? (scheme : List Char) : Option Nat :=
  [("ftp", 21), ("http", 80), ("https", 443), ("ws", 80), ("wss", 443)].lookup
    (String.ofList scheme)

/-- The port that a text names, if it is not the usual one of the scheme. -/
def canonicalPort (scheme : List Char) (text : List Char) : Except TargetError (Option Nat) :=
  if text = [] then .ok none
  else if text.all Char.isDigit then
    let port := text.foldl (fun value c => 10 * value + (c.toNat - 48)) 0
    .ok (if usualPort? scheme = some port then none else some port)
  else .error (.port (String.ofList text))

/-- The segments of a path, last one first, after one more has been followed.
The root is not left. -/
def followSegment (segments : List (List Char)) (segment : List Char) : List (List Char) :=
  if segment = ['.'] then segments
  else if segment = ['.', '.'] then if segments = [[]] then segments else segments.drop 1
  else segment :: segments

/-- A path without dots for directories. -/
def plainPath (path : List Char) : List Char :=
  Text.joinWith '/' ((Text.splitAtChar '/' path).foldl followSegment []).reverse

/-- The parts of what stands between the slashes and the path: the user, the
host and the port. -/
def splitAuthority (authority : List Char) : List Char × List Char × List Char :=
  let place := (authority.reverse.takeWhile (· ≠ '@')).reverse
  let user := (authority.take (authority.length - place.length)).dropLast
  let numeric := (place.reverse.dropWhile (· ≠ ']')).reverse
  let host :=
    if place.head? = some '[' ∧ numeric ≠ [] then numeric else place.takeWhile (· ≠ ':')
  let rest := place.drop host.length
  (user, host, if rest.head? = some ':' then rest.drop 1 else rest)

namespace Target

/-- The canonical form of an address that is given by its parts. -/
def ofParts (scheme user host port path : List Char) (query fragment : Option (List Char)) :
    Except TargetError Target := do
  let host ← (canonicalHost host).mapError .host
  let port ← canonicalPort scheme port
  let user := percentEncode isSafeInUser user
  let hasPlace := user ≠ [] || host ≠ [] || port.isSome
  if hasPlace && path ≠ [] && path.head? ≠ some '/' then throw .pathBesideHost
  if scheme = [] && !hasPlace && path.take 2 = ['/', '/'] then throw .doubleSlash
  if scheme = [] && !hasPlace && path.head? = some ':' then throw .leadingColon
  let path := if scheme ≠ [] || hasPlace then plainPath path else path
  return {
    scheme := Css.lowerAscii scheme
    user, host, port
    path := percentEncode isSafeInPath path
    query := query.map (percentEncode isSafeInQuery)
    fragment := fragment.map (percentEncode isSafeInFragment) }

/-- The scheme that a text starts with, and the text after its colon.  Before a
colon the scheme may be empty. -/
def takeScheme (text : List Char) : List Char × List Char :=
  match Text.cutAt (· == ':') text with
  | ([], some after) => ([], after)
  | (c :: more, some after) =>
      if c.isAlpha && more.all Location.isSchemeChar then (c :: more, after) else ([], text)
  | _ => ([], text)

/-- The address that a text spells. -/
def parse (text : List Char) : Except TargetError Target :=
  if text.length > 65536 then .error .tooLong
  else
    match text.findIdx? fun c => c.toNat < 0x80 && !isPrintableAscii c with
    | some position => .error (.unprintable (text.getD position ' ') position)
    | none =>
        let (scheme, afterScheme) := takeScheme text
        let (authority, afterPlace) :=
          match afterScheme with
          | '/' :: '/' :: rest =>
              let ends := fun (c : Char) => c == '/' || c == '?' || c == '#'
              (rest.takeWhile (!ends ·), rest.dropWhile (!ends ·))
          | _ => ([], afterScheme)
        let (beforeFragment, fragment) := Text.cutAt (· == '#') afterPlace
        let (path, query) := Text.cutAt (· == '?') beforeFragment
        let (user, host, port) := splitAuthority authority
        ofParts scheme user host port path query fragment

/-- The text of an address. -/
def write (target : Target) : List Char :=
  let host := if target.host.contains ':' then '[' :: target.host ++ [']'] else target.host
  let place :=
    (if target.user = [] then [] else target.user ++ ['@']) ++ host ++
      (match target.port with
      | none => []
      | some port => ':' :: Nat.toDigits 10 port)
  (if target.scheme = [] then [] else target.scheme ++ [':']) ++
    (if place = [] then [] else '/' :: '/' :: place) ++ target.path ++
    ((target.query.map ('?' :: ·)).getD []) ++ ((target.fragment.map ('#' :: ·)).getD [])

/-- Whether an address says by itself where a request goes. -/
def isAbsolute (target : Target) : Bool :=
  target.scheme ≠ [] && target.host ≠ []

/-- The address that is used for one that does not say where a request goes: its
path from the root, and its query. -/
def rooted (target : Target) : Target :=
  if target.isAbsolute then target
  else { path := '/' :: target.path.dropWhile (· == '/'), query := target.query }

/-- The bytes that a text stands for in which bytes are percent-encoded. -/
def percentDecode : List Char → List UInt8
  | '%' :: high :: low :: rest =>
      if Css.isHexDigit high && Css.isHexDigit low then
        UInt8.ofNat (16 * Css.hexDigitValue high + Css.hexDigitValue low) :: percentDecode rest
      else Text.encodeUtf8 "%" ++ percentDecode (high :: low :: rest)
  | c :: rest => Text.encodeUtf8 c.toString ++ percentDecode rest
  | [] => []

/-- The target with the fragment of an earlier one, unless it has its own. -/
def keepFragment (target earlier : Target) : Except TargetError Target :=
  let decoded := Text.decodeUtf8Lossy (percentDecode (earlier.fragment.getD []))
  if decoded = "" ∨ target.fragment.getD [] ≠ [] then .ok target
  else
    match decoded.toList.findIdx? fun c => c.toNat < 0x80 && !isPrintableAscii c with
    | some position => .error (.unprintable (decoded.toList.getD position ' ') position)
    | none =>
        .ok { target with fragment := some (percentEncode isSafeInFragment decoded.toList) }

/-- The target with the host of an earlier one, if it has a scheme and no
host. -/
def keepHost (target earlier : Target) : Except TargetError Target :=
  if target.scheme ≠ [] ∧ target.host = [] then
    ofParts target.scheme [] earlier.host [] target.path target.query target.fragment
  else .ok target

end Target

end StyleSieve.Fetch
