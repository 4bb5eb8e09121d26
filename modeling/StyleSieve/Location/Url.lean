import StyleSieve.Css.Name
import StyleSieve.Text.Split

/-!
# Addresses

An address has a scheme, a host with what belongs to it, a path with
parameters, a query and a fragment; each of them may be empty.  A reference is
joined onto an address by taking from the address what the reference leaves
out.
-/

namespace StyleSieve.Location

/-- The parts of an address. -/
structure Url where
  scheme : List Char := []
  host : List Char := []
  path : List Char := []
  params : List Char := []
  query : List Char := []
  fragment : List Char := []
  deriving DecidableEq, Repr

/-- Why a text is no address. -/
inductive UrlError where
  | unpairedBracket
  | deceptiveHost (host : String)
  deriving DecidableEq, Repr

/-- The wording of the error. -/
def UrlError.message : UrlError → String
  | .unpairedBracket => "Invalid IPv6 URL"
  | .deceptiveHost host =>
      "netloc '" ++ host ++ "' contains invalid characters under NFKC normalization"

/-- The schemes whose addresses allow references without a scheme. -/
def relativeSchemes : List String :=
  ["", "ftp", "http", "gopher", "nntp", "imap", "wais", "file", "https", "shttp", "mms",
   "prospero", "rtsp", "rtsps", "rtspu", "sftp", "svn", "svn+ssh", "ws", "wss"]

/-- The schemes whose addresses name a host. -/
def hostSchemes : List String :=
  ["", "ftp", "http", "gopher", "nntp", "telnet", "imap", "wais", "file", "mms", "https",
   "shttp", "snews", "prospero", "rtsp", "rtsps", "rtspu", "rsync", "svn", "svn+ssh", "sftp",
   "nfs", "git", "git+ssh", "ws", "wss"]

/-- The schemes whose last path segment may have parameters. -/
def paramSchemes : List String :=
  ["", "ftp", "hdl", "prospero", "http", "imap", "https", "shttp", "rtsp", "rtsps", "rtspu",
   "sip", "sips", "mms", "sftp", "tel"]

/-- Whether a scheme is in a list. -/
def isAmong (scheme : List Char) (schemes : List String) : Bool :=
  schemes.contains (String.ofList scheme)

/-- Whether a character may stand in a scheme. -/
def isSchemeChar (c : Char) : Bool :=
  c.isAlphanum || c == '+' || c == '-' || c == '.'

/-- The scheme that a text starts with, in lower case, and the text after its
colon. -/
def takeScheme? (text : List Char) : Option (List Char × List Char) :=
  match Text.cutAt (· == ':') text with
  | (c :: more, some after) =>
      if c.isAlpha && more.all isSchemeChar then some (Css.lowerAscii (c :: more), after) else none
  | _ => none

/-- The code points that stand for text with a delimiter of addresses in it. -/
def deceptiveCodes : List Nat :=
  [0x2047, 0x2048, 0x2049, 0x2100, 0x2101, 0x2105, 0x2106, 0x2A74, 0xFE13, 0xFE16, 0xFE55,
   0xFE56, 0xFE5F, 0xFE6B, 0xFF03, 0xFF0F, 0xFF1A, 0xFF1F, 0xFF20]

/-- Refuses a host with an unpaired bracket or a deceptive character. -/
def checkHost (host : List Char) : Except UrlError Unit :=
  if host.contains '[' != host.contains ']' then .error .unpairedBracket
  else if host.any fun c => deceptiveCodes.contains c.toNat then
    .error (.deceptiveHost (String.ofList host))
  else .ok ()

/-- The path and the parameters after the first semicolon of its last segment. -/
def splitParams (path : List Char) : List Char × List Char :=
  let segment := (path.reverse.takeWhile (· ≠ '/')).reverse
  let before := path.take (path.length - segment.length)
  match Text.cutAt (· == ';') segment with
  | (_, none) => (path, [])
  | (name, some params) => (before ++ name, params)

namespace Url

/-- The characters of a text that count when it is read as an address: blanks
and controls in front, and tabs and line breaks anywhere, are ignored. -/
def significantChars (text : List Char) : List Char :=
  (text.dropWhile fun c => c.toNat ≤ 0x20).filter fun c => c ≠ '\t' ∧ c ≠ '\r' ∧ c ≠ '\n'

/-- The address that a text spells, where `scheme` stands for a scheme that is
left out. -/
def parse (source : List Char) (scheme : List Char := []) : Except UrlError Url :=
  let text := significantChars source
  let (scheme, afterScheme) := (takeScheme? text).getD (scheme, text)
  let (host, afterHost) :=
    match afterScheme with
    | '/' :: '/' :: rest =>
        let ends := fun (c : Char) => c == '/' || c == '?' || c == '#'
        (rest.takeWhile (!ends ·), rest.dropWhile (!ends ·))
    | _ => ([], afterScheme)
  let (beforeFragment, fragment) := Text.cutAt (· == '#') afterHost
  let (whole, query) := Text.cutAt (· == '?') beforeFragment
  let (path, params) :=
    if isAmong scheme paramSchemes then splitParams whole else (whole, [])
  (checkHost host).map fun _ =>
    { scheme, host, path, params, query := query.getD [], fragment := fragment.getD [] }

/-- The text of an address.  A host is written, even if it is empty, where the
scheme asks for one or the path starts with two slashes. -/
def write (url : Url) : List Char :=
  let path := if url.params = [] then url.path else url.path ++ ';' :: url.params
  let withHost :=
    if url.host ≠ [] ∨ (url.scheme ≠ [] ∧ isAmong url.scheme hostSchemes = true) ∨
        path.take 2 = ['/', '/'] then
      '/' :: '/' :: (url.host ++
        if path ≠ [] ∧ path.head? ≠ some '/' then '/' :: path else path)
    else path
  (if url.scheme = [] then [] else url.scheme ++ [':']) ++ withHost ++
    (if url.query = [] then [] else '?' :: url.query) ++
    (if url.fragment = [] then [] else '#' :: url.fragment)

/-- The segments of a path, last one first, after one more has been followed. -/
def followSegment (segments : List (List Char)) (segment : List Char) : List (List Char) :=
  if segment = ['.', '.'] then segments.drop 1
  else if segment = ['.'] then segments
  else segment :: segments

/-- The path that a path which is not empty leads to from another one. -/
def joinPath (base path : List Char) : List Char :=
  let parts := Text.splitAtChar '/' path
  let segments :=
    if path.head? = some '/' then parts
    else
      let baseParts := Text.splitAtChar '/' base
      let directory := if baseParts.getLast? = some [] then baseParts else baseParts.dropLast
      let all := directory ++ parts
      all.take 1 ++ ((all.drop 1).dropLast).filter (· ≠ []) ++ (all.drop 1).getLast?.toList
  let followed := (segments.foldl followSegment []).reverse
  let last := segments.getLast?
  let closed :=
    if last = some ['.'] ∨ last = some ['.', '.'] then followed ++ [[]] else followed
  match Text.joinWith '/' closed with
  | [] => ['/']
  | c :: rest => c :: rest

/-- The text of the address that a reference leads to from an address. -/
def join (base reference : List Char) : Except UrlError (List Char) := do
  if base = [] then return reference
  if reference = [] then return base
  let origin ← parse base
  let target ← parse reference origin.scheme
  if target.scheme ≠ origin.scheme ∨ isAmong target.scheme relativeSchemes = false then
    return reference
  if isAmong target.scheme hostSchemes ∧ target.host ≠ [] then return target.write
  let host := if isAmong target.scheme hostSchemes then origin.host else target.host
  if target.path = [] ∧ target.params = [] then
    return write { target with
      host, path := origin.path, params := origin.params,
      query := if target.query = [] then origin.query else target.query }
  return write { target with host, path := joinPath origin.path target.path }

end Url

end StyleSieve.Location
