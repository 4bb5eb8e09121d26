import StyleSieve.Css.Name
import StyleSieve.Fetch.Punycode
import StyleSieve.Text.LetterCase
import StyleSieve.Text.Letters
import StyleSieve.Text.Split

/-!
# Host names

The host that a request is sent to is named by a number or by labels.  In
canonical form it is lower-case ASCII.
-/

namespace StyleSieve.Fetch

/-- Why a text names no host. -/
inductive HostError where
  | noIpv4 (host : String)
  | noIpv6 (host : String)
  | noLabels (host : String)
  deriving DecidableEq, Repr

/-- A text percent-encoded: each character that is not safe is written as the
bytes it has in UTF-8. -/
def percentEncode (isSafe : Char → Bool) (text : List Char) : List Char :=
  text.flatMap fun c =>
    if isSafe c then [c]
    else
      c.toString.toUTF8.toList.flatMap fun byte =>
        let digits := (Nat.toDigits 16 byte.toNat).map Char.toUpper
        '%' :: (List.replicate (2 - digits.length) '0' ++ digits)

/-- Whether a host has the look of four numbers with a sign after each of the
first three; a sign may be a digit, too. -/
def looksLikeIpv4 (host : List Char) : Bool :=
  let runs := runsOf host
  runs.all (· ≠ []) && runs.length ≤ 4 &&
    4 ≤ runs.foldl (fun count run => count + 1 + (run.length - 1) / 2) 0
where
  /-- The runs of digits between the other characters. -/
  runsOf : List Char → List (List Char)
    | [] => [[]]
    | c :: rest =>
        match runsOf rest with
        | run :: runs => if c.isDigit then (c :: run) :: runs else [] :: run :: runs
        | [] => [[c]]

/-- Whether a text is a number below 256 in decimal digits. -/
def isOctet (text : List Char) : Bool :=
  text ≠ [] && text.all Char.isDigit && text.length ≤ 3 &&
    (text = ['0'] || text.head? ≠ some '0') &&
    text.foldl (fun value c => 10 * value + (c.toNat - 48)) 0 < 256

/-- Whether a text is an address of four octets. -/
def isIpv4 (text : List Char) : Bool :=
  let octets := Text.splitAtChar '.' text
  octets.length = 4 && octets.all isOctet

/-- The parts of an address between its colons, where four octets at the end
stand for two parts. -/
def ipv6Parts? (address : List Char) : Option (List (List Char)) :=
  let parts := Text.splitAtChar ':' address
  let last := (parts.getLast?).getD []
  if parts.length < 3 then none
  else if last.contains '.' then
    if isIpv4 last then some (parts.dropLast ++ [['0'], ['0']]) else none
  else some parts

/-- Whether a text is an address of eight parts, of which two colons in a row
may leave out some. -/
def isIpv6 (text : List Char) : Bool :=
  let (address, scope) := Text.cutAt (· == '%') text
  let scopeFits :=
    match scope with
    | none => true
    | some name => name ≠ [] && !name.contains '%'
  let isPart := fun (part : List Char) => part.length ≤ 4 && part.all Css.isHexDigit
  match ipv6Parts? address with
  | none => false
  | some parts =>
      let inner := (parts.drop 1).dropLast
      let gaps := inner.count []
      let filled := (parts.filter (· ≠ [])).length
      scopeFits && parts.length ≤ 9 && parts.all isPart &&
        if gaps = 0 then parts.length = 8 && filled = 8
        else
          gaps = 1 && filled ≤ 7 &&
            (parts.head? ≠ some [] || inner.head? = some []) &&
            (parts.getLast? ≠ some [] || inner.getLast? = some [])

/-- Whether a character of a label outside ASCII may be used. -/
def isLabelLetter (c : Char) : Bool :=
  Text.isAlphanumeric c && Text.toLower c == c

/-- The form of a label in ASCII, if it is one: letters, digits and dashes, no
dash at an end, no two dashes after two characters. -/
def asciiLabel? (label : List Char) : Option (List Char) :=
  let dashed := label.head? = some '-' || label.getLast? = some '-' ||
    (label.drop 2).take 2 = ['-', '-']
  let ascii :=
    if label.all (·.toNat < 0x80) then label
    else ['x', 'n', '-', '-'] ++ Punycode.encode label
  if label = [] || dashed || ascii.length > 63 || !label.all (fun c => isLabelLetter c || c == '-')
  then none
  else some ascii

/-- The form in ASCII of a name made of labels; a dot may end it. -/
def asciiName? (name : List Char) : Option (List Char) :=
  let isDot := fun c => c == '.' || c == '\u3002' || c == '\uff0e' || c == '\uff61'
  let labels := Text.splitAtChar '.' (name.map fun c => if isDot c then '.' else c)
  let inner := if labels.getLast? = some [] then labels.dropLast else labels
  match inner.mapM asciiLabel? with
  | none => none
  | some [] => none
  | some written =>
      some (Text.joinWith '.' (written ++ if inner.length < labels.length then [[]] else []))

/-- The characters of a name in ASCII that are written as they are. -/
def isSafeInName (c : Char) : Bool :=
  c.isAlphanum || "-._~!$&'()*+,;=\"\x60\x7b\x7d%|\\".toList.contains c

/-- The canonical form of the name of a host. -/
def canonicalHost (host : List Char) : Except HostError (List Char) :=
  if host = [] then .ok []
  else if looksLikeIpv4 host then
    if isIpv4 host then .ok host else .error (.noIpv4 (String.ofList host))
  else if host.head? = some '[' ∧ host.getLast? = some ']' then
    let address := (host.drop 1).dropLast
    if isIpv6 address then .ok address else .error (.noIpv6 (String.ofList host))
  else if host.all (·.toNat < 0x80) then
    .ok (percentEncode isSafeInName (Css.lowerAscii host))
  else
    match asciiName? (Text.lowercase host) with
    | some name => .ok name
    | none => .error (.noLabels (String.ofList host))

end StyleSieve.Fetch
