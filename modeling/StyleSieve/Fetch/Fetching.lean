import StyleSieve.Fetch.Failure
import StyleSieve.Location.Resolve
import StyleSieve.Text.Blank
import StyleSieve.Usage.Schedule

/-!
# Fetching texts

The text at a location is read from a file or requested from a network.
Redirections are followed, up to a limit.  All that is done is told, whether it
succeeds or not.
-/

namespace StyleSieve.Fetch

/-- What a network answers to a request. -/
inductive Reply where
  | response (response : Response)
  | trouble (kind : Trouble) (text : String)
  | defect (defect : Defect)
  deriving DecidableEq, Repr

/-- The replies of a network to requests for addresses. -/
abbrev Network := String → Reply

/-- The network that cannot be reached. -/
def offline : Network := fun address =>
  match Target.parse address.toList with
  | .error _ => .defect .invalidAddress
  | .ok target =>
      let scheme := String.ofList target.scheme
      if scheme = "" then
        .trouble .unsupportedProtocol
          "Request URL is missing an 'http://' or 'https://' protocol."
      else if scheme = "http" ∨ scheme = "https" then
        .trouble .connectError "[Errno -3] Temporary failure in name resolution"
      else
        .trouble .unsupportedProtocol
          ("Request URL has an unsupported protocol '" ++ scheme ++ "://'.")

/-- Where texts are fetched from: the path of the working directory, the files,
the network, and what is known of the ways in which texts are sent. -/
structure World where
  directory : String
  files : Files
  network : Network
  codecs : Codecs := plainCodecs

/-- Who sends requests: the name it gives, and further header fields. -/
structure Client where
  userAgent : String := "csstrim"
  headers : Headers := []
  deriving DecidableEq, Repr

/-- The header fields of the requests of a client. -/
def Client.requestHeaders (client : Client) : Headers :=
  client.headers.foldl (fun headers field => headers.set field.1 field.2)
    [("User-Agent", client.userAgent)]

/-- What is done to get a text: a request is sent, or a file is read. -/
inductive Act where
  | send (request : Request)
  | read (location : String)
  deriving DecidableEq, Repr

/-- The request that is sent, if one is. -/
def Act.request? : Act → Option Request
  | .send request => some request
  | .read _ => none

/-- What came out of fetching, and what was done. -/
structure Fetched (α : Type) where
  outcome : Except Failure α
  acts : List Act

/-- The requests that were sent. -/
def Fetched.requests {α : Type} (fetched : Fetched α) : List Request :=
  fetched.acts.filterMap Act.request?

/-- The largest number of redirections that are followed. -/
def redirectionLimit : Nat := 20

/-- What a network answers about a target.  A response to a request that does
not say where it goes cannot be used, nor can one with header fields that are
not in ASCII. -/
def ask (network : Network) (target : Target) : Reply :=
  let address := String.ofList target.write
  match network address with
  | .response response =>
      if !response.headers.areAscii then .defect .unsendableHeader
      else if target.scheme = [] then .defect (.undirected address)
      else .response response
  | other => other

/-- Where a redirection leads to from a target. -/
def redirected (target : Target) (place : String) : Except Reply Target := do
  let next ← (Target.parse place.toList).mapError fun error =>
    .trouble .remoteProtocolError ("Invalid URL in location header: " ++ error.message ++ ".")
  let next ← (next.keepHost target).mapError fun _ => .defect .invalidAddress
  let next ←
    if next.isAbsolute then pure next
    else
      match Location.Url.join target.write next.write with
      | .error _ => throw (.defect .invalidAddress)
      | .ok joined => (Target.parse joined).mapError fun _ => .defect .invalidAddress
  (next.keepFragment target).mapError fun _ => .defect .invalidAddress

/-- A response read to its content. -/
def readContent (codecs : Codecs) (response : Response) : Except Reply Response :=
  match codecs.content response with
  | .ok content => .ok { response with body := content }
  | .error report => .error (.trouble .decodingError report)

/-- What follows a request for a target: one for another target, or the end of the exchange. -/
def visit (world : World) (target : Target) : Except Reply Target :=
  match ask world.network target with
  | .response response =>
      match response.redirection? with
      | none => do throw (.response (← readContent world.codecs response))
      | some place => do
          let next ← redirected target place
          let _ ← readContent world.codecs response
          return next
  | other => .error other

/-- How a request for a target ends after at most `remaining` redirections, and
the addresses that are asked for. -/
def exchange (world : World) : Nat → Target → Reply × List String
  | remaining, target =>
      let address := String.ofList target.write
      match visit world target, remaining with
      | .error ending, _ => (ending, [address])
      | .ok _, 0 => (.trouble .tooManyRedirects "Exceeded maximum allowed redirects.", [address])
      | .ok next, remaining + 1 =>
          let later := exchange world remaining next
          (later.1, address :: later.2)

/-- The text of a response to a request for a location, by its content. -/
def textOf (codecs : Codecs) (location : String) (ending : Reply) : Except Failure String :=
  match ending with
  | .response response =>
      if response.status ≥ 400 then .error (.unavailable ⟨location, .status response.status⟩)
      else (codecs.text response response.body).mapError fun kind => .defect (.unspellable kind)
  | .trouble kind text => .error (.unavailable ⟨location, .trouble kind text⟩)
  | .defect defect => .error (.defect defect)

namespace Client

/-- The text at an address of a network. -/
def request (client : Client) (world : World) (location : String) : Fetched String :=
  let headers := client.requestHeaders
  if !headers.areAscii then ⟨.error (.defect .unsendableHeader), []⟩
  else
    match Target.parse location.toList with
    | .error _ => ⟨.error (.defect .invalidAddress), []⟩
    | .ok target =>
        let exchanged := exchange world redirectionLimit target.rooted
        ⟨textOf world.codecs location exchanged.1,
          exchanged.2.map fun address => .send ⟨address, headers⟩⟩

end Client

/-- The text of the bytes of a file, which must be UTF-8, its line ends made plain. -/
def fileText (location : String) (content : List UInt8) : Except Failure String :=
  match Text.decodeUtf8 content with
  | .ok text => .ok (Text.withPlainLineEnds text)
  | .error error => .error (.unavailable ⟨location, .undecodable error⟩)

/-- The text in a file. -/
def readFile (world : World) (location : String) : Except Failure String :=
  match world.files (tidyPath location) with
  | .file content | .fixedFile content => fileText location content
  | .closedFile => .error (.unavailable ⟨location, .closed (tidyPath location)⟩)
  | .closedParent => .error (.defect .closedParent)
  | .nameTooLong => .error (.defect .nameTooLong)
  | _ =>
      .error (.unavailable ⟨location, .unopened (String.ofList (Location.normalPath
        (Location.joinPaths world.directory.toList location.toList)))⟩)

/-- The text at a location. -/
def fetch (world : World) (client : Client) (location : String) : Fetched String :=
  if Location.isUrl location then client.request world location
  else ⟨readFile world location, [.read location]⟩

/-- The task of fetching the text at a location.  It never waits, so all of it
is done in its first turn. -/
def fetchTask (world : World) (client : Client) (location : String) :
    Usage.Task (List Act) Failure String := fun done =>
  let fetched := fetch world client location
  (⟨0, fetched.outcome⟩, done ++ fetched.acts)

/-- The texts at some locations, fetched side by side. -/
def fetchAll (world : World) (client : Client) (locations : List String) :
    Fetched (List String) :=
  let gathered := Usage.gatherTasks (locations.map (fetchTask world client)) []
  ⟨gathered.1, gathered.2⟩

end StyleSieve.Fetch
