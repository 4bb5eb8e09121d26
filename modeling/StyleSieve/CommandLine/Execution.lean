import StyleSieve.CommandLine.Command
import StyleSieve.CommandLine.Console
import StyleSieve.Run.Reduction

/-!
# Carrying out commands

What a program prints and writes, and the status it ends with.  The status is 2
after misuse, and 1 after any other failure; a failure that has no report ends
the program without a word.
-/

namespace StyleSieve.CommandLine

/-- A failure that has no report: of a run, of an address, of a file that cannot
be written, of a text that cannot be written in bytes, or of a path. -/
inductive Breakdown where
  | run (failure : Run.Failure)
  | address (error : Location.UrlError)
  | write (error : Fetch.WriteError)
  | encoding
  | path

/-- A file with its text. -/
structure Written where
  path : String
  text : String
  deriving DecidableEq, Repr

/-- What a program has done at its end: its status, what it printed as output
and as messages, the file it wrote, and the failure that it has not
reported. -/
structure Outcome where
  status : Nat := 0
  output : String := ""
  messages : String := ""
  written : Option Written := none
  breakdown : Option Breakdown := none

/-- The version of the program. -/
def versionLine : String := "csstrim, version 0.1.0\n"

/-- The lines of a log for some notes, if they are wanted. -/
def logText (verbose : Bool) (notes : List Run.Note) : String :=
  if verbose then String.join (notes.map fun note => Text.spellSurrogates (note.line ++ "\n"))
  else ""

/-- A program that breaks down, after some notes. -/
def brokenDown (log : String) (breakdown : Breakdown) : Outcome :=
  { status := 1, messages := log, breakdown := some breakdown }

/-- A program that fails with a report, after some notes. -/
def failed (log report : String) : Outcome :=
  { status := 1, messages := log ++ told ("Error: " ++ report ++ "\n") }

/-- A program that prints its output, with some messages, if it can be written in
bytes. -/
def prints (log messages text : String) : Outcome :=
  if Text.isEncodable text then { output := printed text, messages := log ++ messages }
  else brokenDown log .encoding

/-- A program that writes a text to a file, with some messages.  The file is
emptied before the text is written in bytes. -/
def writes (files : Fetch.Files) (log messages path text : String) : Outcome :=
  match (files path).obstacle? with
  | some error => brokenDown log (.write error)
  | none =>
      if Text.isEncodable text then
        { messages := log ++ messages, written := some ⟨path, text⟩ }
      else { brokenDown log .encoding with written := some ⟨path, ""⟩ }

/-- A program that ends with a result: the style sheet is written to a file if
one is named, and printed otherwise. -/
def succeeded (files : Fetch.Files) (log output : String) (report : Bool) (result : Run.Result) :
    Outcome :=
  let messages := if report then told (result.report.summary ++ "\n") else ""
  if output = "" then prints log messages result.css
  else writes files log messages output result.css

/-- The sources of a run, and the document that is given as a text: a dash as
the only source stands for the input. -/
def sourcesWithInput (sources : List String) (input : String) : List String × String :=
  if sources = ["-"] then ([], Text.withPlainLineEnds input) else (sources, "")

/-- Reduces the sheets of some sources. -/
def executeReduce (world : Fetch.World) (input : String) (verbose : Bool)
    (sources : List String) (options : Run.Options) (output : String) (report : Bool) :
    Outcome :=
  let (sources, extraHtml) := sourcesWithInput sources input
  if sources.isEmpty && extraHtml == "" then failed "" "no documents given"
  else
    let ended := Run.run world { options with extraHtml } sources []
    let log := logText verbose ended.journal.notes
    match ended.result with
    | .ok result => succeeded world.files log output report result
    | .error failure =>
        match failure.report? with
        | some report => failed log report
        | none => brokenDown log (.run failure)

/-- Resolves a reference. -/
def executeResolve (verbose : Bool) (source reference : String) (lookup : Location.Lookup) :
    Outcome :=
  match Location.resolve source reference lookup with
  | .error error => brokenDown "" (.address error)
  | .ok location =>
      let notes :=
        if Location.lacksRoot source reference lookup then
          [Run.Note.rootless (String.ofList (Location.withoutQuery reference.toList)) source]
        else []
      prints (logText verbose notes) "" (location ++ "\n")

/-- Carries out an order. -/
def execute (world : Fetch.World) (program input : String) (order : Order) : Outcome :=
  match order.command with
  | .version => { output := versionLine }
  | .help scope => { output := scope.usage program ++ "\n" }
  | .resolve source reference lookup => executeResolve order.verbose source reference lookup
  | .reduce sources options output report =>
      executeReduce world input order.verbose sources options output report

/-- Does what the arguments of a program ask for. -/
def runProgram (world : Fetch.World) (program input : String) (arguments : List String) :
    Outcome :=
  match readOrder world.files arguments with
  | .error (.misuse misuse) => { status := 2, messages := told (misuse.report program) }
  | .error .brokenPath => brokenDown "" .path
  | .ok order => execute world program input order

/-- Whether a program that is given some arguments reads its input. -/
def readsInput (arguments : List String) : Bool :=
  match readOrder (fun _ => .free) arguments with
  | .ok ⟨_, .reduce ["-"] ..⟩ => true
  | _ => false

/-- The paths that a program looks at in a world, in order. -/
def pathsLookedAt (world : Fetch.World) (input : String) (arguments : List String) :
    List String :=
  match readOrder world.files arguments with
  | .ok ⟨_, .reduce sources options output _⟩ =>
      let (sources, extraHtml) := sourcesWithInput sources input
      let ended := Run.run world { options with extraHtml } sources []
      (if output = "" then [] else [output]) ++ ended.journal.notes.filterMap fun
        | .fetching location =>
            if Location.isUrl location then none else some (Fetch.tidyPath location)
        | _ => none
  | _ => []

end StyleSieve.CommandLine
