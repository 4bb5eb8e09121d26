import StyleSieve.CommandLine.Arguments
import StyleSieve.CommandLine.Number
import StyleSieve.Fetch.Entry
import StyleSieve.Run.Report

/-!
# Commands

What the arguments of the program ask for.  Options before the name of a command
are for the program, those after it for the command.
-/

namespace StyleSieve.CommandLine

/-- What is asked for. -/
inductive Command where
  | version
  | help (scope : Scope)
  | resolve (source reference : String) (lookup : Location.Lookup)
  | reduce (sources : List String) (options : Run.Options) (output : String) (report : Bool)

/-- A command, and whether notes are wanted while it is carried out. -/
structure Order where
  verbose : Bool
  command : Command

/-- Why arguments ask for nothing: they are misused, or the path for the output
cannot even be looked at. -/
inductive Refusal where
  | misuse (misuse : Misuse)
  | brokenPath

/-- The option for help. -/
def helpForm : OptionForm := { long := "--help", takesValue := false }

/-- The options of the program. -/
def programForms : List OptionForm :=
  [{ long := "--version", takesValue := false },
   { long := "--verbose", short := some 'v', takesValue := false },
   helpForm]

/-- The options of the command that resolves a reference. -/
def resolveForms : List OptionForm :=
  [{ long := "--htmlroot" }, { long := "--csspath" }, helpForm]

/-- The options of the command that reduces sheets. -/
def reduceForms : List OptionForm :=
  [{ long := "--stylesheets" }, { long := "--ignore" }, { long := "--ignore-sheets" },
   { long := "--htmlroot" }, { long := "--csspath" }, { long := "--raw" },
   { long := "--timeout" }, { long := "--output", short := some 'o' },
   { long := "--report", takesValue := false }, helpForm]

/-- The names of the commands. -/
def commandNames : List String := ["reduce", "resolve"]

/-- Where references are looked up, by the options for it. -/
def lookupOf (arguments : Arguments) : Location.Lookup where
  root := arguments.value? "--htmlroot"
  subdirectory := (arguments.value? "--csspath").getD ""

/-- Misuse of a part of the program. -/
def refuse (scope : Scope) (flaw : Flaw) : Refusal := .misuse ⟨scope, flaw⟩

/-- Refuses the value of an option that cannot be used. -/
def checkValue (files : Fetch.Files) (arguments : Arguments) (option : String) :
    Except Refusal Unit :=
  match option, arguments.value? option with
  | "--timeout", some value =>
      if isNumber value then .ok ()
      else .error (refuse .reduce (.noNumber "'--timeout'" value))
  | "--output", some path =>
      if path.toList.contains '\x00' then .error .brokenPath
      else
        match files path with
        | .directory => .error (refuse .reduce (.directory "'-o' / '--output'" path))
        | .closedFile => .error (refuse .reduce (.unreadable "'-o' / '--output'" path))
        | _ => .ok ()
  | _, _ => .ok ()

/-- The command to reduce sheets that arguments ask for. -/
def readReduce (files : Fetch.Files) (arguments : List String) : Except Refusal Command := do
  let arguments : Arguments ←
    (readArguments reduceForms true none arguments).mapError (refuse .reduce)
  if arguments.gives "--help" then return .help .reduce
  arguments.given.forM (checkValue files arguments)
  let options : Run.Options := {
    lookup := lookupOf arguments
    sheets := arguments.values "--stylesheets"
    keep := (arguments.values "--ignore").map .text
    skip := arguments.values "--ignore-sheets"
    extraCss := (arguments.value? "--raw").getD "" }
  return .reduce arguments.plain options ((arguments.value? "--output").getD "")
    (arguments.gives "--report")

/-- The command to resolve a reference that arguments ask for. -/
def readResolve (arguments : List String) : Except Refusal Command := do
  let arguments : Arguments ←
    (readArguments resolveForms true none arguments).mapError (refuse .resolve)
  if arguments.gives "--help" then return .help .resolve
  match arguments.plain with
  | [] => throw (refuse .resolve (.missingArgument "SOURCE"))
  | [_] => throw (refuse .resolve (.missingArgument "REFERENCE"))
  | [source, reference] => return .resolve source reference (lookupOf arguments)
  | _ :: _ :: more => throw (refuse .resolve (.extraArguments more))

/-- What the options of the program ask for by themselves: the one of them that
is given first. -/
def immediate? (arguments : Arguments) : Option Command :=
  arguments.given.findSome? fun
    | "--version" => some .version
    | "--help" => some (.help .program)
    | _ => none

/-- The command with a name that is none.  If the name starts with a dash it is
read as an option after all. -/
def readUnknown (name : String) (rest : List String) : Except Refusal Command := do
  let arguments : Arguments ←
    if looksLikeOption name then
      (readArguments programForms false none (name :: rest)).mapError (refuse .program)
    else pure []
  match immediate? arguments with
  | some command => return command
  | none => throw (refuse .program (.noSuchCommand name (similarWords name commandNames)))

/-- What the arguments of the program ask for. -/
def readOrder (files : Fetch.Files) (arguments : List String) : Except Refusal Order := do
  let given : Arguments ←
    (readArguments programForms false none arguments).mapError (refuse .program)
  let verbose := given.gives "--verbose"
  match immediate? given, given.plain with
  | some command, _ => return ⟨verbose, command⟩
  | none, [] =>
      if arguments.isEmpty then return ⟨verbose, .help .program⟩
      else throw (refuse .program .missingCommand)
  | none, "reduce" :: rest => return ⟨verbose, ← readReduce files rest⟩
  | none, "resolve" :: rest => return ⟨verbose, ← readResolve rest⟩
  | none, name :: rest => return ⟨verbose, ← readUnknown name rest⟩

end StyleSieve.CommandLine
