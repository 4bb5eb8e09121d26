import StyleSieve.Text.Quoted

/-!
# Misuse

What may be wrong with the arguments of a program, and how the program says so.
-/

namespace StyleSieve.CommandLine

/-- What is wrong with some arguments. -/
inductive Flaw where
  | noSuchOption (name : String) (similar : List String)
  | noSuchCommand (name : String) (similar : List String)
  | missingValue (option : String)
  | superfluousValue (option : String)
  | noNumber (option value : String)
  | directory (option path : String)
  | unreadable (option path : String)
  | missingArgument (name : String)
  | extraArguments (arguments : List String)
  | missingCommand
  deriving DecidableEq, Repr

/-- A text with the words that may have been meant. -/
def withSuggestions (text : String) (similar : List String) : String :=
  match similar.mergeSort (fun first second => !(second < first)) with
  | [] => text
  | [word] => text ++ " Did you mean " ++ Text.quoted word ++ "?"
  | words => text ++ " (Did you mean one of: " ++ ", ".intercalate (words.map Text.quoted) ++ "?)"

/-- The wording of a flaw. -/
def Flaw.message : Flaw → String
  | .noSuchOption name similar =>
      withSuggestions ("No such option " ++ Text.quoted name ++ ".") similar
  | .noSuchCommand name similar =>
      withSuggestions ("No such command " ++ Text.quoted name ++ ".") similar
  | .missingValue option => "Option " ++ Text.quoted option ++ " requires an argument."
  | .superfluousValue option => "Option " ++ Text.quoted option ++ " does not take a value."
  | .noNumber option value =>
      "Invalid value for " ++ option ++ ": " ++ Text.quoted value ++ " is not a valid float."
  | .directory option path =>
      "Invalid value for " ++ option ++ ": File " ++ Text.quoted path ++ " is a directory."
  | .unreadable option path =>
      "Invalid value for " ++ option ++ ": File " ++ Text.quoted path ++ " is not readable."
  | .missingArgument name => "Missing argument " ++ Text.quoted name ++ "."
  | .extraArguments [argument] => "Got unexpected extra argument (" ++ argument ++ ")"
  | .extraArguments arguments =>
      "Got unexpected extra arguments (" ++ " ".intercalate arguments ++ ")"
  | .missingCommand => "Missing command."

/-- The part of a program that arguments are meant for. -/
inductive Scope where
  | program
  | reduce
  | resolve
  deriving DecidableEq, Repr

/-- What has to be typed for a part of a program. -/
def Scope.path (scope : Scope) (program : String) : String :=
  match scope with
  | .program => program
  | .reduce => program ++ " reduce"
  | .resolve => program ++ " resolve"

/-- How a part of a program is used, in one line. -/
def Scope.usage (scope : Scope) (program : String) : String :=
  "Usage: " ++ scope.path program ++
    match scope with
    | .program => " [OPTIONS] COMMAND [ARGS]..."
    | .reduce => " [OPTIONS] [SOURCES]..."
    | .resolve => " [OPTIONS] SOURCE REFERENCE"

/-- Arguments that a part of a program cannot be used with. -/
structure Misuse where
  scope : Scope
  flaw : Flaw
  deriving DecidableEq, Repr

/-- What a program says about misuse. -/
def Misuse.report (misuse : Misuse) (program : String) : String :=
  misuse.scope.usage program ++ "\nTry '" ++ misuse.scope.path program ++
    " --help' for help.\n\nError: " ++ misuse.flaw.message ++ "\n"

end StyleSieve.CommandLine
