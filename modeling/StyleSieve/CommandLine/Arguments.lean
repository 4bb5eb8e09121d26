import StyleSieve.CommandLine.Misuse
import StyleSieve.CommandLine.Similar
import StyleSieve.Text.Split

/-!
# Arguments

Arguments are options, which start with dashes and may be followed by a value,
and the others.  Two dashes alone end the options.
-/

namespace StyleSieve.CommandLine

/-- An option: the name that its value is found under, its spelling with two
dashes, that with one dash if it has one, and whether a value belongs to it. -/
structure OptionForm where
  long : String
  short : Option Char := none
  takesValue : Bool := true
  deriving DecidableEq, Repr

/-- An argument that has been read: an option with its value, which is empty
where none belongs to it, or another argument. -/
inductive Argument where
  | option (long value : String)
  | plain (text : String)
  deriving DecidableEq, Repr

/-- An option whose value is the next argument, and how it was spelled. -/
structure Awaiting where
  form : OptionForm
  spelling : String
  deriving DecidableEq, Repr

/-- What an argument that starts with a dash holds, and the option that waits
for a value after it. -/
abbrev OptionReading := List Argument × Option Awaiting

/-- What the letters after a single dash hold. -/
def readLetters (forms : List OptionForm) : List Char → Except Flaw OptionReading
  | [] => .ok ([], none)
  | c :: rest =>
      let spelling := String.ofList ['-', c]
      match forms.find? (·.short == some c) with
      | none => .error (.noSuchOption spelling [])
      | some form =>
          if form.takesValue then
            if rest.isEmpty then .ok ([], some ⟨form, spelling⟩)
            else .ok ([.option form.long (String.ofList rest)], none)
          else do
            let later ← readLetters forms rest
            return (.option form.long "" :: later.1, later.2)

/-- What an argument that starts with a dash holds. -/
def readOption (forms : List OptionForm) (argument : String) : Except Flaw OptionReading :=
  let (name, value) := Text.cutAt (· == '=') argument.toList
  let spelling := String.ofList name
  match forms.find? (·.long == spelling), value with
  | some form, none =>
      if form.takesValue then .ok ([], some ⟨form, spelling⟩)
      else .ok ([.option form.long ""], none)
  | some form, some value =>
      if form.takesValue then .ok ([.option form.long (String.ofList value)], none)
      else .error (.superfluousValue spelling)
  | none, _ =>
      if argument.toList.take 2 = ['-', '-'] then
        .error (.noSuchOption spelling (similarWords spelling (forms.map (·.long))))
      else readLetters forms (argument.toList.drop 1)

/-- Whether an argument is to be read as options. -/
def looksLikeOption (argument : String) : Bool :=
  argument.toList.head? == some '-' && 1 < argument.length

/-- The arguments of a list, where an option may await its value.  Unless they
are `mixed`, nothing after the first plain argument is an option. -/
def readArguments (forms : List OptionForm) (mixed : Bool) :
    Option Awaiting → List String → Except Flaw (List Argument)
  | none, [] => .ok []
  | some awaiting, [] => .error (.missingValue awaiting.spelling)
  | some awaiting, value :: rest => do
      return .option awaiting.form.long value :: (← readArguments forms mixed none rest)
  | none, argument :: rest =>
      if argument = "--" then .ok (rest.map .plain)
      else if looksLikeOption argument then do
        let (here, awaiting) ← readOption forms argument
        return here ++ (← readArguments forms mixed awaiting rest)
      else if mixed then do
        return .plain argument :: (← readArguments forms mixed none rest)
      else .ok ((argument :: rest).map .plain)

/-- Arguments that have been read. -/
abbrev Arguments := List Argument

namespace Arguments

/-- The plain arguments. -/
def plain (arguments : Arguments) : List String :=
  arguments.filterMap fun
    | .plain text => some text
    | .option .. => none

/-- The values of an option, in order. -/
def values (arguments : Arguments) (long : String) : List String :=
  arguments.filterMap fun
    | .option name value => if name = long then some value else none
    | .plain _ => none

/-- Whether an option is given. -/
def gives (arguments : Arguments) (long : String) : Bool :=
  !(arguments.values long).isEmpty

/-- The last value of an option. -/
def value? (arguments : Arguments) (long : String) : Option String :=
  (arguments.values long).getLast?

/-- The options that are given, each of them once, in order. -/
def given (arguments : Arguments) : List String :=
  (arguments.filterMap fun
    | .option name _ => some name
    | .plain _ => none).eraseDups

end Arguments

end StyleSieve.CommandLine
