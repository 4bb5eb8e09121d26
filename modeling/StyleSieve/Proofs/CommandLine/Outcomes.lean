import StyleSieve.CommandLine.Execution

/-!
# What the command to reduce sheets leaves

The command prints no output and writes no file unless it ends with status 0, and then it either
prints the style sheet of its run or writes it to the file that is named, and nothing else.  Only a
style sheet that cannot be written in bytes leaves an empty file.  The file holds the sheet as it
is; what is printed has lost its sequences for terminals, and so have the messages.
-/

namespace StyleSieve.CommandLine

/-! ## Texts as they are printed -/

/-- Whether a sequence for terminals stands somewhere in a text. -/
def SteersTerminal (text : String) : Prop :=
  ∃ before rest, text.toList = before ++ '\x1b' :: '[' :: rest ∧ (afterSequence? rest).isSome

theorem afterSequence?_suffix {text rest : List Char} (found : afterSequence? text = some rest) :
    rest <:+ text := by
  unfold afterSequence? at found
  have dropped := List.dropWhile_suffix (l := text) (fun c => c.isDigit || c == ';' || c == '?')
  split at found
  · next c more split =>
      split at found
      · cases found
        exact (List.suffix_cons c _).trans (split ▸ dropped)
      · cases found
  · cases found

theorem withoutSequences_sublist (text : List Char) : (withoutSequences text).Sublist text := by
  fun_induction withoutSequences text with
  | case1 rest after found ih =>
      exact ((ih.trans (afterSequence?_suffix found).sublist).cons _).cons _
  | case2 rest missing ih => exact ih.cons_cons _
  | case3 c rest _ ih => exact ih.cons_cons _
  | case4 => exact List.Sublist.slnil

/-- A text is printed as it is where no sequence for terminals stands in it. -/
theorem withoutSequences_eq_self_iff (text : List Char) :
    withoutSequences text = text ↔
      ∀ before rest, text = before ++ '\x1b' :: '[' :: rest → afterSequence? rest = none := by
  fun_induction withoutSequences text with
  | case1 rest after found ih =>
      constructor
      · intro same
        -- a sequence that is taken out would make the text shorter
        have shorter := afterSequence?_length found
        have least := (withoutSequences_sublist after).length_le
        rw [same] at least
        simp only [List.length_cons] at least
        omega
      · intro missing
        rw [missing [] rest rfl] at found
        cases found
  | case2 rest missing ih =>
      rw [List.cons_eq_cons, ih]
      constructor
      · rintro ⟨-, later⟩ before after split
        cases before with
        | nil =>
            cases split
            exact missing
        | cons c before => exact later before after (List.cons.inj split).2
      · intro all
        refine ⟨rfl, fun before after split => all ('\x1b' :: before) after ?_⟩
        rw [split, List.cons_append]
  | case3 c rest other ih =>
      rw [List.cons_eq_cons, ih]
      constructor
      · rintro ⟨-, later⟩ before after split
        cases before with
        | nil =>
            cases split
            exact absurd rfl (other _ rfl)
        | cons d before => exact later before after (List.cons.inj split).2
      · intro all
        refine ⟨rfl, fun before after split => all (c :: before) after ?_⟩
        rw [split, List.cons_append]
  | case4 => simp

theorem printed_eq_self_iff (text : String) : printed text = text ↔ ¬SteersTerminal text := by
  have lists : printed text = text ↔ withoutSequences text.toList = text.toList := by
    rw [printed, ← String.toList_inj, String.toList_ofList]
  rw [lists, withoutSequences_eq_self_iff, SteersTerminal]
  constructor
  · rintro missing ⟨before, rest, split, found⟩
    rw [missing before rest split] at found
    cases found
  · intro none before rest split
    cases found : afterSequence? rest with
    | none => rfl
    | some after => exact absurd ⟨before, rest, split, found ▸ rfl⟩ none

theorem isEncodable_printed {text : String} (encodable : Text.isEncodable text = true) :
    Text.isEncodable (printed text) = true := by
  rw [Text.isEncodable, Bool.not_eq_true', List.any_eq_false] at encodable ⊢
  rw [printed, String.toList_ofList]
  exact fun c among => encodable c ((withoutSequences_sublist text.toList).subset among)

/-- A text that can be written in bytes is told as it is printed. -/
theorem told_of_isEncodable {text : String} (encodable : Text.isEncodable text = true) :
    told text = printed text :=
  Text.spellSurrogates_of_isEncodable (isEncodable_printed encodable)

/-! ## The arguments -/

/-- An option of the program that only asks for notes. -/
def IsSwitch (argument : String) : Prop :=
  argument = "-v" ∨ argument = "--verbose"

/-- Switches before the name of the command are read as such, and what follows the name is
left for the command. -/
theorem readArguments_switches {switches : List String}
    (areSwitches : ∀ switch ∈ switches, IsSwitch switch) (arguments : List String) :
    readArguments programForms false none (switches ++ "reduce" :: arguments) =
      .ok (switches.map (fun _ => .option "--verbose" "") ++
        ("reduce" :: arguments).map .plain) := by
  induction switches with
  | nil => rfl
  | cons switch rest ih =>
      have later := ih fun other member => areSwitches other (List.mem_cons_of_mem _ member)
      have reading : readOption programForms switch = .ok ([.option "--verbose" ""], none) := by
        rcases areSwitches switch List.mem_cons_self with rfl | rfl <;> rfl
      have looks : switch ≠ "--" ∧ looksLikeOption switch = true := by
        rcases areSwitches switch List.mem_cons_self with rfl | rfl <;> decide +kernel
      rw [List.cons_append, readArguments, if_neg looks.1, if_pos looks.2, reading]
      change (do return [Argument.option "--verbose" ""] ++
        (← readArguments programForms false none (rest ++ "reduce" :: arguments))) = _
      rw [later]
      rfl

theorem Arguments.plain_map_plain (texts : List String) :
    Arguments.plain (texts.map .plain) = texts := by
  rw [Arguments.plain, List.filterMap_map]
  exact List.filterMap_some

theorem Arguments.values_map_plain (texts : List String) (long : String) :
    Arguments.values (texts.map .plain) long = [] := by
  rw [Arguments.values, List.filterMap_map]
  exact List.filterMap_eq_nil_iff.2 fun _ _ => rfl

/-- What the program is asked for, by switches, the name of the command and its arguments. -/
theorem readOrder_reduce (files : Fetch.Files) {switches : List String}
    (areSwitches : ∀ switch ∈ switches, IsSwitch switch) (arguments : List String) :
    readOrder files (switches ++ "reduce" :: arguments) =
      (readReduce files arguments).map (⟨!switches.isEmpty, ·⟩) := by
  have plain : Arguments.plain (switches.map (fun _ => .option "--verbose" "") ++
      ("reduce" :: arguments).map .plain) = "reduce" :: arguments := by
    have options : Arguments.plain (switches.map fun _ => .option "--verbose" "") = [] := by
      rw [Arguments.plain, List.filterMap_map]
      exact List.filterMap_eq_nil_iff.2 fun _ _ => rfl
    have others := Arguments.plain_map_plain ("reduce" :: arguments)
    rw [Arguments.plain] at options others
    rw [Arguments.plain, List.filterMap_append, options, others, List.nil_append]
  have verbose : Arguments.gives (switches.map (fun _ => .option "--verbose" "") ++
      ("reduce" :: arguments).map .plain) "--verbose" = !switches.isEmpty := by
    have others := Arguments.values_map_plain ("reduce" :: arguments) "--verbose"
    rw [Arguments.values] at others
    rw [Arguments.gives, Arguments.values, List.filterMap_append, others, List.append_nil]
    cases switches <;> rfl
  have immediate : immediate? (switches.map (fun _ => .option "--verbose" "") ++
      ("reduce" :: arguments).map .plain) = none := by
    rw [immediate?, List.findSome?_eq_none_iff]
    intro name member
    rw [Arguments.given, List.mem_eraseDups, List.filterMap_append, List.filterMap_map,
      List.filterMap_map, List.mem_append, List.mem_filterMap, List.mem_filterMap] at member
    rcases member with ⟨_, _, isVerbose⟩ | ⟨_, _, isNothing⟩
    · cases isVerbose
      rfl
    · cases isNothing
  have understood (given : Arguments) :
      Except.mapError (refuse .program) (.ok given) = .ok given := rfl
  rw [readOrder, readArguments_switches areSwitches, understood]
  simp only [bind, Except.bind, pure, Except.pure, plain, verbose, immediate]
  cases readReduce files arguments <;> rfl

/-- Arguments of the command ask for help or for a reduction. -/
theorem readReduce_ok {files : Fetch.Files} {arguments : List String} {command : Command}
    (read : readReduce files arguments = .ok command) :
    command = .help .reduce ∨
      ∃ sources options output report, command = .reduce sources options output report := by
  simp only [readReduce, bind, Except.bind, pure, Except.pure] at read
  split at read
  · cases read
  · split at read
    · cases read
      exact .inl rfl
    · split at read
      · cases read
      · cases read
        exact .inr ⟨_, _, _, _, rfl⟩

/-! ## The outcome -/

/-- A program that has printed no output and written no file. -/
def Outcome.IsSilent (outcome : Outcome) : Prop :=
  outcome.output = "" ∧ outcome.written = none

/-- A program that has written a style sheet to the file with a name and nothing else, or has
printed it if there is no name. -/
def Outcome.Delivers (outcome : Outcome) (output css : String) : Prop :=
  if output = "" then outcome.output = printed css ∧ outcome.written = none
  else outcome.output = "" ∧ outcome.written = some ⟨output, css⟩

/-- Whether a style sheet can be written to the file with a name, if there is one. -/
def canDeliver (files : Fetch.Files) (output : String) : Bool :=
  output = "" || (files output).obstacle?.isNone

/-- The run that reduces the sheets of some sources. -/
def runOf (world : Fetch.World) (input : String) (sources : List String)
    (options : Run.Options) : Run.Outcome :=
  let given := sourcesWithInput sources input
  Run.run world { options with extraHtml := given.2 } given.1 []

/-- How a program with a style sheet ends: the sheet is delivered; it is not, and nothing is left;
or the file for it is left empty, since the sheet cannot be written in bytes. -/
inductive Delivery (files : Fetch.Files) (output css : String) (outcome : Outcome) : Prop where
  | delivered (can : canDeliver files output = true) (encodable : Text.isEncodable css = true)
      (status : outcome.status = 0) (delivers : outcome.Delivers output css)
  | withheld (cannot : canDeliver files output = false ∨ output = "" ∧ Text.isEncodable css = false)
      (status : outcome.status = 1) (silent : outcome.IsSilent)
  | emptied (named : output ≠ "") (can : canDeliver files output = true)
      (unencodable : Text.isEncodable css = false) (status : outcome.status = 1)
      (unprinted : outcome.output = "") (written : outcome.written = some ⟨output, ""⟩)

theorem Delivery.status_eq_zero_iff {files : Fetch.Files} {output css : String} {outcome : Outcome}
    (delivery : Delivery files output css outcome) :
    outcome.status = 0 ↔ canDeliver files output = true ∧ Text.isEncodable css = true := by
  cases delivery with
  | delivered can encodable status delivers => exact iff_of_true status ⟨can, encodable⟩
  | withheld cannot status silent =>
      rw [status]
      refine iff_of_false Nat.one_ne_zero fun both => ?_
      rcases cannot with cannot | ⟨-, unencodable⟩
      · exact absurd (cannot.symm.trans both.1) Bool.false_ne_true
      · exact absurd (unencodable.symm.trans both.2) Bool.false_ne_true
  | emptied named can unencodable status unprinted written =>
      rw [status]
      exact iff_of_false Nat.one_ne_zero fun both =>
        absurd (unencodable.symm.trans both.2) Bool.false_ne_true

theorem succeeded_delivery (files : Fetch.Files) (log output : String) (report : Bool)
    (result : Run.Result) :
    Delivery files output result.css (succeeded files log output report result) := by
  by_cases unnamed : output = ""
  · rw [succeeded, if_pos unnamed, prints]
    have can : canDeliver files output = true := by rw [canDeliver, unnamed]; rfl
    split
    · next encodable =>
        refine .delivered can encodable rfl ?_
        rw [Outcome.Delivers, if_pos unnamed]
        exact ⟨rfl, rfl⟩
    · next unencodable =>
        exact .withheld (.inr ⟨unnamed, Bool.eq_false_iff.2 unencodable⟩) rfl ⟨rfl, rfl⟩
  · have can : canDeliver files output = (files output).obstacle?.isNone := by
      rw [canDeliver, decide_eq_false unnamed, Bool.false_or]
    rw [succeeded, if_neg unnamed, writes]
    cases obstacle : (files output).obstacle? with
    | some error =>
        rw [obstacle] at can
        exact .withheld (.inl can) rfl ⟨rfl, rfl⟩
    | none =>
        rw [obstacle] at can
        dsimp only
        split
        · next encodable =>
            refine .delivered can encodable rfl ?_
            rw [Outcome.Delivers, if_neg unnamed]
            exact ⟨rfl, rfl⟩
        · next unencodable =>
            exact .emptied unnamed can (Bool.eq_false_iff.2 unencodable) rfl rfl rfl

/-- Without documents nothing is run. -/
theorem executeReduce_nothing (world : Fetch.World) (input : String) (verbose : Bool)
    {sources : List String} (options : Run.Options) (output : String) (report : Bool)
    (nothing : sourcesWithInput sources input = ([], "")) :
    executeReduce world input verbose sources options output report =
      failed "" "no documents given" := by
  rw [executeReduce, nothing]
  rfl

/-- With documents a run decides what becomes of the program. -/
theorem executeReduce_something (world : Fetch.World) (input : String) (verbose : Bool)
    {sources : List String} (options : Run.Options) (output : String) (report : Bool)
    (something : sourcesWithInput sources input ≠ ([], "")) :
    executeReduce world input verbose sources options output report =
      let log := logText verbose (runOf world input sources options).journal.notes
      match (runOf world input sources options).result with
      | .ok result => succeeded world.files log output report result
      | .error failure =>
          match failure.report? with
          | some report => failed log report
          | none => brokenDown log (.run failure) := by
  have given : ((sourcesWithInput sources input).1.isEmpty &&
      (sourcesWithInput sources input).2 == "") = false := by
    rw [Bool.eq_false_iff]
    intro nothing
    rw [Bool.and_eq_true, List.isEmpty_iff, beq_iff_eq] at nothing
    exact something (Prod.ext nothing.1 nothing.2)
  rw [executeReduce]
  simp only [given]
  rfl

/-- A run with a result is delivered, as far as it can be. -/
theorem executeReduce_delivery (world : Fetch.World) (input : String) (verbose : Bool)
    {sources : List String} {options : Run.Options} (output : String) (report : Bool)
    (something : sourcesWithInput sources input ≠ ([], "")) {result : Run.Result}
    (ended : (runOf world input sources options).result = .ok result) :
    Delivery world.files output result.css
      (executeReduce world input verbose sources options output report) := by
  rw [executeReduce_something world input verbose options output report something, ended]
  exact succeeded_delivery world.files _ output report result

/-- Without a result nothing is left. -/
theorem executeReduce_silent (world : Fetch.World) (input : String) (verbose : Bool)
    (sources : List String) (options : Run.Options) (output : String) (report : Bool)
    (fails : sourcesWithInput sources input = ([], "") ∨
      ∃ failure, (runOf world input sources options).result = .error failure) :
    let outcome := executeReduce world input verbose sources options output report
    outcome.status = 1 ∧ outcome.IsSilent := by
  intro outcome
  by_cases nothing : sourcesWithInput sources input = ([], "")
  · rw [show outcome = _ from
      executeReduce_nothing world input verbose options output report nothing]
    exact ⟨rfl, rfl, rfl⟩
  · obtain ⟨failure, ended⟩ := fails.resolve_left nothing
    rw [show outcome = _ from
      executeReduce_something world input verbose options output report nothing, ended]
    cases reported : failure.report? with
    | none => simp only [reported]; exact ⟨rfl, rfl, rfl⟩
    | some report => simp only [reported]; exact ⟨rfl, rfl, rfl⟩

/-- The report of a failed run is printed. -/
theorem executeReduce_failed (world : Fetch.World) (input : String) (verbose : Bool)
    {sources : List String} {options : Run.Options} (output : String) (report : Bool)
    (something : sourcesWithInput sources input ≠ ([], "")) {failure : Run.Failure}
    {message : String} (ended : (runOf world input sources options).result = .error failure)
    (reported : failure.report? = some message) :
    executeReduce world input verbose sources options output report =
      failed (logText verbose (runOf world input sources options).journal.notes) message := by
  rw [executeReduce_something world input verbose options output report something, ended]
  simp only [reported]

/-- What the program does with the arguments of the command. -/
theorem runProgram_switches (world : Fetch.World) (program input : String)
    {switches : List String} (areSwitches : ∀ switch ∈ switches, IsSwitch switch)
    (arguments : List String) :
    runProgram world program input (switches ++ "reduce" :: arguments) =
      match readReduce world.files arguments with
      | .error (.misuse misuse) => { status := 2, messages := told (misuse.report program) }
      | .error .brokenPath => brokenDown "" .path
      | .ok command => execute world program input ⟨!switches.isEmpty, command⟩ := by
  rw [runProgram, readOrder_reduce world.files areSwitches]
  cases readReduce world.files arguments with
  | ok command => rfl
  | error refusal => cases refusal <;> rfl

/-- How the command ends that is not asked for help: its run has a result, which is delivered as
far as it can be, or nothing is left. -/
theorem runProgram_delivery (world : Fetch.World) (program input : String)
    {switches arguments : List String} (areSwitches : ∀ switch ∈ switches, IsSwitch switch)
    (noHelp : readReduce world.files arguments ≠ .ok (.help .reduce)) :
    let outcome := runProgram world program input (switches ++ "reduce" :: arguments)
    (∃ sources options output report result,
        readReduce world.files arguments = .ok (.reduce sources options output report) ∧
          (runOf world input sources options).result = .ok result ∧
          Delivery world.files output result.css outcome) ∨
      (outcome.status ≠ 0 ∧ outcome.IsSilent) := by
  intro outcome
  have does : outcome = _ := runProgram_switches world program input areSwitches arguments
  cases read : readReduce world.files arguments with
  | error refusal =>
      right
      rw [does, read]
      cases refusal with
      | misuse misuse => exact ⟨Nat.succ_ne_zero 1, rfl, rfl⟩
      | brokenPath => exact ⟨Nat.one_ne_zero, rfl, rfl⟩
  | ok command =>
      obtain rfl | ⟨sources, options, output, report, rfl⟩ := readReduce_ok read
      · exact absurd read noHelp
      rw [does, read]
      by_cases nothing : sourcesWithInput sources input = ([], "")
      · obtain ⟨status, silent⟩ := executeReduce_silent world input (!switches.isEmpty) sources
          options output report (.inl nothing)
        exact .inr ⟨fun succeeds => Nat.one_ne_zero (status.symm.trans succeeds), silent⟩
      cases ended : (runOf world input sources options).result with
      | ok result =>
          exact .inl ⟨sources, options, output, report, result, rfl, ended,
            executeReduce_delivery world input _ output report nothing ended⟩
      | error failure =>
          obtain ⟨status, silent⟩ := executeReduce_silent world input (!switches.isEmpty) sources
            options output report (.inr ⟨failure, ended⟩)
          exact .inr ⟨fun succeeds => Nat.one_ne_zero (status.symm.trans succeeds), silent⟩

/-- The command to reduce sheets prints no output and writes no file unless it ends with
status 0, but for one case: the file is left empty if the style sheet of the run cannot be written
in bytes.  With status 0 it delivers this style sheet, as it is in a file, and printed where no
sequence for terminals stands in it.  A run with a result ends so unless the file cannot be opened
or the style sheet cannot be written in bytes, and the report of a failed run is told with
status 1. -/
theorem runProgram_reduce (world : Fetch.World) (program input : String)
    (switches arguments : List String) (areSwitches : ∀ switch ∈ switches, IsSwitch switch)
    (noHelp : readReduce world.files arguments ≠ .ok (.help .reduce)) :
    let outcome := runProgram world program input (switches ++ "reduce" :: arguments)
    (outcome.status ≠ 0 → outcome.IsSilent ∨
        ∃ sources options output report result,
          readReduce world.files arguments = .ok (.reduce sources options output report) ∧
            (runOf world input sources options).result = .ok result ∧
            Text.isEncodable result.css = false ∧ output ≠ "" ∧
            outcome.output = "" ∧ outcome.written = some ⟨output, ""⟩) ∧
      (outcome.status = 0 → ∃ sources options output report result,
        readReduce world.files arguments = .ok (.reduce sources options output report) ∧
          (runOf world input sources options).result = .ok result ∧
          outcome.Delivers output result.css) ∧
      (∀ sources options output report,
        readReduce world.files arguments = .ok (.reduce sources options output report) →
        sourcesWithInput sources input ≠ ([], "") →
        (∀ result, (runOf world input sources options).result = .ok result →
          Delivery world.files output result.css outcome ∧
            (outcome.status = 0 ↔
              canDeliver world.files output = true ∧ Text.isEncodable result.css = true)) ∧
        ∀ failure message, (runOf world input sources options).result = .error failure →
          failure.report? = some message →
          outcome.status = 1 ∧
            outcome.messages =
              logText (!switches.isEmpty) (runOf world input sources options).journal.notes ++
                told ("Error: " ++ message ++ "\n")) ∧
      (∀ text, printed text = text ↔ ¬SteersTerminal text) ∧
      ∀ text, Text.isEncodable text = true → told text = printed text := by
  intro outcome
  have leaves := runProgram_delivery world program input areSwitches noHelp
  refine ⟨?_, ?_, ?_, printed_eq_self_iff, fun text => told_of_isEncodable⟩
  · intro fails
    obtain ⟨sources, options, output, report, result, read, ended, delivery⟩ | ⟨-, silent⟩ := leaves
    · cases delivery with
      | delivered can encodable status delivers => exact absurd status fails
      | withheld cannot status silent => exact .inl silent
      | emptied named can unencodable status unprinted written =>
          exact .inr ⟨sources, options, output, report, result, read, ended, unencodable, named,
            unprinted, written⟩
    · exact .inl silent
  · intro succeeds
    obtain ⟨sources, options, output, report, result, read, ended, delivery⟩ | ⟨fails, -⟩ := leaves
    · cases delivery with
      | delivered can encodable status delivers =>
          exact ⟨sources, options, output, report, result, read, ended, delivers⟩
      | withheld cannot status silent => exact absurd (status.symm.trans succeeds) Nat.one_ne_zero
      | emptied named can unencodable status unprinted written =>
          exact absurd (status.symm.trans succeeds) Nat.one_ne_zero
    · exact absurd succeeds fails
  · intro sources options output report read something
    have runs : outcome =
        executeReduce world input (!switches.isEmpty) sources options output report := by
      refine (runProgram_switches world program input areSwitches arguments).trans ?_
      rw [read]
      rfl
    rw [runs]
    constructor
    · intro result ended
      have delivery := executeReduce_delivery world input (!switches.isEmpty) output report
        something ended
      exact ⟨delivery, delivery.status_eq_zero_iff⟩
    · intro failure message ended reported
      rw [executeReduce_failed world input _ output report something ended reported]
      exact ⟨rfl, rfl⟩

/-- A world with one document, without a network. -/
def smallWorld : Fetch.World where
  directory := "/d"
  files := Fetch.FileTree.entry [(["a.html".toList], "<a></a>".toUTF8.toList)]
  network := Fetch.offline

/-- A sheet that is printed, after a switch. -/
theorem runProgram_reduce_printed :
    let arguments := ["a.html", "--raw", "a, b \x7bc:d\x7d"]
    let outcome := runProgram smallWorld "p" "" (["-v"] ++ "reduce" :: arguments)
    readReduce smallWorld.files arguments ≠ .ok (.help .reduce) ∧
      outcome.status = 0 ∧ outcome.output = "a \x7b\n  c: d;\n\x7d\n" ∧
      ∃ sources options output report result,
        readReduce smallWorld.files arguments = .ok (.reduce sources options output report) ∧
          (runOf smallWorld "" sources options).result = .ok result ∧
          outcome.Delivers output result.css := by
  intro arguments outcome
  have areSwitches : ∀ switch ∈ ["-v"], IsSwitch switch := fun switch member =>
    .inl (List.mem_singleton.1 member)
  have noHelp : readReduce smallWorld.files arguments ≠ .ok (.help .reduce) := nofun
  have status : outcome.status = 0 := by decide +kernel
  have delivers := (runProgram_reduce smallWorld "p" "" ["-v"] arguments areSwitches noHelp).2.1
  exact ⟨noHelp, status, by decide +kernel, delivers status⟩

/-- A sheet with a sequence for terminals is written to a file as it is, but printed without
the sequence; so is the report of a failure.  The file for a sheet that cannot be written in bytes
is emptied, and the program fails all the same. -/
theorem runProgram_reduce_steered :
    let sheet := "a \x7b\n  b: \"\x1b[31mc\";\n\x7d\n"
    let toFile := runProgram smallWorld "p" ""
      ["reduce", "a.html", "--raw", "a\x7bb:\"\x1b[31mc\"\x7d", "-o", "f.css"]
    let toOutput := runProgram smallWorld "p" ""
      ["reduce", "a.html", "--raw", "a\x7bb:\"\x1b[31mc\"\x7d"]
    let missing := runProgram smallWorld "p" "" ["reduce", "\x1b[31mf"]
    let half := runProgram smallWorld "p" ""
      ["reduce", "a.html", "--raw", "a\x7bb:\"\\d800 \"\x7d", "-o", "a.html"]
    toFile.status = 0 ∧ toFile.written = some ⟨"f.css", sheet⟩ ∧
      toOutput.status = 0 ∧ toOutput.output = "a \x7b\n  b: \"c\";\n\x7d\n" ∧
      toOutput.output ≠ sheet ∧
      missing.status = 1 ∧ missing.messages = "Error: Could not open /d/f\n" ∧
      missing.messages ≠ "Error: Could not open /d/\x1b[31mf\n" ∧
      half.status = 1 ∧ half.written = some ⟨"a.html", ""⟩ := by
  decide +kernel

end StyleSieve.CommandLine
