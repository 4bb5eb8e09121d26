import StyleSieve.Pattern.Escape
import StyleSieve.Pattern.Flags
import StyleSieve.Text.Blank

/-!
# Reading patterns

A pattern is a choice between sequences.  An item of a sequence may be followed
by a repetition, which applies to that item alone.
-/

namespace StyleSieve.Pattern

/-- Adds a member to a character set, unless it is there already. -/
def insertItem (items : List SetItem) (item : SetItem) : List SetItem :=
  if items.contains item then items else items ++ [item]

/-- Reads a member of a character set that starts with a sign. -/
def readSetItem (mode : Mode) (sign : Sign) : Read SetItem :=
  match sign with
  | ['\\', c] => readSetEscape mode c
  | [c] => pure (.char c)
  | _ => pure (.char '\\')

/-- Reads the members of a character set opened at the place `start`. -/
def readSetItems (mode : Mode) (start : Nat) (items : List SetItem) :
    Nat → Read (List SetItem)
  | 0 => return items
  | fuel + 1 => do
      let unterminated {α : Type} : Read α := do
        Read.fail .unterminatedSet ((← get).position - start)
      match ← Read.next? with
      | none => unterminated
      | some sign =>
          if sign == [']'] && !items.isEmpty then return items
          let first ← readSetItem mode sign
          if ← Read.accept '-' then
            match ← Read.next? with
            | none => unterminated
            | some [']'] => return insertItem (insertItem items first) (.char '-')
            | some that =>
                let last ← readSetItem mode that
                let bad : Read (List SetItem) :=
                  Read.fail (.badRange (String.ofList sign) (String.ofList that))
                    (sign.length + 1 + that.length)
                match first, last with
                | .char low, .char high =>
                    if Text.codePoint high < Text.codePoint low then bad
                    else readSetItems mode start (insertItem items (.range low high)) fuel
                | _, _ => bad
          else readSetItems mode start (insertItem items first) fuel

/-- Reads a character set after its opening bracket. -/
def readSet (mode : Mode) : Read Node := do
  let reading ← get
  let start := reading.position - 1
  let negated ← Read.accept '^'
  let items ← readSetItems mode start [] (reading.rest.length + 1)
  match items with
  | [.char c] => return .char c negated mode.folding
  | _ => return .set items negated mode.folding

/-- How many rounds the longest repetitions may have, at most. -/
def largestCount : Nat := 4294967295

/-- The number that digits spell, unless it is too large. -/
def countOf (digits : List Char) : Read Nat := do
  let count := digitsValue 10 digits
  if largestCount ≤ count then throw .countTooLarge else return count

/-- The bounds that a sign of repetition stands for; a brace may stand for
itself. -/
def readBounds? (sign : Char) : Read (Option (Nat × Option Nat)) := do
  match sign with
  | '?' => return some (0, some 1)
  | '*' => return some (0, none)
  | '+' => return some (1, none)
  | _ =>
      let start ← Read.mark
      if (← Read.peek?) == some ['\x7d'] then return none
      let low ← Read.takeAll Char.isDigit
      let high ← if ← Read.accept ',' then Read.takeAll Char.isDigit else pure low
      if !(← Read.accept '\x7d') then
        Read.returnTo start
        return none
      let least ← if low.isEmpty then pure 0 else countOf low
      if high.isEmpty then return some (least, none)
      let greatest ← countOf high
      if greatest < least then
        Read.fail .swappedBounds ((← get).position - start.2)
      return some (least, some greatest)

/-- Reads the sign behind a repetition that says how it takes its rounds. -/
def readGreed : Read Greed := do
  if ← Read.accept '?' then return .lazy
  if ← Read.accept '+' then return .possessive
  return .greedy

/-- Reads a repetition that starts with `sign`, after the items `read`, the
last of which comes first. -/
def readRepetition (mode : Mode) (sign : Char) (read : List Node) : Read (List Node) := do
  let start := (← get).position - 1
  match ← readBounds? sign with
  | none => return .char sign false mode.folding :: read
  | some (least, greatest) =>
      let here := (← get).position
      match read with
      | [] | .anchor _ :: _ => Read.fail .nothingToRepeat (here - start)
      | .iterate .. :: _ => Read.fail .repeatedRepetition (here - start)
      | item :: before =>
          let greed ← readGreed
          return .iterate least greatest greed [item] :: before

/-- Whether a text is a name of a group. -/
def isGroupName (name : List Char) : Bool :=
  match name with
  | [] => false
  | c :: rest =>
      (c == '_' || (Text.isAlphanumeric c && !Text.isDecimal c)) &&
        rest.all fun d => d == '_' || Text.isAlphanumeric d

/-- Reads the name of a group up to a terminator. -/
def readGroupName (terminator : Char) : Read (List Char) := do
  let name ← Read.takeUntil terminator "group name"
  if isGroupName name then return name
  else Read.fail (.badGroupName (String.ofList name)) (name.length + 1)

/-- The group with a name. -/
def groupNamed (name : List Char) : Read Nat := do
  match (← get).names.lookup (String.ofList name) with
  | some index => return index
  | none => Read.fail (.unknownGroupName (String.ofList name)) (name.length + 1)

/-- The number that a text spells: digits, between which single underscores may
stand, with an optional sign, and blanks around. -/
def spelledNumber? (text : List Char) : Option Int :=
  let body := Text.trim text
  let (negative, digits) :=
    match body with
    | '-' :: rest => (true, rest)
    | '+' :: rest => (false, rest)
    | _ => (false, body)
  let pieces := Text.splitAtChar '_' digits
  if pieces.all fun piece => !piece.isEmpty && piece.all Char.isDigit then
    let value := (digitsValue 10 pieces.flatten : Int)
    some (if negative then -value else value)
  else none

/-- Reads which group a condition is about, up to its closer. -/
def readCondition : Read Nat := do
  let name ← Read.takeUntil ')' "group name"
  let back := name.length + 1
  let index ←
    if isGroupName name then groupNamed name
    else
      match spelledNumber? name with
      | none => Read.fail (.badGroupName (String.ofList name)) back
      | some number =>
          if number < 0 then Read.fail (.badGroupName (String.ofList name)) back
          else if number = 0 then Read.fail .badGroupNumber back
          else if 1073741823 ≤ number then Read.fail (.invalidGroup number.toNat) back
          else
            let index := number.toNat
            modify fun reading =>
              if reading.pending.any (·.1 == index) then reading
              else { reading with
                pending := reading.pending ++ [(index, reading.position - back)] }
            pure index
  checkLookbehind index
  return index

/-- Opens a group and gives its number. -/
def openGroup (name : Option (List Char)) : Read Nat := do
  let reading ← get
  let index := reading.widths.length + 1
  set { reading with widths := reading.widths ++ [none] }
  match name with
  | none => return index
  | some name =>
      match reading.names.lookup (String.ofList name) with
      | some earlier =>
          Read.fail (.repeatedGroupName (String.ofList name) index earlier) (name.length + 1)
      | none =>
          modify fun reading =>
            { reading with names := (String.ofList name, index) :: reading.names }
          return index

/-- Records the width of a group that ends. -/
def closeGroup (index : Nat) (body : List Node) : Read Unit :=
  modify fun reading =>
    { reading with widths := reading.widths.set (index - 1) (some (widthOf body)) }

/-- Takes the closer of a group opened at the place `start`. -/
def closeAt (start : Nat) : Read Unit := do
  if !(← Read.accept ')') then
    Read.fail .unterminatedGroup ((← get).position - start)

/-- Skips a comment of a group, up to its closer. -/
def skipComment (start : Nat) : Nat → Read Unit
  | 0 => return ()
  | fuel + 1 => do
      match ← Read.next? with
      | none => Read.fail .unterminatedComment ((← get).position - start)
      | some sign => if sign == [')'] then return () else skipComment start fuel

/-- Skips the rest of a line. -/
def skipLine : Nat → Read Unit
  | 0 => return ()
  | fuel + 1 => do
      match ← Read.next? with
      | none => return ()
      | some sign => if sign == ['\n'] then return () else skipLine fuel

/-- What stands after the opening of a group. -/
inductive GroupStart where
  | capture (name : Option (List Char))
  | plain (on off : List Char)
  | atomic
  | look (behind negated : Bool)
  | reference (name : List Char)
  | comment
  | condition
  | flags (on : List Char)

/-- The next sign, which has to be there. -/
def nextOrFail : Read Sign := do
  match ← Read.next? with
  | some sign => return sign
  | none => Read.fail .unexpectedEnd

/-- Reads what kind of group has been opened. -/
def readGroupStart : Read GroupStart := do
  if !(← Read.accept '?') then return .capture none
  let sign ← nextOrFail
  match sign with
  | ['P'] =>
      if ← Read.accept '<' then return .capture (some (← readGroupName '>'))
      if ← Read.accept '=' then return .reference (← readGroupName ')')
      let next ← nextOrFail
      Read.fail (.unknownExtension (String.ofList ('?' :: 'P' :: next))) (next.length + 2)
  | [':'] => return .plain [] []
  | ['#'] => return .comment
  | ['='] => return .look false false
  | ['!'] => return .look false true
  | ['<'] =>
      let next ← nextOrFail
      if next == ['='] then return .look true false
      if next == ['!'] then return .look true true
      Read.fail (.unknownExtension (String.ofList ('?' :: '<' :: next))) (next.length + 2)
  | ['('] => return .condition
  | ['>'] => return .atomic
  | _ =>
      match (if sign == ['-'] then some '-' else flagOf? sign) with
      | some first =>
          match ← readFlags first with
          | .whole on => return .flags on
          | .group on off => return .plain on off
      | none =>
          Read.fail (.unknownExtension (String.ofList ('?' :: sign))) (sign.length + 1)

mutual

/-- Reads a choice between sequences.  Flags for the whole pattern may stand
only where `outermost` holds. -/
def readChoice (fuel : Nat) (mode : Mode) (outermost : Bool) : Read (List Node) :=
  match fuel with
  | 0 => pure []
  | fuel + 1 => do
      let first ← readSequence fuel mode outermost []
      match ← readAlternatives fuel mode outermost with
      | [] => return first
      | others => return [.branch (first :: others)]

/-- Reads the alternatives that follow one of a choice. -/
def readAlternatives (fuel : Nat) (mode : Mode) (outermost : Bool) :
    Read (List (List Node)) :=
  match fuel with
  | 0 => pure []
  | fuel + 1 => do
      if ← Read.accept '|' then
        let reading ← get
        let mode := if outermost then reading.flags else mode
        let next ← readSequence fuel mode false []
        return next :: (← readAlternatives fuel mode outermost)
      else return []

/-- Reads a sequence after the items `read`, the last of which comes first. -/
def readSequence (fuel : Nat) (mode : Mode) (first : Bool) (read : List Node) :
    Read (List Node) :=
  match fuel with
  | 0 => pure read.reverse
  | fuel + 1 => do
      match ← Read.peek? with
      | none | some ['|'] | some [')'] => return read.reverse
      | some sign =>
          let _ ← Read.next?
          match sign with
          | ['\\', c] =>
              let node ← readEscape mode c
              readSequence fuel mode first (node :: read)
          | [c] =>
              if mode.verbose && " \t\n\r\x0b\x0c".toList.contains c then
                readSequence fuel mode first read
              else if mode.verbose && c == '#' then
                skipLine ((← get).rest.length + 1)
                readSequence fuel mode first read
              else if c == '[' then
                let node ← readSet mode
                readSequence fuel mode first (node :: read)
              else if "*+?\x7b".toList.contains c then
                readSequence fuel mode first (← readRepetition mode c read)
              else if c == '.' then
                readSequence fuel mode first (.any mode.dotAll :: read)
              else if c == '^' then
                readSequence fuel mode first
                  (.anchor (if mode.multiline then .lineStart else .textStart) :: read)
              else if c == '$' then
                readSequence fuel mode first
                  (.anchor (if mode.multiline then .lineEnd else .finalEnd) :: read)
              else if c == '(' then readGroup fuel mode first read
              else readSequence fuel mode first (.char c false mode.folding :: read)
          | _ => return read.reverse

/-- Reads a group after its opening, and the rest of the sequence it is in. -/
def readGroup (fuel : Nat) (mode : Mode) (first : Bool) (read : List Node) :
    Read (List Node) :=
  match fuel with
  | 0 => pure read.reverse
  | fuel + 1 => do
      let start := (← get).position - 1
      match ← readGroupStart with
      | .comment =>
          skipComment start ((← get).rest.length + 1)
          readSequence fuel mode first read
      | .flags on =>
          modify fun reading => { reading with flags := on.foldl Mode.turnOn reading.flags }
          if !first || !read.isEmpty then
            Read.fail .lateFlags ((← get).position - start)
          readSequence fuel (← get).flags first read
      | .reference name =>
          let index ← groupNamed name
          let node ← referTo mode index (name.length + 1)
          readSequence fuel mode first (node :: read)
      | .condition =>
          let index ← readCondition
          let whenSet ← readSequence fuel mode false []
          let whenUnset ←
            if ← Read.accept '|' then
              let body ← readSequence fuel mode false []
              if (← Read.peek?) == some ['|'] then Read.fail .thirdBranch
              pure body
            else pure []
          closeAt start
          readSequence fuel mode first (.ifGroup index whenSet whenUnset :: read)
      | .look behind negated =>
          let outer := (← get).lookbehindFloor
          if behind && outer.isNone then
            modify fun reading =>
              { reading with lookbehindFloor := some (reading.widths.length + 1) }
          let body ← readChoice fuel mode false
          if behind then modify fun reading => { reading with lookbehindFloor := outer }
          closeAt start
          readSequence fuel mode first (.look behind negated body :: read)
      | .atomic =>
          let body ← readChoice fuel mode false
          closeAt start
          readSequence fuel mode first (.atomic body :: read)
      | .plain on off =>
          let body ← readChoice fuel (mode.within on off) false
          closeAt start
          readSequence fuel mode first (.plain body :: read)
      | .capture name =>
          let index ← openGroup name
          let body ← readChoice fuel mode false
          closeAt start
          closeGroup index body
          readSequence fuel mode first (.group index body :: read)

end

mutual

/-- The flaw of a part that only shows once the whole pattern is known. -/
def Node.lateFlaw? (template : Bool) : Node → Option Flaw
  | .char .. | .set .. | .any _ | .anchor _ | .same .. => none
  | .plain body | .group _ body | .atomic body => lateFlawIn? template body
  | .look behind _ body =>
      let width := widthOf body
      if behind && width.greatest ≠ some width.least then some .variableLookbehind
      else lateFlawIn? template body
  | .ifGroup _ whenSet whenUnset =>
      (lateFlawIn? template whenSet).or (lateFlawIn? template whenUnset)
  | .branch alternatives => lateFlawAmong? template alternatives
  | .iterate _ _ greed body =>
      if template then
        some (.templateRepetition
          (match greed with
          | .greedy => "MAX_REPEAT"
          | .lazy => "MIN_REPEAT"
          | .possessive => "POSSESSIVE_REPEAT"))
      else lateFlawIn? template body

/-- The first such flaw in a sequence. -/
def lateFlawIn? (template : Bool) : List Node → Option Flaw
  | [] => none
  | node :: rest => (node.lateFlaw? template).or (lateFlawIn? template rest)

/-- The first such flaw in some sequences. -/
def lateFlawAmong? (template : Bool) : List (List Node) → Option Flaw
  | [] => none
  | body :: rest => (lateFlawIn? template body).or (lateFlawAmong? template rest)

end

/-- Reads a whole pattern. -/
def readAll : Read (List Node) := do
  Read.refuseDangling
  let reading ← get
  let body ← readChoice (3 * reading.rest.length + 10) reading.flags true
  let reading ← get
  if reading.flags.asciiOnly && reading.flags.fullRange then throw .contradictoryFlags
  if !reading.rest.isEmpty then Read.fail .unbalancedCloser
  match reading.pending.find? (reading.widths.length < ·.1) with
  | some (index, position) =>
      throw (.malformed ⟨reading.source, .invalidGroup index, some position⟩)
  | none =>
      match lateFlawIn? reading.flags.template body with
      | some flaw => throw (.malformed ⟨reading.source, flaw, none⟩)
      | none => return body

end StyleSieve.Pattern

namespace StyleSieve

/-- A pattern that has been read. -/
structure Pattern where
  source : String
  body : List Pattern.Node
  deriving Repr

/-- The pattern that a text spells, read under some flags. -/
def Pattern.read (source : String) (flags : Pattern.Mode := {}) :
    Except Pattern.Failure Pattern :=
  (Pattern.readAll.run' { source, rest := source.toList, position := 0, flags }).map
    fun body => ⟨source, body⟩

end StyleSieve
