import StyleSieve.Pattern.Source
import StyleSieve.Text.Letters

/-!
# Flags in patterns

Flags are turned on for the whole pattern, or turned on and off for a group.
-/

namespace StyleSieve.Pattern

/-- The letters that are flags. -/
def isFlagLetter (c : Char) : Bool :=
  "iLmsxatu".toList.contains c

/-- Whether a flag says which characters letters and digits are. -/
def isTypeFlag (c : Char) : Bool :=
  c == 'a' || c == 'u' || c == 'L'

/-- Some flags with one more turned on. -/
def Mode.turnOn (mode : Mode) (flag : Char) : Mode :=
  match flag with
  | 'i' => { mode with ignoreCase := true }
  | 'm' => { mode with multiline := true }
  | 's' => { mode with dotAll := true }
  | 'x' => { mode with verbose := true }
  | 'a' => { mode with asciiOnly := true }
  | 'u' => { mode with fullRange := true }
  | 't' => { mode with template := true }
  | _ => mode

/-- Some flags with one turned off. -/
def Mode.turnOff (mode : Mode) (flag : Char) : Mode :=
  match flag with
  | 'i' => { mode with ignoreCase := false }
  | 'm' => { mode with multiline := false }
  | 's' => { mode with dotAll := false }
  | 'x' => { mode with verbose := false }
  | _ => mode

/-- The flags inside a group that turns some on and others off. -/
def Mode.within (mode : Mode) (on off : List Char) : Mode :=
  let plain :=
    if on.any isTypeFlag then { mode with asciiOnly := false, fullRange := false } else mode
  off.foldl Mode.turnOff (on.foldl Mode.turnOn plain)

/-- Where a flag is expected: the flag letter of a sign, if it is one. -/
def flagOf? : Sign → Option Char
  | [c] => if isFlagLetter c then some c else none
  | _ => none

/-- Fails at a sign that is no flag. -/
def refuseFlag {α : Type} (sign : Sign) (otherwise : Flaw) : Read α :=
  match sign with
  | [c] =>
      Read.fail (if Text.isAlphanumeric c && !Text.isDecimal c then .unknownFlag else otherwise) 1
  | _ => Read.fail otherwise sign.length

/-- Reads flags to turn on, the first of which is given, and the sign that ends
them. -/
def readFlagsOn (flag : Char) (on : List Char) : Nat → Read (List Char × Char)
  | 0 => Read.fail (.missingFlagEnd "-, : or )")
  | fuel + 1 => do
      if flag == 'L' then Read.fail .localeFlag
      let on := if on.contains flag then on else on ++ [flag]
      if isTypeFlag flag && (on.filter isTypeFlag).length > 1 then
        Read.fail .conflictingFlags
      match ← Read.next? with
      | none => Read.fail (.missingFlagEnd "-, : or )")
      | some sign =>
          if sign == [')'] || sign == ['-'] || sign == [':'] then
            return (on, sign.headD ':')
          match flagOf? sign with
          | some next => readFlagsOn next on fuel
          | none => refuseFlag sign (.missingFlagEnd "-, : or )")

/-- Reads flags to turn off, the first of which is given, up to the colon. -/
def readFlagsOff (flag : Char) (off : List Char) : Nat → Read (List Char)
  | 0 => Read.fail (.missingFlagEnd ":")
  | fuel + 1 => do
      if isTypeFlag flag then Read.fail .typeFlagOff
      let off := off ++ [flag]
      match ← Read.next? with
      | none => Read.fail (.missingFlagEnd ":")
      | some sign =>
          if sign == [':'] then return off
          match flagOf? sign with
          | some next => readFlagsOff next off fuel
          | none => refuseFlag sign (.missingFlagEnd ":")

/-- What flags apply to. -/
inductive FlagScope where
  | whole (on : List Char)
  | group (on off : List Char)

/-- Reads flags up to the colon or the closer after them; the first sign of
them is a flag or a minus sign, and has been read. -/
def readFlags (first : Char) : Read FlagScope := do
  let fuel := (← get).rest.length + 1
  let (on, ending) ← if first == '-' then pure ([], '-') else readFlagsOn first [] fuel
  if ending == ')' then return .whole on
  if on.contains 't' then Read.fail .globalFlagOn 1
  let off ←
    if ending == '-' then
      match ← Read.next? with
      | none => Read.fail .missingFlag
      | some sign =>
          match flagOf? sign with
          | some flag => readFlagsOff flag [] fuel
          | none => refuseFlag sign .missingFlag
    else pure []
  if off.contains 't' then Read.fail .globalFlagOff 1
  if on.any off.contains then Read.fail .flagOnAndOff 1
  return .group on off

end StyleSieve.Pattern
