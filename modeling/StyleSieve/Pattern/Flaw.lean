import StyleSieve.Text.Quoted

/-!
# Flaws of patterns

What can be wrong with the spelling of a pattern, and how it is reported.
-/

namespace StyleSieve.Pattern

/-- Why a text spells no pattern. -/
inductive Flaw where
  | danglingEscape
  | badEscape (spelling : String)
  | incompleteEscape (spelling : String)
  | octalTooLarge (spelling : String)
  | missingBrace
  | unknownCharacterName (name : String)
  | missingName (what : String)
  | unterminatedName (terminator : Char)
  | badGroupName (name : String)
  | unknownGroupName (name : String)
  | repeatedGroupName (name : String) (index earlier : Nat)
  | badGroupNumber
  | invalidGroup (index : Nat)
  | openGroup
  | groupInSameLookbehind
  | unterminatedSet
  | badRange (first last : String)
  | swappedBounds
  | nothingToRepeat
  | repeatedRepetition
  | unexpectedEnd
  | unknownExtension (spelling : String)
  | unterminatedComment
  | unterminatedGroup
  | unbalancedCloser
  | thirdBranch
  | lateFlags
  | localeFlag
  | conflictingFlags
  | unknownFlag
  | missingFlag
  | missingFlagEnd (expected : String)
  | globalFlagOn
  | globalFlagOff
  | typeFlagOff
  | flagOnAndOff
  | variableLookbehind
  | templateRepetition (kind : String)
  deriving DecidableEq, Repr

/-- The wording of a flaw. -/
def Flaw.wording : Flaw → String
  | .danglingEscape => "bad escape (end of pattern)"
  | .badEscape spelling => "bad escape " ++ spelling
  | .incompleteEscape spelling => "incomplete escape " ++ spelling
  | .octalTooLarge spelling =>
      "octal escape value " ++ spelling ++ " outside of range 0-0o377"
  | .missingBrace => "missing \x7b"
  | .unknownCharacterName name => "undefined character name " ++ Text.quoted name
  | .missingName what => "missing " ++ what
  | .unterminatedName terminator =>
      "missing " ++ terminator.toString ++ ", unterminated name"
  | .badGroupName name => "bad character in group name " ++ Text.quoted name
  | .unknownGroupName name => "unknown group name " ++ Text.quoted name
  | .repeatedGroupName name index earlier =>
      "redefinition of group name " ++ Text.quoted name ++ " as group " ++ toString index ++
        "; was group " ++ toString earlier
  | .badGroupNumber => "bad group number"
  | .invalidGroup index => "invalid group reference " ++ toString index
  | .openGroup => "cannot refer to an open group"
  | .groupInSameLookbehind =>
      "cannot refer to group defined in the same lookbehind subpattern"
  | .unterminatedSet => "unterminated character set"
  | .badRange first last => "bad character range " ++ first ++ "-" ++ last
  | .swappedBounds => "min repeat greater than max repeat"
  | .nothingToRepeat => "nothing to repeat"
  | .repeatedRepetition => "multiple repeat"
  | .unexpectedEnd => "unexpected end of pattern"
  | .unknownExtension spelling => "unknown extension " ++ spelling
  | .unterminatedComment => "missing ), unterminated comment"
  | .unterminatedGroup => "missing ), unterminated subpattern"
  | .unbalancedCloser => "unbalanced parenthesis"
  | .thirdBranch => "conditional backref with more than two branches"
  | .lateFlags => "global flags not at the start of the expression"
  | .localeFlag => "bad inline flags: cannot use 'L' flag with a str pattern"
  | .conflictingFlags => "bad inline flags: flags 'a', 'u' and 'L' are incompatible"
  | .unknownFlag => "unknown flag"
  | .missingFlag => "missing flag"
  | .missingFlagEnd expected => "missing " ++ expected
  | .globalFlagOn => "bad inline flags: cannot turn on global flag"
  | .globalFlagOff => "bad inline flags: cannot turn off global flag"
  | .typeFlagOff => "bad inline flags: cannot turn off flags 'a', 'u' and 'L'"
  | .flagOnAndOff => "bad inline flags: flag turned on and off"
  | .variableLookbehind => "look-behind requires fixed-width pattern"
  | .templateRepetition kind => "internal: unsupported template operator " ++ kind

/-- A flaw, and its place in the pattern if it has one. -/
structure Malformed where
  source : String
  flaw : Flaw
  position : Option Nat
  deriving DecidableEq, Repr

/-- The report of a flaw: its wording and its place, with line and column where
the pattern has several lines. -/
def Malformed.message (error : Malformed) : String :=
  match error.position with
  | none => error.flaw.wording
  | some position =>
      let before := error.source.toList.take position
      let column := position - (before.length - (before.reverse.takeWhile (· ≠ '\n')).length) + 1
      error.flaw.wording ++ " at position " ++ toString position ++
        if error.source.toList.contains '\n' then
          " (line " ++ toString (before.count '\n' + 1) ++ ", column " ++ toString column ++ ")"
        else ""

/-- Why a pattern cannot be used.  A count of rounds may be too large, and
flags may contradict each other, without a flaw in the spelling. -/
inductive Failure where
  | malformed (error : Malformed)
  | countTooLarge
  | contradictoryFlags
  deriving DecidableEq, Repr

/-- The wording of a failure. -/
def Failure.message : Failure → String
  | .malformed error => error.message
  | .countTooLarge => "the repetition number is too large"
  | .contradictoryFlags => "ASCII and UNICODE flags are incompatible"

end StyleSieve.Pattern
