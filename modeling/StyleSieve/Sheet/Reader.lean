import StyleSieve.Css.Nesting
import StyleSieve.Css.Statement
import StyleSieve.Sheet.Basic
import StyleSieve.Text.Blank

/-!
# Reading style sheets

The statements of a sheet become its rules.  A media rule with a body is read
in turn, to any depth; any other at-rule is kept as it is written.  A statement
that is no at-rule must end with a block, and one that reaches the end of its
list without a block is the only error.
-/

namespace StyleSieve

open Css

/-- A statement of a rule list that has neither an at-keyword nor a block,
with the position of its last component. -/
structure UnfinishedRule where
  position : Position
  deriving DecidableEq, Repr

/-- The wording of the error. -/
def UnfinishedRule.message (_ : UnfinishedRule) : String :=
  "invalid: EOF reached before \x7b\x7d block for a qualified rule."

/-- A statement of a declaration list that was dropped, with its position. -/
structure DroppedDeclaration where
  position : Position
  cause : Invalid
  deriving DecidableEq, Repr

/-- Whether a rule list stands in a block; the comment delimiters of markup
are skipped only where it does not. -/
inductive Level where
  | outermost
  | inBlock
  deriving DecidableEq, Repr

/-- Whether a component between two statements means nothing. -/
def Level.skips (level : Level) (component : Component) : Bool :=
  component.isGap ||
    (level = .outermost && (component.isDelim "<!--" || component.isDelim "-->"))

/-- The trimmed text of components. -/
def trimmedText (components : List Component) : String :=
  String.ofList (Text.trim (Css.write components))

/-- The pieces of a list between its separators; there is one piece more than
separators. -/
def splitAtEvery (separates : Component → Bool) : List Component → List (List Component)
  | [] => [[]]
  | next :: rest =>
      match splitAtEvery separates rest with
      | piece :: pieces =>
          if separates next then [] :: piece :: pieces
          else (next :: piece) :: pieces
      | [] => [[next]]

/-- The selectors of a prelude: the trimmed texts between its commas, those
that are empty left out. -/
def selectorsOfPrelude (prelude : List Component) : List String :=
  ((splitAtEvery (·.isDelim ",") prelude).map trimmedText).filter (· ≠ "")

/-- The text of an entry of a declaration list, unless it is invalid. -/
def declarationText? : Entry → Option String
  | .declaration name value important =>
      some (String.ofList name ++ ": " ++ trimmedText value ++
        if important then " !important" else "")
  | .atRule rule => some (String.ofList (Text.trim rule.write))
  | .invalid .. => none

/-- The declarations of a block, as text. -/
def declarationsOf (content : List Component) : List String :=
  (entries content).filterMap declarationText?

/-- Whether an at-rule encloses rules. -/
def encloses (rule : AtRule) : Bool :=
  lowerAscii rule.name == "media".toList && rule.body.isSome

/-- A statement of a rule list: a style rule, a media rule with the statements
that it encloses, or any other at-rule. -/
inductive Statement where
  | style (prelude content : List Component)
  | media (prelude : List Component) (inner : List Statement)
  | atRule (rule : AtRule)

mutual

/-- The statements in a block.  The error is the offset of the last component of
the first statement that is unfinished. -/
def statementsInside : Component → Except Nat (List Statement)
  | .token .. => .ok []
  | .block _ _ content => statementsFrom .inBlock [] content

/-- The statements of a rule list, where `read` holds the components read since
the last statement ended. -/
def statementsFrom (level : Level) (read : List Component) :
    List Component → Except Nat (List Statement)
  | [] =>
      match AtRule.ofComponents? read none, read.getLast? with
      | some rule, _ => .ok [.atRule rule]
      | none, some last => .error last.offset
      | none, none => .ok []
  | next :: rest =>
      match next.curlyContent? with
      | some content =>
          match AtRule.ofComponents? read (some content) with
          | some rule =>
              if encloses rule then do
                let inner ← statementsInside next
                let more ← statementsFrom level [] rest
                return .media rule.prelude inner :: more
              else do
                let more ← statementsFrom level [] rest
                return .atRule rule :: more
          | none => do
              let more ← statementsFrom level [] rest
              return .style read content :: more
      | none =>
          if startsAtRule read && next.isDelim ";" then
            match AtRule.ofComponents? read none with
            | some rule => do
                let more ← statementsFrom level [] rest
                return .atRule rule :: more
            | none => statementsFrom level [] rest
          else if read.isEmpty && level.skips next then statementsFrom level [] rest
          else statementsFrom level (read ++ [next]) rest

end

mutual

/-- The rule that a statement spells. -/
def Statement.toRule : Statement → Rule
  | .style prelude content => .style (selectorsOfPrelude prelude) (declarationsOf content)
  | .media prelude inner => .media (trimmedText prelude) (rulesOf inner)
  | .atRule rule => .verbatim (String.ofList (Text.trim rule.write))

/-- The rules that some statements spell. -/
def rulesOf : List Statement → List Rule
  | [] => []
  | statement :: rest => statement.toRule :: rulesOf rest

end

/-- The offsets of the declarations of a block that are dropped, with the
reasons. -/
def droppedFrom (content : List Component) : List (Nat × Invalid) :=
  (entries content).filterMap fun
    | .invalid offset cause => some (offset, cause)
    | _ => none

mutual

/-- The declarations dropped by reading the rules in a block, up to the first
unfinished statement, and whether there is one. -/
def droppedInside : Component → List (Nat × Invalid) × Bool
  | .token .. => ([], false)
  | .block _ _ content => droppedByRules .inBlock [] content

/-- The declarations dropped by reading a rule list, up to the first unfinished
statement, and whether there is one. -/
def droppedByRules (level : Level) (read : List Component) :
    List Component → List (Nat × Invalid) × Bool
  | [] => ([], !read.isEmpty && !startsAtRule read)
  | next :: rest =>
      match next.curlyContent? with
      | some content =>
          let (here, stopped) :=
            match AtRule.ofComponents? read (some content) with
            | some rule => if encloses rule then droppedInside next else ([], false)
            | none => (droppedFrom content, false)
          if stopped then (here, true)
          else
            let (later, stopped) := droppedByRules level [] rest
            (here ++ later, stopped)
      | none =>
          if startsAtRule read && next.isDelim ";" then droppedByRules level [] rest
          else if read.isEmpty && level.skips next then droppedByRules level [] rest
          else droppedByRules level (read ++ [next]) rest

end

namespace Stylesheet

instance : DecidableEq (Except UnfinishedRule Stylesheet)
  | .ok sheet, .ok sheet' => decidable_of_iff (sheet = sheet') (by simp)
  | .error error, .error error' => decidable_of_iff (error = error') (by simp)
  | .ok _, .error _ => isFalse nofun
  | .error _, .ok _ => isFalse nofun

/-- The position of the character with a given offset in a source text. -/
def positionIn (source : String) (offset : Nat) : Position :=
  .after ((normalizeNewlines source.toList).take offset)

/-- The style sheet that a source text spells. -/
def parse (source : String) : Except UnfinishedRule Stylesheet :=
  match statementsFrom .outermost [] (significantComponents source.toList) with
  | .ok statements => .ok ⟨rulesOf statements⟩
  | .error offset => .error ⟨positionIn source offset⟩

/-- The declarations that reading a source text drops, in order. -/
def droppedDeclarations (source : String) : List DroppedDeclaration :=
  (droppedByRules .outermost [] (significantComponents source.toList)).1.map
    fun (offset, cause) => ⟨positionIn source offset, cause⟩

end Stylesheet

end StyleSieve
