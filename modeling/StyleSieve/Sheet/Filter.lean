import StyleSieve.Selector.Keep
import StyleSieve.Selector.Normal
import StyleSieve.Sheet.Basic

/-!
# Filtering style sheets

Filtering deletes the selectors that are neither used nor to be kept, and then
the rules that are left empty.  What stays keeps its order and its text.
-/

namespace StyleSieve

namespace Selector

/-- Whether a selector stays in a sheet: its normal form is no selector at all
but starts like an at-rule, or it is to be kept, or it is used. -/
def isWanted (entries : List KeepEntry) (used : List String) (selector : String) : Bool :=
  let normalized := normalize selector
  normalized.toList.head? == some '@' || isKept entries normalized || used.contains normalized

end Selector

namespace Rule

mutual

/-- A rule with those of its selectors that satisfy a condition. -/
def restrict (wanted : String → Bool) : Rule → Rule
  | .style selectors declarations => .style (selectors.filter wanted) declarations
  | .media condition rules => .media condition (restrictAll wanted rules)
  | .verbatim text => .verbatim text

/-- Some rules with those of their selectors that satisfy a condition. -/
def restrictAll (wanted : String → Bool) : List Rule → List Rule
  | [] => []
  | rule :: rest => rule.restrict wanted :: restrictAll wanted rest

end

mutual

/-- A rule without the empty rules in it, unless it is empty itself: a style
rule without selectors, or a media rule around nothing. -/
def prune? : Rule → Option Rule
  | .style [] _ => none
  | .style (selector :: more) declarations => some (.style (selector :: more) declarations)
  | .media condition rules =>
      match pruneAll rules with
      | [] => none
      | rule :: more => some (.media condition (rule :: more))
  | .verbatim text => some (.verbatim text)

/-- Some rules without the empty ones, at any depth. -/
def pruneAll : List Rule → List Rule
  | [] => []
  | rule :: rest =>
      match rule.prune? with
      | some kept => kept :: pruneAll rest
      | none => pruneAll rest

end

end Rule

namespace Stylesheet

/-- A style sheet with those of its selectors that satisfy a condition. -/
def restrict (wanted : String → Bool) (sheet : Stylesheet) : Stylesheet :=
  ⟨Rule.restrictAll wanted sheet.rules⟩

/-- A style sheet without its empty rules. -/
def prune (sheet : Stylesheet) : Stylesheet :=
  ⟨Rule.pruneAll sheet.rules⟩

/-- A style sheet with those of its selectors that satisfy a condition, without
the rules that are empty then. -/
def keepOnly (wanted : String → Bool) (sheet : Stylesheet) : Stylesheet :=
  (sheet.restrict wanted).prune

/-- A style sheet with the selectors that are used or to be kept. -/
def filter (entries : List Selector.KeepEntry) (used : List String)
    (sheet : Stylesheet) : Stylesheet :=
  sheet.keepOnly (Selector.isWanted entries used)

end Stylesheet

end StyleSieve
