/-!
# Style sheets

A style sheet is a list of rules.  A style rule gives its declarations to the
elements that its selectors match; a media rule encloses rules that hold under
a condition; any other rule is kept as it is written and never inspected.
-/

namespace StyleSieve

/-- A rule of a style sheet. -/
inductive Rule where
  | style (selectors declarations : List String)
  | media (condition : String) (rules : List Rule)
  | verbatim (text : String)
  deriving Inhabited, Repr

namespace Rule

mutual

/-- Decides whether two rules are the same. -/
def decEq : (first second : Rule) → Decidable (first = second)
  | .style selectors declarations, .style selectors' declarations' =>
      decidable_of_iff (selectors = selectors' ∧ declarations = declarations') (by simp)
  | .media condition rules, .media condition' rules' =>
      have := decEqAll rules rules'
      decidable_of_iff (condition = condition' ∧ rules = rules') (by simp)
  | .verbatim text, .verbatim text' => decidable_of_iff (text = text') (by simp)
  | .style .., .media .. => isFalse nofun
  | .style .., .verbatim _ => isFalse nofun
  | .media .., .style .. => isFalse nofun
  | .media .., .verbatim _ => isFalse nofun
  | .verbatim _, .style .. => isFalse nofun
  | .verbatim _, .media .. => isFalse nofun

/-- Decides whether two lists of rules are the same. -/
def decEqAll : (first second : List Rule) → Decidable (first = second)
  | [], [] => isTrue rfl
  | rule :: rest, rule' :: rest' =>
      have := decEq rule rule'
      have := decEqAll rest rest'
      decidable_of_iff (rule = rule' ∧ rest = rest') (by simp)
  | [], _ :: _ => isFalse nofun
  | _ :: _, [] => isFalse nofun

end

instance : DecidableEq Rule := decEq

end Rule

/-- An ordered list of rules. -/
structure Stylesheet where
  rules : List Rule := []
  deriving DecidableEq, Repr

namespace Rule

mutual

/-- The selectors of a rule, those of enclosed rules included, in order. -/
def selectors : Rule → List String
  | .style selectors _ => selectors
  | .media _ rules => selectorsOf rules
  | .verbatim _ => []

/-- The selectors of a list of rules, in order. -/
def selectorsOf : List Rule → List String
  | [] => []
  | rule :: rest => rule.selectors ++ selectorsOf rest

end

mutual

/-- The sum of a measure over the style rules in a rule. -/
def total (measure : List String → List String → Nat) : Rule → Nat
  | .style selectors declarations => measure selectors declarations
  | .media _ rules => totalOf measure rules
  | .verbatim _ => 0

/-- The sum of a measure over the style rules in a list of rules. -/
def totalOf (measure : List String → List String → Nat) : List Rule → Nat
  | [] => 0
  | rule :: rest => rule.total measure + totalOf measure rest

end

end Rule

namespace Stylesheet

/-- The selectors of a style sheet, at any depth, in order. -/
def selectors (sheet : Stylesheet) : List String :=
  Rule.selectorsOf sheet.rules

/-- The number of style rules, at any depth. -/
def ruleCount (sheet : Stylesheet) : Nat :=
  Rule.totalOf (fun _ _ => 1) sheet.rules

/-- The number of selectors, at any depth. -/
def selectorCount (sheet : Stylesheet) : Nat :=
  Rule.totalOf (fun selectors _ => selectors.length) sheet.rules

/-- One style sheet after another. -/
def append (first second : Stylesheet) : Stylesheet :=
  ⟨first.rules ++ second.rules⟩

end Stylesheet

end StyleSieve
