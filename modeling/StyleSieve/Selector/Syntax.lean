import StyleSieve.Selector.Refusal

/-!
# The structure of selectors

A complex selector is a chain of compound selectors; a compound selector is a
list of simple selectors that all speak about one element.
-/

namespace StyleSieve.Selector

open Css

/-- How an element stands to the one before it in a chain. -/
inductive Combinator where
  | descendant
  | child
  | next
  | following
  deriving DecidableEq, Repr

/-- How the value of an attribute is compared with a text. -/
inductive Comparison where
  | equals
  | hasWord
  | dashed
  | starts
  | ends
  | contains
  deriving DecidableEq, Repr

/-- A condition on an attribute. -/
structure AttributeTest where
  anyNamespace : Bool
  name : List Char
  comparison : Option (Comparison × List Char) := none
  ignoreCase : Bool := false
  deriving DecidableEq, Repr

mutual

/-- A condition on one element.  A function keeps its arguments, and the
selectors after the word `of` in them, with the failure that ends these. -/
inductive Simple where
  | type (name : List Char)
  | noNamespace
  | id (name : List Char)
  | className (name : List Char)
  | attribute (test : AttributeTest)
  | pseudoClass (name : List Char)
  | function (name : List Char) (arguments : List Component) (hasOf : Bool)
      (among : List Complex) (failure : Option Failure)
  | not (selectors : List Complex)
  | anyOf (selectors : List Complex)
  | has (selectors : List Relative)

/-- A chain of compound selectors. -/
inductive Complex where
  | compound (simples : List Simple)
  | combined (left : Complex) (combinator : Combinator) (right : List Simple)

/-- A selector for elements that stand in a relation to a given one. -/
inductive Relative where
  | mk (combinator : Combinator) (selector : Complex)

end

/-- A list of selectors as far as it can be read, with the failure that ends
it. -/
structure SelectorList where
  selectors : List Complex
  failure : Option Failure

end StyleSieve.Selector
