/-!
# Normal selectors

Some pseudo-classes and pseudo-elements depend on what a visitor does, on the
state of a control, or on generated content, so no fixed document can tell
whether they apply.  A selector is normalized by deleting them from its text;
what is left decides whether it is used.
-/

namespace StyleSieve.Selector

/-- The pseudo-classes and pseudo-elements that no fixed document decides. -/
def statePseudos : List String :=
  [":link", ":visited",
   ":hover", ":active", ":focus",
   ":enabled", ":disabled", ":checked", ":indeterminate",
   "::first-line", "::first-letter", "::selection", "::before", "::after",
   ":before", ":after"]

/-- The first of the state pseudos that a text starts with. -/
def leadingPseudo? (text : List Char) : Option (List Char) :=
  (statePseudos.map String.toList).find? (·.isPrefixOf text)

/-- The text after its first `skip` characters without the state pseudos in it,
found from left to right and without overlap. -/
def withoutPseudos (skip : Nat) : List Char → List Char
  | [] => []
  | c :: rest =>
      match skip with
      | skip + 1 => withoutPseudos skip rest
      | 0 =>
          match leadingPseudo? (c :: rest) with
          | some pseudo => withoutPseudos (pseudo.length - 1) rest
          | none => c :: withoutPseudos 0 rest

/-- A selector without its state pseudos. -/
def normalize (selector : String) : String :=
  String.ofList (withoutPseudos 0 selector.toList)

end StyleSieve.Selector
