import StyleSieve.Sheet.Basic

/-!
# Printing style sheets

A rule inside a media rule stands two columns further to the right.  Rules of
the outermost list have an empty line between them, and the text of a sheet
that is not empty ends with a newline.
-/

namespace StyleSieve

/-- The indentation of rules at a nesting depth. -/
def indentation (depth : Nat) : String :=
  String.ofList (List.replicate (2 * depth) ' ')

namespace Rule

mutual

/-- The text of a rule at a nesting depth. -/
def print (depth : Nat) : Rule → String
  | .style selectors declarations =>
      let pad := indentation depth
      let body := declarations.map fun declaration =>
        indentation (depth + 1) ++ declaration ++ ";\n"
      pad ++ (",\n" ++ pad).intercalate selectors ++ " \x7b\n" ++ String.join body ++ pad ++ "\x7d"
  | .media condition rules =>
      indentation depth ++ "@media " ++ condition ++ " \x7b\n" ++
        "\n".intercalate (printAll (depth + 1) rules) ++ "\n" ++ indentation depth ++ "\x7d"
  | .verbatim text => indentation depth ++ text

/-- The texts of rules at a nesting depth. -/
def printAll (depth : Nat) : List Rule → List String
  | [] => []
  | rule :: rest => rule.print depth :: printAll depth rest

end

end Rule

/-- The text of a style sheet. -/
def Stylesheet.print (sheet : Stylesheet) : String :=
  if sheet.rules.isEmpty then ""
  else "\n\n".intercalate (Rule.printAll 0 sheet.rules) ++ "\n"

end StyleSieve
