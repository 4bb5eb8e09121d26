import StyleSieve.Location.Path
import StyleSieve.Location.Url

/-!
# Resolving references

A document refers to its style sheets by references.  From a document with an
address they lead to addresses; from a document in a file they lead to files.
-/

namespace StyleSieve.Location

/-- Where style sheets are looked for, besides the place of the document. -/
structure Lookup where
  root : Option String := none
  subdirectory : String := ""
  deriving DecidableEq, Repr

/-- Whether a location is fetched over the network. -/
def isUrl (location : String) : Bool :=
  "http".toList.isPrefixOf location.toList

/-- The scheme of the address of a document, empty for a file. -/
def schemeOf (source : String) : Except UrlError (List Char) :=
  if isUrl source then (Url.parse source.toList).map (·.scheme) else .ok []

/-- A reference without its query and its fragment. -/
def withoutQuery (reference : List Char) : List Char :=
  (Text.cutAt (· == '#') (Text.cutAt (· == '?') reference).1).1

/-- The file that a reference leads to from a document in a file.  A reference
that starts at the root is followed from the root directory if there is one. -/
def resolveFile (source reference : List Char) (lookup : Lookup) : List Char :=
  let path := withoutQuery reference
  let relative := path.dropWhile (· == '/')
  match lookup.root.map String.toList with
  | some (c :: root) =>
      if path.head? = some '/' then normalPath (joinPaths (c :: root) relative)
      else beside relative
  | _ => beside relative
where
  /-- The file with a path that is followed from beside the document. -/
  beside (relative : List Char) : List Char :=
    normalPath
      (joinPaths (joinPaths (directory source) lookup.subdirectory.toList) relative)

/-- The location that a reference leads to from a document. -/
def resolve (source reference : String) (lookup : Lookup) : Except UrlError String :=
  if isUrl reference then .ok reference
  else do
    let scheme ← schemeOf source
    if "//".toList.isPrefixOf reference.toList then
      return String.ofList (if scheme = [] then "http".toList else scheme) ++ ":" ++ reference
    else if scheme ≠ [] then
      return String.ofList (← Url.join source.toList reference.toList)
    else
      return String.ofList (resolveFile source.toList reference.toList lookup)

/-- The locations that references lead to from a document. -/
def resolveAll (source : String) (references : List String) (lookup : Lookup) :
    Except UrlError (List String) :=
  references.mapM fun reference => resolve source reference lookup

/-- Whether resolving a reference from a document looks for a root directory
that is not known. -/
def lacksRoot (source reference : String) (lookup : Lookup) : Bool :=
  !isUrl reference && !"//".toList.isPrefixOf reference.toList &&
    (withoutQuery reference.toList).head? == some '/' &&
    (schemeOf source).toOption == some [] && lookup.root.all (· == "")

end StyleSieve.Location
