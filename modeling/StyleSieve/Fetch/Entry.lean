import StyleSieve.Location.Path
import StyleSieve.Text.Utf8

/-!
# Files

What stands at a path, and directories held as the files below them.
-/

namespace StyleSieve.Fetch

/-- What stands at a path: a file with its bytes, which may not be written to if
it is fixed; a file that may not be read; a directory; or nothing.  Where nothing
stands, a file can be made there, or the path asks for a directory, or the
directory that it would stand in is missing, or is a file, or may not be written
to.  If the directory may not be searched, or a name in the path is too long,
nothing can be told. -/
inductive Entry where
  | file (content : List UInt8)
  | fixedFile (content : List UInt8)
  | closedFile
  | directory
  | free
  | freeDirectory
  | noParent
  | belowFile
  | fixedParent
  | closedParent
  | nameTooLong
  deriving DecidableEq, Repr

/-- What stands at each path. -/
abbrev Files := String → Entry

/-- Why a file cannot be written. -/
inductive WriteError where
  | isDirectory
  | noParent
  | belowFile
  | notPermitted
  | nameTooLong
  deriving DecidableEq, Repr

/-- What keeps a file from being written where something stands. -/
def Entry.obstacle? : Entry → Option WriteError
  | .file _ | .free => none
  | .directory | .freeDirectory => some .isDirectory
  | .noParent => some .noParent
  | .belowFile => some .belowFile
  | .fixedFile _ | .closedFile | .fixedParent | .closedParent => some .notPermitted
  | .nameTooLong => some .nameTooLong

/-- A path without empty names, dots for the present directory and slashes at
its end. -/
def tidyPath (path : String) : String :=
  let names := (Text.splitAtChar '/' path.toList).filter fun name => name ≠ [] && name ≠ ['.']
  let tidied := Location.pathRoot path.toList ++ Text.joinWith '/' names
  if tidied = [] then "." else String.ofList tidied

/-- Files below one directory: the names on the way to each of them, and its
bytes. -/
abbrev FileTree := List (List (List Char) × List UInt8)

namespace FileTree

/-- The names that a path goes along; an empty one at the end stands for a slash
there. -/
def namesOf (path : List Char) : List (List Char) :=
  (Text.splitAtChar '/' path).filter (· ≠ []) ++
    if path.getLast? = some '/' then [[]] else []

/-- Whether names lead to a directory: some file stands below it. -/
def isDirectory (tree : FileTree) (names : List (List Char)) : Bool :=
  names = [] || tree.any fun file => names.isPrefixOf file.1 && file.1 ≠ names

/-- The longest name of a file, in bytes. -/
def longestName : Nat := 255

/-- What stands where names lead to from the place at `here`.  What is above the
tree is not known, and files can be made there. -/
def follow (tree : FileTree) (here : List (List Char)) : List (List Char) → Entry
  | [] =>
      match tree.lookup here with
      | some content => .file content
      | none => if tree.isDirectory here then .directory else .free
  | name :: rest =>
      if (tree.lookup here).isSome then .belowFile
      else if !tree.isDirectory here then if name = [] then .freeDirectory else .noParent
      else if name = [] ∨ name = ['.'] then follow tree here rest
      else if name = Location.parentName then
        if here = [] then .free else follow tree here.dropLast rest
      else if (String.ofList name).utf8ByteSize > longestName then .nameTooLong
      else follow tree (here ++ [name]) rest

/-- What stands at a path that starts in the directory of the tree. -/
def entry (tree : FileTree) : Files := fun path =>
  if path.toList.contains '\x00' then .noParent
  else if path.utf8ByteSize ≥ 4096 then .nameTooLong
  else if path.toList.head? = some '/' then .free
  else if path = "" then .noParent
  else tree.follow [] (namesOf path.toList)

/-- The tree with a file written. -/
def put (tree : FileTree) (path : String) (content : List UInt8) : FileTree :=
  let names := Location.normalNames path.toList
  (names, content) :: tree.filter (·.1 ≠ names)

end FileTree

end StyleSieve.Fetch
