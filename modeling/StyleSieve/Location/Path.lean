import StyleSieve.Text.Split

/-!
# File paths

A path is a sequence of names between slashes, after a root that may be absent.
In normal form a path has neither empty names nor dots for the present
directory, and dots for the parent directory stand only where nothing can be
left out for them.
-/

namespace StyleSieve.Location

/-- The text of the root of a path.  Exactly two slashes are a root of their
own. -/
def pathRoot : List Char → List Char
  | '/' :: '/' :: '/' :: _ => ['/']
  | '/' :: '/' :: _ => ['/', '/']
  | '/' :: _ => ['/']
  | _ => []

/-- The name of a parent directory. -/
def parentName : List Char := ['.', '.']

/-- The names of a normal path, last one first, after one more name has been
followed. -/
def follow (rooted : Bool) (names : List (List Char)) (name : List Char) : List (List Char) :=
  if name = [] ∨ name = ['.'] then names
  else if name = parentName then
    match names with
    | [] => if rooted then [] else [parentName]
    | last :: before => if last = parentName then parentName :: names else before
  else name :: names

/-- The names of a path in normal form. -/
def normalNames (path : List Char) : List (List Char) :=
  ((Text.splitAtChar '/' path).foldl (follow (pathRoot path ≠ [])) []).reverse

/-- The normal form of a path.  A path ends before its first NUL, and the path
of the present directory is a dot. -/
def normalPath (path : List Char) : List Char :=
  let text := pathRoot path ++ Text.joinWith '/' (normalNames path)
  match text.takeWhile (· ≠ '\x00') with
  | [] => ['.']
  | c :: rest => c :: rest

/-- A path followed from another one.  A path with a root does not depend on
where it is followed from. -/
def joinPaths (base path : List Char) : List Char :=
  if path.head? = some '/' ∨ base = [] then path
  else if base.getLast? = some '/' then base ++ path
  else base ++ '/' :: path

/-- The directory that a path stands in: what precedes its last slash, without
slashes at the end unless there is nothing else. -/
def directory (path : List Char) : List Char :=
  let head := (path.reverse.dropWhile (· ≠ '/')).reverse
  if head.all (· = '/') then head else (head.reverse.dropWhile (· = '/')).reverse

end StyleSieve.Location
