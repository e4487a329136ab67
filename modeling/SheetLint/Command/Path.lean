/-! Paths of files as they are shown. -/
namespace SheetLint.Command

/-- The names that a path is made of. Empty ones, and those that stay where they are, are left out. -/
def pathParts (path : List Char) : List (List Char) :=
  (path.splitOn '/').filter fun part => !part.isEmpty && part != ['.']

/-- The root that a path starts from. Exactly two slashes make a root of their own. -/
def pathRoot : List Char → List Char
  | '/' :: '/' :: '/' :: _ => ['/']
  | '/' :: '/' :: _ => ['/', '/']
  | '/' :: _ => ['/']
  | _ => []

/-- A path with single slashes and without steps that stay where they are. -/
def shownPath (path : String) : String :=
  let root := pathRoot path.toList
  let parts := pathParts path.toList
  if root.isEmpty && parts.isEmpty then "."
  else String.ofList (root ++ ['/'].intercalate parts)

end SheetLint.Command
