import SchemaReview.Text.Basic

/-!
# Path.Basic — paths of files

A path is a string of names separated by slashes.
-/

namespace SchemaReview.Path

/-- The names and empty pieces between the slashes. -/
def pieces (path : String) : List Text := Text.splitOn '/' path.toList

/-- The last name of a path. -/
def fileName (path : String) : Text := (pieces path).getLast?.getD []

/-- What follows the last dot of the file name.  A dot at its start separates nothing. -/
def extension? (path : String) : Option Text :=
  let reversed := (fileName path).reverse
  match reversed.dropWhile (· ≠ '.') with
  | '.' :: _ :: _ => some (reversed.takeWhile (· ≠ '.')).reverse
  | _ => none

/-- The path of something in a directory. -/
def join (directory name : String) : String :=
  if directory.isEmpty || directory.endsWith "/" then directory ++ name
  else directory ++ "/" ++ name

/-- The directories in which a directory given by its names lies, itself first and the root
last. -/
def ancestors (names : List String) : List String :=
  (List.range (names.length + 1)).reverse.map fun n => "/" ++ "/".intercalate (names.take n)

end SchemaReview.Path
