/-!
# Paths

A path is a text whose names are separated by slashes. Empty names and the name `.` stay where they
are, except at the front, where `.` is a name and an empty name is the root.
-/

namespace DecodeTables.Storage

/-- The name of the directory that a path starts from. -/
def here : String := "."

/-- The name of the directory above. -/
def above : String := ".."

/-- The texts between slashes. -/
def pieces (path : String) : List String := path.splitOn "/"

/-- Whether a piece leads nowhere. -/
def isIdle (piece : String) : Bool := piece == "" || piece == here

/-- Pieces without the idle ones at the end; the first piece stays. -/
def dropIdle : List String → List String
  | [] => []
  | first :: rest => first :: (rest.reverse.dropWhile isIdle).reverse

/-- The path of the directory that a path lies in. Neither the root nor the empty path has one. -/
def parent? (path : String) : Option String :=
  match dropIdle (pieces path) with
  | [] | [""] => none
  | [_] => some ""
  | names =>
    match dropIdle names.dropLast with
    | [""] => some "/"
    | names => some ("/".intercalate names)

/-- The last name of a path, if it names a thing in a directory. -/
def fileName? (path : String) : Option String :=
  match (dropIdle (pieces path)).getLast? with
  | some name => if isIdle name || name == above then none else some name
  | none => none

/-- What stands behind the last point of the last name. A point at the front of the name does not
count. -/
def extension? (path : String) : Option String :=
  (fileName? path).bind fun name =>
    match (name.splitOn ".").reverse with
    | [] | [_] | [_, ""] => none
    | extension :: _ => some extension

end DecodeTables.Storage
