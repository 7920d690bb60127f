import DecodeTables.Storage.Basic
import DecodeTables.Storage.Path

/-!
# File trees

A `FileTree` is a directory with all that it holds, as a value, and a `Storage` for programs that run
on it. A place in the tree is the list of the names that lead to it. What lies above the directory, or
at the root of the machine, is not in the tree but is a directory.
-/

namespace DecodeTables

/-- What a name in a directory stands for. -/
inductive FileNode where
  | directory
  | file (content : ByteArray)

/-- The nodes of a directory by place. -/
structure FileTree where
  nodes : List (List String × FileNode) := []

namespace FileTree

open Storage

/-- The longest name that a directory can hold, in bytes. -/
def longestName : Nat := 255

/-- Bytes that a path must stay below. -/
def pathLimit : Nat := 4096

/-- The place that an absolute path starts from. -/
def root : List String := ["/"]

/-- Whether a place lies outside the tree: the root, or a place above the directory. -/
def isOutside (place : List String) : Bool := place == root || place.all (· == above)

variable (t : FileTree)

def find? (place : List String) : Option FileNode :=
  if isOutside place then some .directory else t.nodes.lookup place

def isDirectory (place : List String) : Bool :=
  match t.find? place with
  | some .directory => true
  | _ => false

/-- Puts a node at a place, instead of the one there. -/
def set (place : List String) (node : FileNode) : FileTree :=
  if (t.nodes.lookup place).isSome then
    ⟨t.nodes.map fun e => if e.1 = place then (place, node) else e⟩
  else ⟨t.nodes ++ [(place, node)]⟩

/-- The place above. -/
def up (place : List String) : List String :=
  if place == root then root
  else if place.all (· == above) then place ++ [above]
  else place.dropLast

/-- Whether a text can be a path at all. -/
def isPath (path : String) : Bool :=
  path != "" && path.utf8ByteSize < pathLimit && !path.toList.contains (Char.ofNat 0)

/-- Where a path starts, and the pieces that follow. -/
def origin (path : String) : List String × List String :=
  match pieces path with
  | "" :: rest => (root, rest)
  | names => ([], names)

/-- The place of a piece in a directory. -/
def enter (place : List String) (piece : String) : List String :=
  if isIdle piece then place else if piece == above then up place else place ++ [piece]

/-- Follows pieces from a directory; all of them must lead to directories. -/
def walk (place : List String) : List String → Option (List String)
  | [] => some place
  | piece :: rest =>
    let next := enter place piece
    if t.isDirectory next then walk next rest else none

/-- The place that a path leads to, whether or not there is something. A path whose last piece is no
name leads to a directory. -/
def locate? (path : String) : Option (List String) :=
  if !isPath path then none
  else
    let (start, names) := origin path
    match names.getLast? with
    | none => some start
    | some last =>
      if isIdle last || last == above then t.walk start names
      else (t.walk start names.dropLast).map fun place => place ++ [last]

/-- The content of the file that a path leads to. -/
def read? (path : String) : Option ByteArray :=
  match (t.locate? path).bind t.find? with
  | some (.file content) => some content
  | _ => none

/-- Follows pieces from a directory and creates those that are missing. Stops at a file. -/
def makeAll (t : FileTree) (place : List String) : List String → Bool × FileTree
  | [] => (true, t)
  | piece :: rest =>
    let next := enter place piece
    match t.find? next with
    | some .directory => t.makeAll next rest
    | some (.file _) => (false, t)
    | none =>
      if piece.utf8ByteSize ≤ longestName then (t.set next .directory).makeAll next rest
      else (false, t)

/-- Creates the directories of a path that are missing. -/
def createDirectories (path : String) : Bool × FileTree :=
  if isPath path then
    let (start, names) := origin path
    t.makeAll start names
  else (false, t)

/-- Replaces the content of the file that a path leads to, or creates it. -/
def write (path : String) (content : ByteArray) : Bool × FileTree :=
  match t.locate? path with
  | none => (false, t)
  | some place =>
    match t.find? place with
    | some .directory => (false, t)
    | some (.file _) => (true, t.set place (.file content))
    | none =>
      if (place.getLast?.getD "").utf8ByteSize ≤ longestName then
        (true, t.set place (.file content))
      else (false, t)

/-- Puts a file into the tree, with the directories that it lies in. -/
def addFile (path : String) (content : ByteArray) : FileTree :=
  let made := match parent? path with
    | some directory => if directory == "" then t else (t.createDirectories directory).2
    | none => t
  (made.write path content).2

/-- The files of the tree, with their paths. -/
def files : List (String × ByteArray) :=
  t.nodes.filterMap fun (place, node) =>
    match node with
    | .file content =>
      if place.head? == some above || place.head? == root.head? then none
      else some ("/".intercalate place, content)
    | .directory => none

instance : Storage (StateM FileTree) where
  isFile path := return ((← get).read? path).isSome
  readText path := return ((← get).read? path).bind String.fromUTF8?
  createDirectories path := modifyGet fun t => t.createDirectories path
  writeText path text := modifyGet fun t => t.write path text.toUTF8

end FileTree

end DecodeTables
