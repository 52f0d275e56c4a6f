/-
# Trees of files

The files that a program can see, by their places. A path is followed one name
at a time: each step but the last must lead to a directory, a blank name and
`.` stay where they are, and `..` goes up. How a path fails to lead anywhere is
told by the error number of the system.

Key definitions: `FileNode`, `FileTree`, `FileTree.walk`, `FileTree.find`,
`FileTree.read`, `FileTree.map`, `FileTree.names`, `FileTree.create`.
-/
import Profiler.Error
import Profiler.OrderedMap
import Profiler.Text.Blank
import Profiler.Text.Utf8

namespace Profiler

inductive FileNode where
  | file (bytes : Bytes)
  | directory
  deriving DecidableEq, Repr, Inhabited

/-- The names that lead from the root of a tree to a place in it. -/
abbrev Place := List String

/-- Files and directories by their places. The root is always a directory. -/
structure FileTree where
  nodes : OrderedMap Place FileNode := ⟨[]⟩
  deriving Repr, Inhabited

namespace FileTree

def namesOf (path : String) : List String :=
  (splitWhere (· == '/') path.toList).map String.ofList

def node? (t : FileTree) (place : Place) : Option FileNode :=
  if place.isEmpty then some .directory else t.nodes.get? place

def above : Place → List Place
  | [] => []
  | name :: rest => [] :: (above rest).map (name :: ·)

def put (t : FileTree) (place : Place) (node : FileNode) : FileTree :=
  let dirs := (above place).foldl (fun nodes p => nodes.insert p .directory) t.nodes
  ⟨if place.isEmpty then dirs else dirs.insert place node⟩

/-- Put files into a tree. A path that ends in a slash is a directory. -/
def putFiles (t : FileTree) (files : List (String × Bytes)) : FileTree :=
  files.foldl (fun t (path, bytes) =>
    t.put ((namesOf path).filter (!·.isEmpty))
      (if path.endsWith "/" then .directory else .file bytes)) t

/-- The longest name that a directory holds. -/
def maxName : Nat := 255

/-- Where names lead from a place. -/
def walk (t : FileTree) (place : Place) : List String → Except IoFailure Place
  | [] => .ok place
  | name :: rest =>
    if t.node? place ≠ some .directory then .error (.os 20)
    else if name.isEmpty ∨ name = "." then t.walk place rest
    else if name = ".." then t.walk place.dropLast rest
    else if maxName < name.utf8ByteSize then .error (.os 36)
    else if (t.node? (place ++ [name])).isSome then t.walk (place ++ [name]) rest
    else .error (.os 2)

def find (t : FileTree) (path : String) : Except IoFailure Place :=
  if path.contains '\x00' then .error .nulInPath
  else if path.isEmpty then .error (.os 2)
  else t.walk [] (namesOf path)

def exists? (t : FileTree) (path : String) : Bool := (t.find path).isOk

def isDirectory (t : FileTree) (path : String) : Bool :=
  match t.find path with
  | .ok place => t.node? place = some .directory
  | .error _ => false

def bytesOr (t : FileTree) (fault : IoFailure) (path : String) : Except IoFailure Bytes := do
  match t.node? (← t.find path) with
  | some (.file bytes) => return bytes
  | _ => throw fault

def read (t : FileTree) : String → Except IoFailure Bytes := t.bytesOr (.os 21)

def map (t : FileTree) : String → Except IoFailure Bytes := t.bytesOr (.os 19)

def readText (t : FileTree) (path : String) : Except IoFailure String := do
  match Utf8.decode? (← t.read path) with
  | some s => return s
  | none => throw .notUtf8

def names (t : FileTree) (path : String) : Except IoFailure (List String) := do
  let place ← t.find path
  if t.node? place ≠ some .directory then throw (.os 20)
  return t.nodes.keys.filterMap fun p => if p.dropLast = place then p.getLast? else none

/-- The place of a file that is to be written anew. It may be there already,
and the directory that it is in must be. -/
def create (t : FileTree) (path : String) : Except IoFailure Place :=
  match t.find path with
  | .ok place => if t.node? place = some .directory then .error (.os 21) else .ok place
  | .error fault =>
    if fault = .nulInPath ∨ path.isEmpty then .error fault
    else do
      let names := namesOf path
      let name := names.getLastD ""
      let parent ← t.walk [] names.dropLast
      if t.node? parent ≠ some .directory then throw (.os 20)
      if name.isEmpty then throw (.os 21)
      if maxName < name.utf8ByteSize then throw (.os 36)
      return parent ++ [name]

end FileTree
end Profiler
