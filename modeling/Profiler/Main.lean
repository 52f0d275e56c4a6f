/-
# The command line

Runs the program on the files of the system. What the program does is a
function of a machine; so it is run on a machine that holds the files seen so
far, and again with each path that it looked at put in, until it looks at
nothing new. There are no events on this machine: opening one fails.

Key definitions: `visit`, `settle`, `main`.
-/
import Profiler.Command.Program

open Profiler

/-- Where the names of a path lead, and the tree with the directories on the
way. -/
def pathPlace (t : FileTree) (path : String) : FileTree × Place :=
  (FileTree.namesOf path).foldl (fun (t, place) name =>
    if name.isEmpty ∨ name = "." then (t, place)
    else (t.put place .directory, if name = ".." then place.dropLast else place ++ [name]))
    (t, [])

/-- Put what the system has at a path into a tree. -/
def visit (t : FileTree) (path : String) : IO FileTree := do
  try
    let found ← IO.FS.realPath path
    let (t, place) := pathPlace t path
    if ← found.isDir then
      let entries ← found.readDir
      return entries.foldl (fun t entry =>
        let inside := place ++ [entry.fileName]
        if (t.node? inside).isSome then t else t.put inside (.file []))
        (t.put place .directory)
    else return t.put place (.file (← IO.FS.readBinFile path).toList)
  catch _ => return t

/-- Put what the system has at some paths into a machine. -/
def visitAll (m : Machine) (paths : List String) : IO Machine :=
  paths.foldlM (fun m path => do
    if path.startsWith "/" then return { m with root := ← visit m.root path }
    else return { m with work := ← visit m.work path }) m

/-- The error number of a call that the system does not have. -/
def missingCall : Nat := 38

/-- Run the program until it looks at no path that was not visited. -/
partial def settle (words : List String) (m : Machine) (visited : List String) :
    IO (Nat × Machine) := do
  let (status, after) := Program.run words m
  let fresh := (after.paths.filter (!visited.contains ·)).eraseDups
  if fresh.isEmpty then return (status, after)
  settle words (← visitAll m fresh) (fresh ++ visited)

def main (words : List String) : IO UInt32 := do
  let settings : Machine.Settings :=
    { invocation := "rsperf" :: words, noEvents? := some missingCall }
  let (status, m) ← settle words { settings } []
  for n in m.notices.reverse do
    IO.eprintln s!"[{n.level.name}] {n.message}"
  IO.print m.printed
  IO.eprint m.remarks
  return UInt32.ofNat status
