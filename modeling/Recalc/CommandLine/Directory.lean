/-
Recalc/CommandLine/Directory.lean

A directory of text files, and the run of a command in it.
-/
import Recalc.CommandLine.Run

namespace Recalc.CommandLine

/-- Files below a directory, by the names on the way to them. -/
structure Directory where
  files : List (List String × String)

/-- The names of a path that stays below the directory, `.` meaning no step. -/
def pathNames? (path : String) : Option (List String) :=
  let names := path.splitOn "/"
  if path.startsWith "/" || names.contains ".." || ["", "."].contains (names.getLast?.getD "") then
    none
  else some (names.filter fun n => n != "" && n != ".")

namespace Directory

/-- Files given by paths. -/
def ofFiles (files : List (String × String)) : Directory :=
  ⟨files.filterMap fun (path, text) => (pathNames? path).map (·, text)⟩

/-- The text of a file. -/
def read? (d : Directory) (path : String) : Option String := do
  List.lookup (← pathNames? path) d.files

/-- Whether files lie below these names. -/
def isFolder (d : Directory) (names : List String) : Bool :=
  names.isEmpty || d.files.any fun (file, _) => names.isPrefixOf file && names != file

/-- Write a file, over an old one or into a folder that is there. -/
def write? (d : Directory) (path text : String) : Option Directory := do
  let names ← pathNames? path
  if d.isFolder names.dropLast && !d.isFolder names then
    some ⟨(names, text) :: d.files.filter fun (file, _) => file != names⟩
  else none

/-- Run a command: what it shows, and the directory afterwards. -/
def run (d : Directory) (program : String) (arguments : List String) : Outcome × Directory :=
  let p := plan program d.read? arguments
  match p.file with
  | none => (p.done, d)
  | some (path, text) =>
    match d.write? path text with
    | some after => (p.done, after)
    | none => (p.blocked, d)

end Directory

end Recalc.CommandLine
