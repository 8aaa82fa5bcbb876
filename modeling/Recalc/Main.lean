/-
Recalc/Main.lean

The program.
-/
import Recalc.CommandLine.Run

open Recalc.CommandLine

/-- The text of a file, unless it cannot be read. -/
def readText? (path : String) : IO (Option String) := do
  try return some (← IO.FS.readFile ⟨path⟩) catch _ => return none

/-- Write a file; whether that was possible. -/
def writeText (path text : String) : IO Bool := do
  try
    IO.FS.writeFile ⟨path⟩ text
    return true
  catch _ => return false

/-- Run the command that the arguments ask for. -/
def main (arguments : List String) : IO UInt32 := do
  let paths := ((Command.ofArguments? arguments).map Command.reads).getD []
  let texts ← paths.mapM fun path => do return (path, ← readText? path)
  let p := plan "recalc" (fun path => (List.lookup path texts).join) arguments
  let outcome ← match p.file with
    | none => pure p.done
    | some (path, text) => do pure (if ← writeText path text then p.done else p.blocked)
  IO.print outcome.output
  outcome.complaint.forM fun text => IO.eprintln text
  return outcome.exit.toUInt32
