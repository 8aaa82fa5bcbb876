/-
Recalc/CommandLine/Run.lean

What a command does.

Running is a function of the texts that can be read.  A file to write is part of the answer:
writing may still fail, so there is an outcome for each case.  The exit code is 0 if the
workbook can proceed and 2 if it cannot; 1 is for failures, and 2 without any output for
arguments that are not in order.
-/
import Recalc.CommandLine.Help
import Recalc.Document.Compilation
import Recalc.Document.Options
import Recalc.Document.Snapshot
import Recalc.Json.Writer
import Recalc.Workbook.Summary

namespace Recalc.CommandLine

/-- What a run shows. -/
structure Outcome where
  exit : Nat
  output : String
  /-- What went wrong. -/
  complaint : Option String
deriving DecidableEq, Repr

/-- A run up to the writing of a file. -/
structure Plan where
  /-- A path and what goes there. -/
  file : Option (String × String)
  done : Outcome
  /-- The outcome if the file cannot be written. -/
  blocked : Outcome
deriving DecidableEq, Repr

/-- Lines as a text. -/
def ofLines (lines : List String) : String := String.join (lines.map (· ++ "\n"))

/-- A run that ends in failure, with the cause if it is known. -/
def Outcome.failure (what : String) (cause : Option String) : Outcome :=
  let tail := match cause with
    | some text => "\n\nCaused by:\n    " ++ text
    | none => ""
  ⟨1, "", some ("Error: " ++ what ++ tail)⟩

/-- A run that writes no file. -/
def Plan.simple (o : Outcome) : Plan := ⟨none, o, o⟩

/-! ### Options -/

/-- What stands behind the last point of a file's name, unless the name begins there. -/
def extension? (path : String) : Option String :=
  let name := (path.toList.reverse.takeWhile (· != '/')).reverse
  let tail := (name.reverse.takeWhile (· != '.')).reverse
  if tail.length + 1 < name.length then some (String.ofList tail) else none

/-- The format of options in a file. -/
def optionsFormat? (path : String) : Option OptionsFormat :=
  match extension? path with
  | some "yaml" => some .yaml
  | some "yml" => some .yaml
  | some "json" => some .json
  | _ => none

/-- The options in a file, or the cause why there are none if it is known. -/
def loadOptions (read : String → Option String) (path : String) :
    Except (Option String) CompilerOptions := do
  let some text := read path | .error none
  let some format := optionsFormat? path
    | .error (some (OptionsError.extension ((extension? path).getD "") path).message)
  let some options := CompilerOptions.parse? format text | .error none
  options.validated.mapError fun e => some e.message

/-! ### Compiling -/

/-- The compilation that is asked for. -/
def CompileRequest.compilation (r : CompileRequest) (read : String → Option String) :
    Except Outcome Compilation := do
  let options ← match r.config with
    | some path =>
      (loadOptions read path).mapError (Outcome.failure ("Failed to load config: " ++ path))
    | none => pure .standard
  let options := { options with parallel := options.parallel && !r.noParallel }
  let some snapshot := (read r.snapshot).bind Snapshot.parse?
    | .error (.failure ("Failed to read snapshot: " ++ r.snapshot) none)
  (snapshot.compile options none).mapError fun e =>
    .failure ("Failed to compile " ++ r.snapshot) (some e.message)

/-- The plan of a compilation. -/
def CompileRequest.plan (r : CompileRequest) (read : String → Option String) : Plan :=
  match r.compilation read with
  | .error o => .simple o
  | .ok c =>
    let ended (output : String) : Outcome := ⟨if c.errors.canProceed then 0 else 2, output, none⟩
    match r.output, r.format with
    | some path, _ =>
      ⟨some (path, c.toJson.pretty), ended (ofLines c.summary),
        .failure ("Failed to write output: " ++ path) none⟩
    | none, .json => .simple (ended (c.toJson.pretty ++ "\n"))
    | none, .summary => .simple (ended (ofLines c.summary))

/-! ### Any command -/

/-- The plan for some arguments. -/
def plan (program : String) (read : String → Option String) (arguments : List String) : Plan :=
  match Command.ofArguments? arguments with
  | some (.compile request) => request.plan read
  | some (.help topic) => .simple ⟨0, ofLines (topic.lines program), none⟩
  | some .version => .simple ⟨0, program ++ " " ++ version ++ "\n", none⟩
  | none => .simple ⟨2, "", some (ofLines (programHelp program))⟩

end Recalc.CommandLine
