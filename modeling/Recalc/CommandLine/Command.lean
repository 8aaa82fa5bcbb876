/-
Recalc/CommandLine/Command.lean

The commands and how arguments ask for them.

Arguments count in order: what is wrong or asks for help first decides, whatever follows.
No option may be given twice to one command.
-/
import Recalc.CommandLine.Arguments

namespace Recalc.CommandLine

/-- How a compilation is printed. -/
inductive OutputFormat
  | json
  | summary
deriving DecidableEq, Repr

/-- The format of a name. -/
def OutputFormat.ofName? : String → Option OutputFormat
  | "json" => some .json
  | "summary" => some .summary
  | _ => none

/-- A wish to compile a workbook. -/
structure CompileRequest where
  /-- Where the workbook is. -/
  snapshot : String
  /-- Where the options are. -/
  config : Option String
  format : OutputFormat
  /-- Where the compilation goes. -/
  output : Option String
  /-- Keep to one thread; no result depends on it. -/
  noParallel : Bool
deriving DecidableEq, Repr

/-- What there is help about. -/
inductive Topic
  | program
  | help
  /-- Compiling, shortly or at length. -/
  | compile (atLength : Bool)
deriving DecidableEq, Repr

/-- What arguments ask for. -/
inductive Command
  | compile (request : CompileRequest)
  | help (topic : Topic)
  | version
deriving DecidableEq, Repr

/-- The files that a command reads. -/
def Command.reads : Command → List String
  | .compile request => request.config.toList ++ [request.snapshot]
  | _ => []

/-- The options in front of a command. -/
def programOptions : List OptionSpec :=
  [⟨"verbose", some 'v', false⟩, ⟨"help", some 'h', false⟩, ⟨"version", some 'V', false⟩]

/-- The options of compiling. -/
def compileOptions : List OptionSpec :=
  [⟨"config", some 'c', true⟩, ⟨"format", some 'f', true⟩, ⟨"output", some 'o', true⟩,
    ⟨"no-parallel", none, false⟩, ⟨"verbose", some 'v', false⟩, ⟨"help", some 'h', false⟩]

/-! ### Compiling -/

/-- What of a wish has been said. -/
structure Wish where
  snapshot : Option String
  /-- Options with values. -/
  values : List (String × String)
  flags : List String

/-- The wish if everything needed has been said. -/
def Wish.command? (w : Wish) : Option Command := do
  let format ← match List.lookup "format" w.values with
    | some name => OutputFormat.ofName? name
    | none => some .summary
  return .compile ⟨← w.snapshot, List.lookup "config" w.values, format,
    List.lookup "output" w.values, w.flags.contains "no-parallel"⟩

/-- Whether an option takes a value: formats are listed, and no path is empty. -/
def acceptsValue (name value : String) : Bool :=
  if name == "format" then (OutputFormat.ofName? value).isSome else value != ""

/-- The command of some parts. -/
def compileCommand? (w : Wish) : List Part → Option Command
  | [] => w.command?
  | .word text :: rest =>
    if w.snapshot.isNone && text != "" then
      compileCommand? { w with snapshot := some text } rest
    else none
  | .flag "help" byLetter :: _ => some (.help (.compile (!byLetter)))
  | .flag name _ :: rest =>
    if w.flags.contains name then none
    else compileCommand? { w with flags := name :: w.flags } rest
  | .option name value :: rest =>
    if (List.lookup name w.values).isNone && acceptsValue name value then
      compileCommand? { w with values := (name, value) :: w.values } rest
    else none
  | .awaiting _ :: _ => none
  | .unknown :: _ => none

/-! ### All commands -/

/-- What the options in front of a command amount to: a command of their own, a fault, or the
flags given so far. -/
def programFlags (flags : List String) : List Part → Except (Option Command) (List String)
  | [] => .ok flags
  | .flag "help" _ :: _ => .error (some (.help .program))
  | .flag "version" _ :: _ => .error (some .version)
  | .flag name _ :: rest =>
    if flags.contains name then .error none else programFlags (name :: flags) rest
  | _ :: _ => .error none

/-- The command behind some flags. -/
def commandAfter? (flags : List String) : List String → Option Command
  | [] => none
  | "--" :: _ => none
  | "compile" :: rest => compileCommand? ⟨none, [], []⟩ (parts compileOptions rest)
  | ["help"] => some (.help .program)
  | ["help", "help"] => some (.help .help)
  | ["help", "compile"] => some (.help (.compile true))
  | argument :: rest =>
    match programFlags flags (argumentParts programOptions argument) with
    | .ok flags => commandAfter? flags rest
    | .error command => command

/-- The command that arguments ask for, if they are in order. -/
def Command.ofArguments? (arguments : List String) : Option Command := commandAfter? [] arguments

end Recalc.CommandLine
