/-
Recalc/CommandLine/Help.lean

What the program says about itself.
-/
import Recalc.CommandLine.Command

namespace Recalc.CommandLine

/-- The version of the program. -/
def version : String := "0.1.0"

/-- Help about the program. -/
def programHelp (program : String) : List String := [
  "Spreadsheet formula compiler",
  "",
  s!"Usage: {program} [OPTIONS] <COMMAND>",
  "",
  "Commands:",
  "  compile  Compile a classified workbook snapshot (JSON)",
  "  help     Print this message or the help of the given subcommand(s)",
  "",
  "Options:",
  "  -v, --verbose  Enable verbose output",
  "  -h, --help     Print help",
  "  -V, --version  Print version"]

/-- Help about compiling, an option a line. -/
def compileHelp (program : String) : List String := [
  "Compile a classified workbook snapshot (JSON)",
  "",
  s!"Usage: {program} compile [OPTIONS] <SNAPSHOT>",
  "",
  "Arguments:",
  "  <SNAPSHOT>  ",
  "",
  "Options:",
  "  -c, --config <FILE>    Compiler options file (.yaml, .yml, or .json)",
  "  -v, --verbose          Enable verbose output",
  "  -f, --format <FORMAT>  Output format [default: summary] [possible values: json, summary]",
  "  -o, --output <FILE>    Write the JSON output to a file instead of stdout",
  "      --no-parallel      Parse and evaluate on the current thread only",
  "  -h, --help             Print help (see more with '--help')"]

/-- Help about compiling, at length. -/
def compileHelpAtLength (program : String) : List String := [
  "Compile a classified workbook snapshot (JSON)",
  "",
  s!"Usage: {program} compile [OPTIONS] <SNAPSHOT>",
  "",
  "Arguments:",
  "  <SNAPSHOT>",
  "          ",
  "",
  "Options:",
  "  -c, --config <FILE>",
  "          Compiler options file (.yaml, .yml, or .json)",
  "",
  "  -v, --verbose",
  "          Enable verbose output",
  "",
  "  -f, --format <FORMAT>",
  "          Output format",
  "          ",
  "          [default: summary]",
  "",
  "          Possible values:",
  "          - json:    Full compilation output as JSON",
  "          - summary: Colored human-readable summary (default)",
  "",
  "  -o, --output <FILE>",
  "          Write the JSON output to a file instead of stdout",
  "",
  "      --no-parallel",
  "          Parse and evaluate on the current thread only",
  "",
  "  -h, --help",
  "          Print help (see a summary with '-h')"]

/-- Help about help. -/
def helpHelp (program : String) : List String := [
  "Print this message or the help of the given subcommand(s)",
  "",
  s!"Usage: {program} help [COMMAND]...",
  "",
  "Arguments:",
  "  [COMMAND]...  Print help for the subcommand(s)"]

/-- The lines about a topic. -/
def Topic.lines (program : String) : Topic → List String
  | .program => programHelp program
  | .help => helpHelp program
  | .compile false => compileHelp program
  | .compile true => compileHelpAtLength program

end Recalc.CommandLine
