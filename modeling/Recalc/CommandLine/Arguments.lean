/-
Recalc/CommandLine/Arguments.lean

The arguments of a command line, taken apart.

An option has a long name and perhaps a letter.  Its value follows as the next argument, or
in the same one: `--name=value`, `-nvalue`, `-n=value`.  Letters without values can share an
argument.  Behind `--` every argument is a word, and so is `-` anywhere.  An argument that
begins with a hyphen otherwise is never taken for the value of an option.
-/

namespace Recalc.CommandLine

/-- An option that a command knows. -/
structure OptionSpec where
  name : String
  letter : Option Char
  takesValue : Bool

/-- A part of the arguments. -/
inductive Part
  | word (text : String)
  /-- An option without value, by its letter or by its name. -/
  | flag (name : String) (byLetter : Bool)
  | option (name value : String)
  /-- An option whose value is the next argument. -/
  | awaiting (name : String)
  /-- Neither a word nor a known option, or one with a value amiss. -/
  | unknown
deriving DecidableEq, Repr

/-- The parts of an argument of letters. -/
def letterParts (specs : List OptionSpec) : List Char → List Part
  | [] => []
  | c :: rest =>
    match specs.find? (·.letter == some c) with
    | none => [.unknown]
    | some spec =>
      if spec.takesValue then
        match rest with
        | [] => [.awaiting spec.name]
        | '=' :: value => [.option spec.name (String.ofList value)]
        | value => [.option spec.name (String.ofList value)]
      else .flag spec.name true :: letterParts specs rest

/-- The part that a long name is, with its value if one is attached. -/
def namePart (specs : List OptionSpec) (cs : List Char) : Part :=
  let name := String.ofList (cs.takeWhile (· != '='))
  match specs.find? (·.name == name), cs.dropWhile (· != '=') with
  | some spec, [] => if spec.takesValue then .awaiting spec.name else .flag spec.name false
  | some spec, _ :: value =>
    if spec.takesValue then .option spec.name (String.ofList value) else .unknown
  | none, _ => .unknown

/-- The parts of one argument other than `--`. -/
def argumentParts (specs : List OptionSpec) (argument : String) : List Part :=
  match argument.toList with
  | '-' :: '-' :: name => [namePart specs name]
  | '-' :: c :: letters => letterParts specs (c :: letters)
  | _ => [.word argument]

/-- Whether an argument can be the value of the option before it. -/
def canBeValue (argument : String) : Bool :=
  match argument.toList with
  | '-' :: _ :: _ => false
  | _ => true

/-- The parts behind the given ones, which may await a value. -/
def settle (found : List Part) (rest : List String) : List Part × List String :=
  match found.getLast?, rest with
  | some (.awaiting name), value :: rest =>
    if canBeValue value then (found.dropLast ++ [.option name value], rest)
    else (found.dropLast ++ [.unknown], value :: rest)
  | some (.awaiting _), [] => (found.dropLast ++ [.unknown], [])
  | _, _ => (found, rest)

/-- A value is all that settling takes from the arguments. -/
theorem length_settle_le (found : List Part) (rest : List String) :
    (settle found rest).2.length ≤ rest.length := by
  unfold settle
  split
  · split <;> simp
  · simp
  · simp

/-- The parts of all arguments. -/
def parts (specs : List OptionSpec) : List String → List Part
  | [] => []
  | argument :: rest =>
    if argument = "--" then rest.map .word
    else
      let settled := settle (argumentParts specs argument) rest
      settled.1 ++ parts specs settled.2
termination_by arguments => arguments.length
decreasing_by
  have := length_settle_le (argumentParts specs argument) rest
  simp only [List.length_cons]
  omega

end Recalc.CommandLine
