/-
Recalc/Cell/SheetName.lean

Sheet names in references.  A name is written bare if it consists of ASCII letters,
digits and underscores, does not start with a digit and does not read as an address;
every other name stands in single quotes, with a quote inside written twice.

`splitQualifier` takes the sheet off the front of a reference.  A quoted name may hold
any character, `!` included, so its closing quote is looked for; a bare name reaches
to the last `!`.
-/
import Recalc.Cell.Address

namespace Recalc.SheetName

/-- A name that needs no quotes. -/
def isBare (name : String) : Bool :=
  let cs := name.toList
  !cs.isEmpty && cs.all (fun c => c.isAlphanum || c == '_') && !(cs.head?.any Char.isDigit) &&
    !Address.isAddress name

/-- Quotes written twice. -/
def doubleQuotes (cs : List Char) : List Char :=
  cs.flatMap fun c => if c = '\'' then ['\'', '\''] else [c]

/-- A name as references write it. -/
def written (name : String) : String :=
  if isBare name then name
  else String.ofList ('\'' :: doubleQuotes name.toList ++ ['\''])

/-- Pairs of quotes made one, from the left. -/
def halveQuotes : List Char → List Char
  | '\'' :: '\'' :: rest => '\'' :: halveQuotes rest
  | c :: rest => c :: halveQuotes rest
  | [] => []

/-- The name inside single quotes; none if the text is not in quotes. -/
def unquote? (s : String) : Option String :=
  match s.toList with
  | '\'' :: rest =>
    match rest.reverse with
    | '\'' :: inner => some (String.ofList (halveQuotes inner.reverse))
    | _ => none
  | _ => none

/-- Read up to the closing quote: the name and what follows the quote. -/
def closeQuote? : List Char → Option (List Char × List Char)
  | '\'' :: '\'' :: rest => (closeQuote? rest).map fun (name, tail) => ('\'' :: name, tail)
  | '\'' :: rest => some ([], rest)
  | c :: rest => (closeQuote? rest).map fun (name, tail) => (c :: name, tail)
  | [] => none

/-- Cut a text at its last `!`. -/
def cutLastBang (cs : List Char) : Option (List Char × List Char) :=
  let reversed := cs.reverse
  let tail := reversed.takeWhile (· ≠ '!')
  match reversed.dropWhile (· ≠ '!') with
  | _ :: name => some (name.reverse, tail.reverse)
  | [] => none

/-- The sheet in front of a trimmed reference, if there is one, and the rest. -/
def splitQualifier (s : String) : Option String × String :=
  let cs := Text.trimChars s.toList
  let whole := (none, String.ofList cs)
  match cs with
  | '\'' :: rest =>
    match closeQuote? rest with
    | some (name, '!' :: address) => (some (String.ofList name), String.ofList address)
    | _ => whole
  | _ =>
    match cutLastBang cs with
    | some (name, address) =>
      if name = [] then whole else (some (String.ofList name), String.ofList address)
    | none => whole

end Recalc.SheetName
