/-
Recalc/Json/Writer.lean

Writing JSON text, on one line or indented by two spaces a level.  Doubles have a point
or an exponent, so that they read back as doubles; those that are not finite are written
`null`.
-/
import Recalc.Json.Basic

namespace Recalc.Json

/-- Doubles in documents: positional from `1e-5` up to `1e16`, with `.0` on integral ones. -/
def numberStyle : NumberStyle := ⟨fun lead => -5 ≤ lead ∧ lead ≤ 15, true⟩

/-- A double as a number of a document. -/
def floatText (x : Float) : String :=
  if x.isFinite then numberStyle.write x else "null"

/-- A character inside a string. -/
def escaped (c : Char) : List Char :=
  if c = '"' ∨ c = '\\' then ['\\', c]
  else if c = '\n' then ['\\', 'n']
  else if c = '\r' then ['\\', 'r']
  else if c = '\t' then ['\\', 't']
  else if c = '\x08' then ['\\', 'b']
  else if c = '\x0c' then ['\\', 'f']
  else if c.toNat < 32 then ['\\', 'u'] ++ zeroHex c.toNat
  else [c]
where
  /-- Four hexadecimal digits. -/
  zeroHex (n : Nat) : List Char :=
    let ds := Nat.toDigits 16 n
    List.replicate (4 - ds.length) '0' ++ ds

/-- A string in quotes. -/
def quotedString (s : String) : String :=
  String.ofList ('"' :: s.toList.flatMap escaped ++ ['"'])

mutual

/-- Append a document, on one line. -/
def compactOnto (out : String) : Json → String
  | .null => out ++ "null"
  | .bool b => out ++ (if b then "true" else "false")
  | .int n => out ++ toString n
  | .float x => out ++ floatText x
  | .string s => out ++ quotedString s
  | .unpaired => out ++ "null"
  | .array items => compactItems (out ++ "[") "" items ++ "]"
  | .object fields => compactFields (out ++ "\x7b") "" fields ++ "\x7d"

/-- Append items, each after a separator. -/
def compactItems (out separator : String) : List Json → String
  | [] => out
  | j :: rest => compactItems (compactOnto (out ++ separator) j) "," rest

/-- Append fields, each after a separator. -/
def compactFields (out separator : String) : List (String × Json) → String
  | [] => out
  | (name, j) :: rest =>
    compactFields (compactOnto (out ++ separator ++ quotedString name ++ ":") j) "," rest

end

/-- A document on one line. -/
def compact (j : Json) : String := compactOnto "" j

/-- A new line at a level of nesting. -/
def newLine (depth : Nat) : String :=
  String.ofList ('\n' :: List.replicate (2 * depth) ' ')

mutual

/-- Append a document whose inner lines are indented below `depth`. -/
def prettyOnto (depth : Nat) (out : String) : Json → String
  | .array [] => out ++ "[]"
  | .array items => prettyItems (depth + 1) (out ++ "[") "" items ++ newLine depth ++ "]"
  | .object [] => out ++ "\x7b\x7d"
  | .object fields =>
    prettyFields (depth + 1) (out ++ "\x7b") "" fields ++ newLine depth ++ "\x7d"
  | j => compactOnto out j

/-- Append items, each on a line of its own. -/
def prettyItems (depth : Nat) (out separator : String) : List Json → String
  | [] => out
  | j :: rest =>
    prettyItems depth (prettyOnto depth (out ++ separator ++ newLine depth) j) "," rest

/-- Append fields, each on a line of its own. -/
def prettyFields (depth : Nat) (out separator : String) : List (String × Json) → String
  | [] => out
  | (name, j) :: rest =>
    prettyFields depth
      (prettyOnto depth (out ++ separator ++ newLine depth ++ quotedString name ++ ": ") j) "," rest

end

/-- A document with one item or field a line. -/
def pretty (j : Json) : String := prettyOnto 0 "" j

end Recalc.Json
