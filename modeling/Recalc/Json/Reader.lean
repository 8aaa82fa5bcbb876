/-
Recalc/Json/Reader.lean

Reading JSON text.  The grammar is the strict one: no blanks but space, tab, newline and
carriage return, no leading zeros, no control characters in strings, nothing behind the
document.

Design.  A string is scanned into characters and code units first, and the code units
are paired afterwards.  Values nest, so their readers take fuel; each call that nests
deeper has passed at least one character since the last but one, so twice the length of
the text is enough.
-/
import Recalc.Json.Basic

namespace Recalc.Json

/-- The blanks of JSON. -/
def isBlank (c : Char) : Bool :=
  c == ' ' || c == '\t' || c == '\n' || c == '\r'

/-- What follows the blanks. -/
def skipBlanks (cs : List Char) : List Char := cs.dropWhile isBlank

/-! ### Strings -/

/-- A piece of a string: a character, or a code unit written in hexadecimal. -/
inductive Piece
  | char (c : Char)
  | unit (n : Nat)

/-- The value of a hexadecimal digit. -/
def hexDigit? (c : Char) : Option Nat :=
  if c.isDigit then some (c.toNat - '0'.toNat)
  else if 'a' ≤ c ∧ c ≤ 'f' then some (c.toNat - 'a'.toNat + 10)
  else if 'A' ≤ c ∧ c ≤ 'F' then some (c.toNat - 'A'.toNat + 10)
  else none

/-- Four hexadecimal digits. -/
def hexUnit? (a b c d : Char) : Option Nat := do
  let a ← hexDigit? a
  let b ← hexDigit? b
  let c ← hexDigit? c
  let d ← hexDigit? d
  return ((a * 16 + b) * 16 + c) * 16 + d

/-- The character that a one-letter escape stands for. -/
def shortEscape? : Char → Option Char
  | '"' => some '"'
  | '\\' => some '\\'
  | '/' => some '/'
  | 'b' => some '\x08'
  | 'f' => some '\x0c'
  | 'n' => some '\n'
  | 'r' => some '\r'
  | 't' => some '\t'
  | _ => none

/-- The pieces of a string up to its closing quote, last one first, and what follows. -/
def scanString (acc : List Piece) : List Char → Option (List Piece × List Char)
  | '"' :: rest => some (acc, rest)
  | '\\' :: 'u' :: a :: b :: c :: d :: rest =>
    match hexUnit? a b c d with
    | some n => scanString (.unit n :: acc) rest
    | none => none
  | '\\' :: e :: rest =>
    match shortEscape? e with
    | some c => scanString (.char c :: acc) rest
    | none => none
  | c :: rest => if c.toNat < 32 then none else scanString (.char c :: acc) rest
  | [] => none

/-- A code unit that opens a surrogate pair. -/
def isHigh (n : Nat) : Bool := 0xD800 ≤ n && n < 0xDC00

/-- A code unit that closes a surrogate pair. -/
def isLow (n : Nat) : Bool := 0xDC00 ≤ n && n < 0xE000

/-- The characters of some pieces, given last one first; none if a surrogate has no partner. -/
def joinPieces (acc : List Char) : List Piece → Option (List Char)
  | [] => some acc
  | .char c :: rest => joinPieces (c :: acc) rest
  | .unit lo :: .unit hi :: rest =>
    if isLow lo then
      if isHigh hi then
        joinPieces (Char.ofNat (0x10000 + (hi - 0xD800) * 0x400 + (lo - 0xDC00)) :: acc) rest
      else none
    else if isHigh lo then none
    else joinPieces (Char.ofNat lo :: acc) (.unit hi :: rest)
  | .unit n :: rest =>
    if isLow n || isHigh n then none else joinPieces (Char.ofNat n :: acc) rest

/-- The string behind an opening quote, and what follows it. -/
def readString (cs : List Char) : Option (Json × List Char) :=
  (scanString [] cs).map fun (pieces, rest) =>
    match joinPieces [] pieces with
    | some text => (.string (String.ofList text), rest)
    | none => (.unpaired, rest)

/-! ### Numbers -/

/-- The digits in front and what follows them. -/
def spanDigits (cs : List Char) : List Char × List Char :=
  (cs.takeWhile Char.isDigit, cs.dropWhile Char.isDigit)

/-- The fraction, if a point follows: its digits and what follows them. -/
def fraction? : List Char → Option (List Char × List Char)
  | '.' :: rest =>
    let (ds, tail) := spanDigits rest
    if ds = [] then none else some (ds, tail)
  | cs => some ([], cs)

/-- The exponent, if one follows, and what follows it. -/
def exponentPart? : List Char → Option (Option Int × List Char)
  | [] => some (none, [])
  | c :: rest =>
    if c = 'e' ∨ c = 'E' then
      let (negative, body) := Decimal.splitSign rest
      let (ds, tail) := spanDigits body
      let n : Int := Decimal.ofDigits ds
      if ds = [] then none else some (some (if negative then -n else n), tail)
    else some (none, c :: rest)

/-- A number and what follows it. -/
def readNumber (cs : List Char) : Option (Json × List Char) := do
  let negative := cs.head? == some '-'
  let (whole, afterWhole) := spanDigits (if negative then cs.drop 1 else cs)
  if whole = [] ∨ (1 < whole.length ∧ whole.head? = some '0') then none
  else
    let (fraction, afterFraction) ← fraction? afterWhole
    let (exponent, rest) ← exponentPart? afterFraction
    let n := Decimal.ofDigits (whole ++ fraction)
    if fraction = [] ∧ exponent = none ∧ ¬ (negative ∧ n = 0) then
      return (.int (if negative then -(n : Int) else n), rest)
    else
      return (.float (Decimal.toFloat ⟨negative, n, exponent.getD 0 - fraction.length⟩), rest)

/-! ### Values -/

/-- One more field in front of those read; none if a name is no text. -/
def addField (name item : Json) (fields : Option (List (String × Json))) :
    Option (List (String × Json)) :=
  match name, fields with
  | .string s, some fs => some ((s, item) :: fs)
  | _, _ => none

/-- The object of some fields, given last one first. -/
def ofReversed : Option (List (String × Json)) → Json
  | some fields => .object fields.reverse
  | none => .unpaired

mutual

/-- A value, blanks in front allowed, and what follows it. -/
def readValue : Nat → List Char → Option (Json × List Char)
  | 0, _ => none
  | fuel + 1, cs =>
    match skipBlanks cs with
    | 'n' :: 'u' :: 'l' :: 'l' :: rest => some (.null, rest)
    | 't' :: 'r' :: 'u' :: 'e' :: rest => some (.bool true, rest)
    | 'f' :: 'a' :: 'l' :: 's' :: 'e' :: rest => some (.bool false, rest)
    | '"' :: rest => readString rest
    | '[' :: rest =>
      match skipBlanks rest with
      | ']' :: tail => some (.array [], tail)
      | _ => readItems fuel [] rest
    | '\x7b' :: rest =>
      match skipBlanks rest with
      | '\x7d' :: tail => some (.object [], tail)
      | _ => readMembers fuel (some []) rest
    | other => readNumber other

/-- The items of an array from the next one on; those before it, last one first, are `acc`. -/
def readItems : Nat → List Json → List Char → Option (Json × List Char)
  | 0, _, _ => none
  | fuel + 1, acc, cs =>
    match readValue fuel cs with
    | none => none
    | some (item, rest) =>
      match skipBlanks rest with
      | ',' :: tail => readItems fuel (item :: acc) tail
      | ']' :: tail => some (.array (item :: acc).reverse, tail)
      | _ => none

/-- The fields of an object from the next one on; there are none to tell once a name was no
text. -/
def readMembers : Nat → Option (List (String × Json)) → List Char → Option (Json × List Char)
  | 0, _, _ => none
  | fuel + 1, acc, cs =>
    match skipBlanks cs with
    | '"' :: quoted =>
      match readString quoted with
      | none => none
      | some (name, rest) =>
        match skipBlanks rest with
        | ':' :: body =>
          match readValue fuel body with
          | none => none
          | some (item, rest) =>
            let fields := addField name item acc
            match skipBlanks rest with
            | ',' :: tail => readMembers fuel fields tail
            | '\x7d' :: tail => some (ofReversed fields, tail)
            | _ => none
        | _ => none
    | _ => none

end

/-- The document that a text is. -/
def parse? (s : String) : Option Json :=
  let cs := s.toList
  match readValue (2 * cs.length + 2) cs with
  | some (j, rest) => if skipBlanks rest = [] then some j else none
  | none => none

end Recalc.Json
