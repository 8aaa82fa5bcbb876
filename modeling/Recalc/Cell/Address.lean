/-
Recalc/Cell/Address.lean

Cell addresses without their sheet: column letters, row numbers, and the form `B5`.

Columns are counted from 1 and spelt in the bijective base 26 of the letters A to Z, so
`Z` is 26 and `AA` is 27.  `letters` and `parse` are the two directions of this codec;
letters are counted in 32 bits, and a number that does not fit is refused like every
column beyond `maxColumn`.  A row beyond `maxRow` is no address either.  An anchor `$` may
stand before the letters and before the digits and says nothing.
-/
import Recalc.Text.Blank

namespace Recalc

/-- The last row of a sheet. -/
def maxRow : Nat := 1048576

/-- The last column of a sheet. -/
def maxColumn : Nat := 16384

/-- Why a text is no address, or two corners no range. -/
inductive AddressError
  | invalidAddress (text : String)
  | invalidColumn (letters : String)
  | invalidRow (digits : String)
  | missingSheet (text : String)
  | sheetMismatch (one other : String)
  | rangeTooLarge (cells limit : Nat)
deriving DecidableEq, Repr

/-- The wording of an address error. -/
def AddressError.message : AddressError → String
  | .invalidAddress text => s!"Invalid address: {text}"
  | .invalidColumn letters => s!"Invalid column: {letters}"
  | .invalidRow digits => s!"Invalid row: {digits}"
  | .missingSheet text => s!"Address '{text}' has no sheet qualifier"
  | .sheetMismatch one other => s!"Range corners are on different sheets: {one} and {other}"
  | .rangeTooLarge cells limit => s!"range too large: {cells} cells (max {limit})"

namespace Column

/-- The letters of a column, in front of `acc`; none for column 0. -/
def lettersOnto (column : Nat) (acc : List Char) : List Char :=
  if 0 < column then
    lettersOnto ((column - 1) / 26) (Char.ofNat ('A'.toNat + (column - 1) % 26) :: acc)
  else acc
termination_by column

/-- The letters of a column: 1 is `A`, 26 is `Z`, 27 is `AA`. -/
def letters (column : Nat) : String :=
  String.ofList (lettersOnto column [])

/-- The place of an ASCII letter in the alphabet, from 1, whatever its case. -/
def letterValue (c : Char) : Nat :=
  c.toUpper.toNat - 'A'.toNat + 1

/-- A number in 32 bits; none if it does not fit. -/
def word? (n : Nat) : Option UInt32 :=
  if n < UInt32.size then some (UInt32.ofNat n) else none

/-- The number that letters spell behind those of `n`; none if a character is no letter, or as
soon as a product or a sum does not fit. -/
def number? (n : UInt32) : List Char → Option UInt32
  | [] => some n
  | c :: rest =>
    if c.isAlpha then do
      let shifted ← word? (n.toNat * 26)
      let n ← word? (shifted.toNat + letterValue c)
      number? n rest
    else none

/-- The column that letters spell. -/
def parse (s : String) : Except AddressError Nat :=
  if s.toList = [] then .error (.invalidColumn s)
  else match number? 0 s.toList with
    | none => .error (.invalidColumn s)
    | some n => if n.toNat ≤ maxColumn then .ok n.toNat else .error (.invalidColumn s)

end Column

namespace Row

/-- The number that a run of digits spells. -/
def ofDigits (cs : List Char) : Nat :=
  cs.foldl (fun n c => 10 * n + (c.toNat - '0'.toNat)) 0

/-- The row that a run of digits spells. -/
def parse (s : String) : Except AddressError Nat :=
  let row := ofDigits s.toList
  if 1 ≤ row ∧ row ≤ maxRow then .ok row else .error (.invalidRow s)

end Row

/-- A cell of some sheet, counted from 1. -/
structure Address where
  column : Nat
  row : Nat
deriving DecidableEq, Repr

namespace Address

/-- Without one anchor in front. -/
def dropAnchor : List Char → List Char
  | '$' :: rest => rest
  | cs => cs

/-- Letters in upper case and digits of a text that has the form of an address. -/
def split? (cs : List Char) : Option (String × String) :=
  let body := dropAnchor cs
  let letters := body.takeWhile Char.isAlpha
  let digits := dropAnchor (body.dropWhile Char.isAlpha)
  if letters ≠ [] ∧ digits ≠ [] ∧ digits.all Char.isDigit then
    some (String.ofList (letters.map Char.toUpper), String.ofList digits)
  else none

/-- The address that letters and digits make; a bad column is told before a bad row. -/
def ofSplit (letters digits : String) : Except AddressError Address := do
  let column ← Column.parse letters
  let row ← Row.parse digits
  return ⟨column, row⟩

/-- Read `B5`, `$B$5` or `b5`, blanks around it allowed. -/
def parse (s : String) : Except AddressError Address :=
  let cs := Text.trimChars s.toList
  match split? cs with
  | some (letters, digits) => ofSplit letters digits
  | none => .error (.invalidAddress (String.ofList cs))

/-- The form `B5`. -/
def text (a : Address) : String :=
  Column.letters a.column ++ toString a.row

/-- The text is an address within the limits, as it stands. -/
def isAddress (s : String) : Bool :=
  match split? s.toList with
  | some (letters, digits) => (ofSplit letters digits).toOption.isSome
  | none => false

/-- What is left of a trimmed text behind all anchors in front. -/
def unanchored (s : String) : List Char :=
  (Text.trimChars s.toList).dropWhile (· = '$')

/-- The column of a text that names a column alone, such as `$G`. -/
def column? (s : String) : Option Nat :=
  let cs := unanchored s
  if cs ≠ [] ∧ cs.all Char.isAlpha then (Column.parse (String.ofList cs)).toOption else none

/-- The row of a text that names a row alone, such as `$4`. -/
def row? (s : String) : Option Nat :=
  let cs := unanchored s
  if cs ≠ [] ∧ cs.all Char.isDigit then (Row.parse (String.ofList cs)).toOption else none

end Address

end Recalc
