/-
Recalc/Workbook/Snapshot.lean

A workbook as it is handed in: classified cells with formulas and stored values, sheets,
and names.

Sheets that differ in the case of ASCII letters are one sheet, under the spelling that
comes first.  If no sheets are declared, those of the cells count.
-/
import Recalc.Formula.NameTable
import Recalc.Graph.Basic

namespace Recalc

/-- What a cell was classified as. -/
inductive CellRole
  | input
  | formula
  | output
  | label
deriving DecidableEq, Repr

namespace CellRole

/-- The name of a classification. -/
def tag : CellRole → String
  | .input => "input"
  | .formula => "formula"
  | .output => "output"
  | .label => "label"

/-- The classification of a given name. -/
def ofTag? (s : String) : Option CellRole := [input, formula, output, label].find? (·.tag == s)

/-- The role in the graph; labels have none, and an input with a formula is a formula. -/
def nodeRole? (hasFormula : Bool) : CellRole → Option Role
  | .label => none
  | .output => some .output
  | .formula => some .formula
  | .input => some (if hasFormula then .formula else .input)

end CellRole

/-- A value as it is stored. -/
inductive StoredValue
  | number (x : Float)
  | boolean (b : Bool)
  | text (s : String)

/-- The value of a stored one; a text that spells a fault is the fault. -/
def StoredValue.toValue (isDate : Bool) : StoredValue → Value
  | .number x => if isDate then .date x else .number x
  | .boolean b => .boolean b
  | .text s => match Fault.ofLabel? s with
    | some f => .error f
    | none => .text s

/-- What a cell may hold. -/
inductive ValidationKind
  | whole
  | decimal
  | number
  | date
  | list
  | text
  | custom
deriving DecidableEq, Repr

namespace ValidationKind

/-- The name of a kind. -/
def tag : ValidationKind → String
  | .whole => "whole"
  | .decimal => "decimal"
  | .number => "number"
  | .date => "date"
  | .list => "list"
  | .text => "text"
  | .custom => "custom"

/-- The kind of a given name. -/
def ofTag? (s : String) : Option ValidationKind :=
  [whole, decimal, number, date, list, text, custom].find? (·.tag == s)

/-- The kind admits numbers only. -/
def isNumeric : ValidationKind → Bool
  | .whole => true
  | .decimal => true
  | .number => true
  | .date => true
  | _ => false

end ValidationKind

/-- The bounds and the choices of a cell. -/
structure Validation where
  kind : ValidationKind
  min : Option Float
  max : Option Float
  options : List StoredValue

/-- A classified cell. -/
structure ClassifiedCell where
  coordinate : Coordinate
  role : CellRole
  rawFormula : Option String
  currentValue : Option StoredValue
  validation : Option Validation
  iteration : Option Iteration

namespace ClassifiedCell

/-- The formula is there and not blank. -/
def hasFormula (c : ClassifiedCell) : Bool := c.rawFormula.any fun f => Text.trim f != ""

/-- The cell holds a date. -/
def isDate (c : ClassifiedCell) : Bool := c.validation.any (·.kind == .date)

/-- The stored value, blank if there is none. -/
def value (c : ClassifiedCell) : Value := (c.currentValue.map (·.toValue c.isDate)).getD .empty

/-- The stored value is a number. -/
def storesNumber (c : ClassifiedCell) : Bool :=
  match c.currentValue with
  | some (.number _) => true
  | _ => false

/-- The cell holds a number or may hold only numbers. -/
def isNumericInput (c : ClassifiedCell) : Bool :=
  c.storesNumber || c.validation.any (·.kind.isNumeric)

/-- The cell is computed by its formula. -/
def isComputed (c : ClassifiedCell) : Bool := c.role != .label && c.hasFormula

end ClassifiedCell

/-- A name and the text of its target. -/
structure NamedRange where
  name : String
  target : String
deriving DecidableEq, Repr

/-- A workbook as it is handed in. -/
structure Snapshot where
  sheets : List String
  cells : List ClassifiedCell
  namedRanges : List NamedRange
  /-- Leave to settle cycles, for cells that say nothing themselves. -/
  iteration : Option Iteration

/-- Why a workbook was refused. -/
inductive CompileError
  | duplicateCell (c : Coordinate)
  | unqualifiedName (name : String)
  | unresolvedName (name : String) (error : ResolveError)
  | undeclaredSheet (c : Coordinate)
  | graph (error : GraphError)
deriving DecidableEq, Repr

/-- The wording of a refusal. -/
def CompileError.message : CompileError → String
  | .duplicateCell c => "Duplicate cell in snapshot: " ++ c.text
  | .unqualifiedName name => s!"Invalid named range '{name}': target must be sheet-qualified"
  | .unresolvedName name error => s!"Invalid named range '{name}': " ++ error.message
  | .undeclaredSheet c =>
    "Invalid snapshot: cell " ++ c.text ++ " is on undeclared sheet '" ++ c.sheet ++ "'"
  | .graph error => "Graph error: " ++ error.message

namespace Snapshot

/-- Of names that differ in the case of ASCII letters only the first. -/
def firstSpellings (seen : List String) : List String → List String
  | [] => []
  | s :: rest =>
    if seen.contains (Text.upperAscii s) then firstSpellings seen rest
    else s :: firstSpellings (Text.upperAscii s :: seen) rest

/-- The sheets, declared or taken from the cells. -/
def sheetNames (s : Snapshot) : List String :=
  firstSpellings []
    (if s.sheets.isEmpty then s.cells.map fun c => c.coordinate.sheet else s.sheets)

/-- A name with its target, which must be qualified and must not be a name. -/
def namedTarget (bare : NameTable) (n : NamedRange) : Except CompileError NamedTarget :=
  if n.target.toList.contains '!' then
    match bare.resolve n.target "" with
    | .ok r => .ok ⟨n.name, r.target⟩
    | .error e => .error (.unresolvedName n.name e)
  else .error (.unqualifiedName n.name)

/-- The names and sheets of the workbook. -/
def nameTable (s : Snapshot) : Except CompileError NameTable := do
  let sheets := s.sheetNames
  let names ← s.namedRanges.mapM (namedTarget (.ofLists [] sheets))
  return .ofLists names sheets

/-- With every sheet under its first spelling. -/
def canonical (s : Snapshot) (names : NameTable) : Snapshot :=
  let respell (c : ClassifiedCell) : ClassifiedCell :=
    match names.canonicalSheet? c.coordinate.sheet with
    | some sheet => { c with coordinate := { c.coordinate with sheet } }
    | none => c
  { s with cells := s.cells.map respell }

/-- The sheet is declared, or none is. -/
def declares (s : Snapshot) (sheet : String) : Bool :=
  s.sheets.isEmpty || s.sheets.any fun t => Text.sameIgnoringCase t sheet

/-- Refuse a cell that was seen before or lies on no declared sheet. -/
def validateCells (s : Snapshot) (seen : Std.TreeMap Coordinate Unit) :
    List ClassifiedCell → Except CompileError Unit
  | [] => .ok ()
  | c :: rest =>
    if seen.contains c.coordinate then .error (.duplicateCell c.coordinate)
    else if !s.declares c.coordinate.sheet then .error (.undeclaredSheet c.coordinate)
    else validateCells s (seen.insert c.coordinate ()) rest

/-- Refuse repeated cells and cells on undeclared sheets. -/
def validate (s : Snapshot) : Except CompileError Unit := s.validateCells ∅ s.cells

/-- The stored values of the cells that are not computed. -/
def constants (s : Snapshot) : CellMap :=
  CellMap.ofList ((s.cells.filter fun c => !c.isComputed && !c.value.isEmpty).map fun c =>
    (c.coordinate, c.value))

end Snapshot

end Recalc
