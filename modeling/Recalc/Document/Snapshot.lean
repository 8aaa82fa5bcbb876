/-
Recalc/Document/Snapshot.lean

Workbooks in JSON documents, read and written.
-/
import Recalc.Document.Graph
import Recalc.Json.Reader
import Recalc.Workbook.Snapshot

namespace Recalc

open Json (required? orElse? optional? list? oneOf?)

/-- A stored value in a document. -/
def StoredValue.toJson : StoredValue → Json
  | .number x => .float x
  | .boolean b => .bool b
  | .text s => .string s

/-- Read a stored value. -/
def StoredValue.ofJson? : Json → Option StoredValue
  | .bool b => some (.boolean b)
  | .string s => some (.text s)
  | j => j.float?.map .number

/-- A validation in a document. -/
def Validation.toJson (v : Validation) : Json :=
  .ofFields [
    ("kind", some (.string v.kind.tag)),
    ("min", v.min.map .float),
    ("max", v.max.map .float),
    ("options", if v.options.isEmpty then none else some (.array (v.options.map (·.toJson))))]

/-- Read a validation. -/
def Validation.ofJson? (j : Json) : Option Validation := do
  match ← j.record? ["kind", "min", "max", "options"] with
  | [kind, least, most, options] =>
    return {
      kind := ← required? (oneOf? ValidationKind.ofTag?) kind,
      min := ← orElse? none (optional? Json.float?) least,
      max := ← orElse? none (optional? Json.float?) most,
      options := ← orElse? [] (list? StoredValue.ofJson?) options }
  | _ => none

/-- A classified cell in a document. -/
def ClassifiedCell.toJson (c : ClassifiedCell) : Json :=
  .ofFields [
    ("coordinate", some c.coordinate.toJson),
    ("role", some (.string c.role.tag)),
    ("rawFormula", c.rawFormula.map .string),
    ("currentValue", c.currentValue.map StoredValue.toJson),
    ("validation", c.validation.map Validation.toJson),
    ("iterative", c.iteration.map Iteration.toJson)]

/-- Read a classified cell. -/
def ClassifiedCell.ofJson? (j : Json) : Option ClassifiedCell := do
  match ← j.record?
      ["coordinate", "role", "rawFormula", "currentValue", "validation", "iterative"] with
  | [coordinate, role, formula, value, validation, iteration] =>
    return {
      coordinate := ← required? Coordinate.ofJson? coordinate,
      role := ← required? (oneOf? CellRole.ofTag?) role,
      rawFormula := ← orElse? none (optional? Json.string?) formula,
      currentValue := ← orElse? none (optional? StoredValue.ofJson?) value,
      validation := ← orElse? none (optional? Validation.ofJson?) validation,
      iteration := ← orElse? none (optional? Iteration.ofJson?) iteration }
  | _ => none

/-- A name in a document. -/
def NamedRange.toJson (n : NamedRange) : Json :=
  .object [("name", .string n.name), ("target", .string n.target)]

/-- Read a name. -/
def NamedRange.ofJson? (j : Json) : Option NamedRange := do
  match ← j.record? ["name", "target"] with
  | [name, target] => return ⟨← required? Json.string? name, ← required? Json.string? target⟩
  | _ => none

/-- A workbook in a document. -/
def Snapshot.toJson (s : Snapshot) : Json :=
  .ofFields [
    ("sheets", some (.array (s.sheets.map .string))),
    ("cells", some (.array (s.cells.map ClassifiedCell.toJson))),
    ("namedRanges", some (.array (s.namedRanges.map NamedRange.toJson))),
    ("iterative", s.iteration.map Iteration.toJson)]

/-- Read a workbook. -/
def Snapshot.ofJson? (j : Json) : Option Snapshot := do
  match ← j.record? ["sheets", "cells", "namedRanges", "iterative"] with
  | [sheets, cells, names, iteration] =>
    return {
      sheets := ← orElse? [] (list? Json.string?) sheets,
      cells := ← required? (list? ClassifiedCell.ofJson?) cells,
      namedRanges := ← orElse? [] (list? NamedRange.ofJson?) names,
      iteration := ← orElse? none (optional? Iteration.ofJson?) iteration }
  | _ => none

/-- Read a workbook from the text of a document. -/
def Snapshot.parse? (text : String) : Option Snapshot := (Json.parse? text).bind Snapshot.ofJson?

end Recalc
