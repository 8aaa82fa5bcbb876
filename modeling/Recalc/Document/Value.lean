/-
Recalc/Document/Value.lean

Values, coordinates and targets in JSON documents.  A value is an object with the name of
its kind as the only field; a blank is just the name.  A coordinate is its text.
-/
import Recalc.Cell.Range
import Recalc.Cell.Value
import Recalc.Json.Basic

namespace Recalc

/-- An object with one field, which tells a case apart. -/
def Json.tagged (tag : String) (content : Json) : Json := .object [(tag, content)]

/-- A value in a document. -/
def Value.toJson : Value → Json
  | .number x => .tagged "Number" (.float x)
  | .text s => .tagged "Text" (.string s)
  | .boolean b => .tagged "Boolean" (.bool b)
  | .date x => .tagged "DateSerial" (.float x)
  | .error f => .tagged "Error" (.string f.tag)
  | .empty => .string "Empty"

/-- Read a value. -/
def Value.ofJson? : Json → Option Value
  | .string "Empty" => some .empty
  | .object [(tag, content)] =>
    match tag with
    | "Number" => content.float?.map .number
    | "Text" => content.string?.map .text
    | "Boolean" => content.bool?.map .boolean
    | "DateSerial" => content.float?.map .date
    | "Error" => (content.oneOf? Fault.ofTag?).map .error
    | "Empty" => match content with
      | .null => some .empty
      | _ => none
    | _ => none
  | _ => none

/-- A coordinate in a document. -/
def Coordinate.toJson (c : Coordinate) : Json := .string c.text

/-- Read a coordinate. -/
def Coordinate.ofJson? (j : Json) : Option Coordinate :=
  j.string?.bind fun s => (Coordinate.parse s).toOption

/-- A target in a document. -/
def Target.toJson : Target → Json
  | .cell c => .tagged "Cell" c.toJson
  | .range r => .tagged "Range" (.object [("start", r.first.toJson), ("end", r.last.toJson)])

/-- Read a range by its corners, as they stand. -/
def CellRange.ofJson? (j : Json) : Option CellRange := do
  match ← j.record? ["start", "end"] with
  | [first, last] =>
    return ⟨← Json.required? Coordinate.ofJson? first, ← Json.required? Coordinate.ofJson? last⟩
  | _ => none

/-- Read a target. -/
def Target.ofJson? : Json → Option Target
  | .object [("Cell", j)] => (Coordinate.ofJson? j).map .cell
  | .object [("Range", j)] => (CellRange.ofJson? j).map .range
  | _ => none

end Recalc
