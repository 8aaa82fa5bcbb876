/-
Recalc/Document/Expr.lean

Formulas in JSON documents: an object with the name of the node's kind as the only field.
Reading accepts trees that no formula text spells.
-/
import Recalc.Document.Value
import Recalc.Formula.Expr

namespace Recalc.Expr

/-- A reference in a document; the name is left out if there is none. -/
def referenceJson (r : Reference) : Json :=
  .ofFields [("target", some r.target.toJson), ("name", r.name.map .string)]

mutual

/-- A formula in a document. -/
def toJson : Expr → Json
  | .call function args =>
    .tagged "FunctionCall" (.object [("name", .string function), ("args", .array (argsJson args))])
  | .binary op left right =>
    .tagged "BinaryOp"
      (.object [("op", .string op.tag), ("left", toJson left), ("right", toJson right)])
  | .unary op operand =>
    .tagged "UnaryOp" (.object [("op", .string op.tag), ("operand", toJson operand)])
  | .reference r => .tagged "Reference" (referenceJson r)
  | .literal v => .tagged "Literal" v.toJson
  | .array rows =>
    .tagged "ArrayLiteral" (.array (rows.map fun row => .array (row.map Value.toJson)))
  | .dynamic function args =>
    .tagged "DynamicReference"
      (.object [("function", .string function), ("args", .array (argsJson args))])

/-- Arguments in a document. -/
def argsJson : List Expr → List Json
  | [] => []
  | arg :: args => toJson arg :: argsJson args

end

/-- Read a reference. -/
def referenceOfJson? (j : Json) : Option Reference := do
  match ← j.record? ["target", "name"] with
  | [target, name] =>
    return ⟨← Json.required? Target.ofJson? target,
      ← Json.orElse? none (Json.optional? Json.string?) name⟩
  | _ => none

/-- Read a formula, nested no deeper than `depth`. -/
def ofJsonWithin? : Nat → Json → Option Expr
  | 0, _ => none
  | depth + 1, .object [(tag, content)] =>
    match tag with
    | "FunctionCall" => do
      match ← content.record? ["name", "args"] with
      | [name, args] =>
        return .call (← Json.required? Json.string? name)
          (← Json.required? (Json.list? (ofJsonWithin? depth)) args)
      | _ => none
    | "DynamicReference" => do
      match ← content.record? ["function", "args"] with
      | [function, args] =>
        return .dynamic (← Json.required? Json.string? function)
          (← Json.required? (Json.list? (ofJsonWithin? depth)) args)
      | _ => none
    | "BinaryOp" => do
      match ← content.record? ["op", "left", "right"] with
      | [op, left, right] =>
        return .binary (← Json.required? (Json.oneOf? BinaryOp.ofTag?) op)
          (← Json.required? (ofJsonWithin? depth) left)
          (← Json.required? (ofJsonWithin? depth) right)
      | _ => none
    | "UnaryOp" => do
      match ← content.record? ["op", "operand"] with
      | [op, operand] =>
        return .unary (← Json.required? (Json.oneOf? UnaryOp.ofTag?) op)
          (← Json.required? (ofJsonWithin? depth) operand)
      | _ => none
    | "Reference" => (referenceOfJson? content).map .reference
    | "Literal" => (Value.ofJson? content).map .literal
    | "ArrayLiteral" => (Json.list? (Json.list? Value.ofJson?) content).map .array
    | _ => none
  | _ + 1, _ => none

/-- The deepest nesting that documents have. -/
def documentDepth : Nat := 128

/-- Read a formula. -/
def ofJson? (j : Json) : Option Expr := ofJsonWithin? documentDepth j

end Recalc.Expr
