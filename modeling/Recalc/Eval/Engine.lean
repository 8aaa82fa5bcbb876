/-
Recalc/Eval/Engine.lean

Evaluation of formulas.  The tree is walked bottom up; operators take single values, and
functions take operands.  A call of an unknown function is a name fault, a call with the
wrong number of arguments a value fault, and a reference that is only known once computed
an unsupported one.

The conditionals evaluate the condition and the branch that it chooses; an omitted branch
is 0.  They are told apart by name: any other conditional is a name fault.
-/
import Recalc.Eval.Builtin
import Recalc.Formula.Parser

namespace Recalc

/-- The result of a function on its operands; unless the function takes faults, the first operand
that is a fault is the result. -/
def FunctionSpec.applyTo (f : FunctionSpec) (body : Builtin) (ctx : EvalContext)
    (args : List Operand) : Operand :=
  match if f.errorArgs then none else args.findSome? Operand.fault? with
  | some fault => .fault fault
  | none => .value (Value.ofExcept (body.apply ctx args))

/-- Names, functions and options of a workbook. -/
structure Engine where
  names : NameTable
  functions : Registry
  options : EvalOptions

namespace Engine

mutual

/-- The operand that a formula evaluates to. -/
def operand (functions : Registry) (ctx : EvalContext) : Expr → Operand
  | .literal v => .value v
  | .array rows => .array rows
  | .reference r => .ofTarget r.target
  | .dynamic _ _ => .fault .unsupported
  | .unary op e => .value (Value.unary op (ctx.scalar (operand functions ctx e)))
  | .binary op a b =>
    .value (Value.binary ctx.options.tolerance op (ctx.scalar (operand functions ctx a))
      (ctx.scalar (operand functions ctx b)))
  | .call name args =>
    match functions.find? name with
    | none => .fault .name
    | some f =>
      if (f.arityFault? args.length (args.any Expr.isOmitted)).isSome then .fault .value
      else match f.kind with
        | .dynamic => .fault .unsupported
        | .eager body => f.applyTo body ctx (operands functions ctx args)
        | .conditional =>
          let branch (k : Nat) (absent : Value) : Operand :=
            match args[k]? with
            | none => .value absent
            | some e =>
              if e.isOmitted then .value (.number 0.0) else operandAt functions ctx args k
          let first := ctx.scalar (operandAt functions ctx args 0)
          if f.name = "IF" then
            match first.toBool with
            | .ok true => branch 1 (.boolean false)
            | .ok false => branch 2 (.boolean false)
            | .error fault => .fault fault
          else if f.name = "IFERROR" then
            if first.isError then branch 1 (.boolean false) else .value first
          else .fault .name

/-- The operands of all arguments. -/
def operands (functions : Registry) (ctx : EvalContext) : List Expr → List Operand
  | [] => []
  | arg :: args => operand functions ctx arg :: operands functions ctx args

/-- The operand of one argument; a missing one is blank. -/
def operandAt (functions : Registry) (ctx : EvalContext) : List Expr → Nat → Operand
  | [], _ => .value .empty
  | arg :: _, 0 => operand functions ctx arg
  | _ :: args, k + 1 => operandAt functions ctx args k

end

/-- The value of a formula over some cells; a range or an array gives its top left value. -/
def evaluate (engine : Engine) (e : Expr) (source : CellSource) : Value :=
  let ctx : EvalContext := ⟨source, engine.options⟩
  ctx.topLeft (operand engine.functions ctx e)

/-- Read a formula that stands on a sheet. -/
def compile (engine : Engine) (source sheet : String) : Except FormulaError Formula :=
  Formula.parse ⟨sheet, engine.names, engine.functions⟩ source

end Engine

end Recalc
