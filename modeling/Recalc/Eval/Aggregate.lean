/-
Recalc/Eval/Aggregate.lean

Functions over all values of their arguments.  A value given directly is converted,
while cells of references and elements of arrays only count if they are of the wanted
kind already; blanks count nowhere, and a fault anywhere is the result.
-/
import Recalc.Eval.Argument

namespace Recalc.Aggregate

/-! ### Numbers -/

/-- The numbers among values; the first fault fails. -/
def numbersAmong : List Value → Except Fault (List Float)
  | [] => .ok []
  | .number x :: rest => (numbersAmong rest).map (x :: ·)
  | .date x :: rest => (numbersAmong rest).map (x :: ·)
  | .error f :: _ => .error f
  | _ :: rest => numbersAmong rest

/-- The numbers of one argument. -/
def numbersOf (ctx : EvalContext) : Operand → Except Fault (List Float)
  | .value .empty => .ok []
  | .value v => v.toNumber.map ([·])
  | arg => numbersAmong (ctx.values arg)

/-- The numbers of all arguments. -/
def numbers (ctx : EvalContext) (args : List Operand) : Except Fault (List Float) :=
  (args.mapM (numbersOf ctx)).map List.flatten

/-- The sum from left to right.  It starts at `-0.0`, which is the sum of no numbers. -/
def total (xs : List Float) : Float := xs.foldl (· + ·) (-0.0)

/-- Sum. -/
def sum (ctx : EvalContext) (args : List Operand) : Except Fault Value := do
  return .number (total (← numbers ctx args))

/-- Product; 0 of no numbers. -/
def product (ctx : EvalContext) (args : List Operand) : Except Fault Value := do
  match ← numbers ctx args with
  | [] => .ok (.number 0.0)
  | xs => Value.finite (xs.foldl (· * ·) 1.0)

/-- Arithmetic mean. -/
def average (ctx : EvalContext) (args : List Operand) : Except Fault Value := do
  match ← numbers ctx args with
  | [] => .error .divideByZero
  | xs => .ok (.number (total xs / Binary64.ofNat xs.length))

/-- The best of the numbers; 0 of none. -/
def best (pick : Float → Float → Float) (ctx : EvalContext) (args : List Operand) :
    Except Fault Value := do
  match ← numbers ctx args with
  | [] => .ok (.number 0.0)
  | x :: xs => .ok (.number (xs.foldl pick x))

/-! ### Counts -/

/-- The numbers that one argument counts for.  Here a fault is no number, and a text or truth
value given directly counts if it can be converted. -/
def countOf (ctx : EvalContext) : Operand → Nat
  | .value (.text s) => if (Value.text s).toNumber.toOption.isSome then 1 else 0
  | .value (.boolean b) => if (Value.boolean b).toNumber.toOption.isSome then 1 else 0
  | arg => (ctx.values arg).countP Value.isNumeric

/-- How many numbers there are. -/
def count (ctx : EvalContext) (args : List Operand) : Value :=
  .number (Binary64.ofNat ((args.map (countOf ctx)).foldr (· + ·) 0))

/-- How many values are not blank. -/
def countFilled (ctx : EvalContext) (args : List Operand) : Value :=
  .number (Binary64.ofNat ((args.flatMap ctx.values).countP fun v => !v.isEmpty))

/-! ### Truth values -/

/-- The truth values among values; numbers count as true unless 0, and the first fault fails. -/
def logicalsAmong : List Value → Except Fault (List Bool)
  | [] => .ok []
  | .boolean b :: rest => (logicalsAmong rest).map (b :: ·)
  | .number x :: rest => (logicalsAmong rest).map ((x != 0.0) :: ·)
  | .date x :: rest => (logicalsAmong rest).map ((x != 0.0) :: ·)
  | .error f :: _ => .error f
  | _ :: rest => logicalsAmong rest

/-- The truth values of one argument. -/
def logicalsOf (ctx : EvalContext) : Operand → Except Fault (List Bool)
  | .value .empty => .ok []
  | .value v => v.toBool.map ([·])
  | arg => logicalsAmong (ctx.values arg)

/-- The truth values of all arguments; to have none is a value fault. -/
def logicals (ctx : EvalContext) (args : List Operand) : Except Fault (List Bool) := do
  match (← args.mapM (logicalsOf ctx)).flatten with
  | [] => .error .value
  | bs => .ok bs

/-- All are true. -/
def all (ctx : EvalContext) (args : List Operand) : Except Fault Value := do
  return .boolean ((← logicals ctx args).all id)

/-- Some are true. -/
def any (ctx : EvalContext) (args : List Operand) : Except Fault Value := do
  return .boolean ((← logicals ctx args).any id)

/-! ### Texts -/

/-- The texts of all values, one after the other. -/
def join (ctx : EvalContext) (args : List Operand) : Except Fault Value := do
  return .text (String.join (← (args.flatMap ctx.values).mapM Value.toText))

end Recalc.Aggregate
