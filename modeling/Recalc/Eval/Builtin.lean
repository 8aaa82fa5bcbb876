/-
Recalc/Eval/Builtin.lean

What the functions compute from their evaluated arguments.
-/
import Recalc.Eval.Aggregate
import Recalc.Eval.Arithmetic
import Recalc.Eval.Conditional
import Recalc.Eval.Lookup
import Recalc.Formula.Function

namespace Recalc

/-! ### Texts -/

namespace TextFunction

/-- A function of the text of the first argument. -/
def mapText (f : String → Value) (ctx : EvalContext) (args : List Operand) :
    Except Fault Value := do
  return f (← ctx.textArg args 0)

/-- The texts of all arguments, each a single value. -/
def concatenate (ctx : EvalContext) (args : List Operand) : Except Fault Value := do
  return .text (String.join (← (List.range args.length).mapM (ctx.textArg args)))

/-- Some characters from the left. -/
def left (ctx : EvalContext) (args : List Operand) : Except Fault Value := do
  let s ← ctx.textArg args 0
  let n ← ctx.countArg args 1 1.0
  return .text (String.ofList (s.toList.take n))

/-- Some characters from the right. -/
def right (ctx : EvalContext) (args : List Operand) : Except Fault Value := do
  let s ← ctx.textArg args 0
  let n ← ctx.countArg args 1 1.0
  return .text (String.ofList (s.toList.drop (s.length - n)))

/-- Some characters from a position on. -/
def mid (ctx : EvalContext) (args : List Operand) : Except Fault Value := do
  let s ← ctx.textArg args 0
  let start ← ctx.positionArg args 1
  let n ← ctx.countArg args 2 0.0
  return .text (String.ofList ((s.toList.drop (start - 1)).take n))

/-- Runs of characters between spaces. -/
def words : List Char → List (List Char)
  | [] => [[]]
  | ' ' :: rest => [] :: words rest
  | c :: rest =>
    match words rest with
    | word :: more => (c :: word) :: more
    | [] => [[c]]

/-- Without spaces at the ends, and with single spaces between words. -/
def squeeze (s : String) : String :=
  " ".intercalate (((words s.toList).filter (!·.isEmpty)).map String.ofList)

end TextFunction

/-! ### Dates -/

namespace DateFunction

/-- The date of a year, a month and a day. -/
def ofParts (ctx : EvalContext) (args : List Operand) : Except Fault Value := do
  let year ← ctx.numberArg args 0
  let month ← ctx.numberArg args 1
  let day ← ctx.numberArg args 2
  match ctx.options.epoch.serial? year month day with
  | some serial => .ok (.date serial)
  | none => .error .num

/-- A part of a date. -/
def part (pick : Date → Nat) (ctx : EvalContext) (args : List Operand) : Except Fault Value := do
  match ctx.options.epoch.date? (← ctx.numberArg args 0) with
  | some date => .ok (.number (Binary64.ofNat (pick date)))
  | none => .error .num

end DateFunction

/-- A test of the first argument, faults included. -/
def testArg (test : Value → Bool) (ctx : EvalContext) (args : List Operand) : Value :=
  .boolean (test ((args.head?.map ctx.scalar).getD .empty))

/-- The value is a text. -/
def Value.isText : Value → Bool
  | .text _ => true
  | _ => false

/-- What a function computes. -/
def Builtin.apply (ctx : EvalContext) (args : List Operand) : Builtin → Except Fault Value
  | .sum => Aggregate.sum ctx args
  | .product => Aggregate.product ctx args
  | .average => Aggregate.average ctx args
  | .count => .ok (Aggregate.count ctx args)
  | .counta => .ok (Aggregate.countFilled ctx args)
  | .max => Aggregate.best Binary64.greater ctx args
  | .min => Aggregate.best Binary64.smaller ctx args
  | .sumif => Conditional.sumIf ctx args
  | .sumifs => Conditional.sumIfs ctx args
  | .countif => Conditional.countIf ctx args
  | .averageif => Conditional.averageIf ctx args
  | .abs => Arithmetic.abs ctx args
  | .round => Arithmetic.round Arithmetic.roundNearest ctx args
  | .roundup => Arithmetic.round Arithmetic.roundAway ctx args
  | .rounddown => Arithmetic.round Binary64.trunc ctx args
  | .int => Arithmetic.int ctx args
  | .mod => Arithmetic.mod ctx args
  | .power => Arithmetic.power ctx args
  | .sqrt => Arithmetic.sqrt ctx args
  | .and => Aggregate.all ctx args
  | .or => Aggregate.any ctx args
  | .not => do return .boolean !(← ctx.boolArg args 0)
  | .concat => Aggregate.join ctx args
  | .concatenate => TextFunction.concatenate ctx args
  | .len => TextFunction.mapText (fun s => .number (Binary64.ofNat s.length)) ctx args
  | .left => TextFunction.left ctx args
  | .right => TextFunction.right ctx args
  | .mid => TextFunction.mid ctx args
  | .upper => TextFunction.mapText (fun s => .text (Text.upper s)) ctx args
  | .lower => TextFunction.mapText (fun s => .text (Text.lower s)) ctx args
  | .trim => TextFunction.mapText (fun s => .text (TextFunction.squeeze s)) ctx args
  | .vlookup => Lookup.vertical ctx args
  | .hlookup => Lookup.horizontal ctx args
  | .index => Lookup.index ctx args
  | .lookupMatch => Lookup.place ctx args
  | .date => DateFunction.ofParts ctx args
  | .year => DateFunction.part (fun d => d.year.toNat) ctx args
  | .month => DateFunction.part Date.month ctx args
  | .day => DateFunction.part Date.day ctx args
  | .isblank => .ok (testArg Value.isEmpty ctx args)
  | .iserror => .ok (testArg Value.isError ctx args)
  | .isnumber => .ok (testArg Value.isNumeric ctx args)
  | .istext => .ok (testArg Value.isText ctx args)

end Recalc
