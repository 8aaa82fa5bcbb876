/-
Recalc/Eval/Lookup.lean

Tables and searching in them.  A table has the height and the width of its operand, but
only the extent of the cells read is kept; everything beyond is blank.
-/
import Recalc.Eval.Argument
import Recalc.Eval.Comparison
import Recalc.Eval.Wildcard

namespace Recalc

/-- The values of a range or an array, row by row. -/
structure Table where
  height : Nat
  width : Nat
  rows : Array (Array Value)

namespace Table

/-- A table of one value. -/
def single (v : Value) : Table := ⟨1, 1, #[#[v]]⟩

/-- Put a value at its place, with blanks before it where nothing is yet. -/
def put (rows : Array (Array Value)) (row column : Nat) (v : Value) : Array (Array Value) :=
  (rows ++ Array.replicate (row + 1 - rows.size) #[]).modify row fun cells =>
    (cells ++ Array.replicate (column + 1 - cells.size) Value.empty).setIfInBounds column v

/-- The table of an operand. -/
def ofOperand (ctx : EvalContext) : Operand → Table
  | .value v => single v
  | .cell c => single (ctx.source.value c)
  | .array rows =>
    ⟨rows.length, (rows.map List.length).foldl max 0, (rows.map List.toArray).toArray⟩
  | .range r =>
    let place (rows : Array (Array Value)) (cell : Coordinate × Value) : Array (Array Value) :=
      match r.offset? cell.1 with
      | some (row, column) => put rows row column cell.2
      | none => rows
    ⟨r.rows, r.columns, (ctx.cells r).foldl place #[]⟩

/-- The value at a row and a column, both counted from 0. -/
def get (t : Table) (row column : Nat) : Value :=
  (t.rows[row]?.bind (·[column]?)).getD .empty

/-- The kept values of a column. -/
def column (t : Table) (column : Nat) : List Value :=
  t.rows.toList.map fun cells => cells[column]?.getD .empty

/-- The kept values of a row. -/
def row (t : Table) (row : Nat) : List Value :=
  (t.rows[row]?.map Array.toList).getD []

end Table

namespace Lookup

/-- Which key is looked for. -/
inductive Mode
  | exact
  /-- The largest key not above; keys ascend. -/
  | atMost
  /-- The smallest key not below; keys descend. -/
  | atLeast
deriving DecidableEq, Repr

/-- A key that equals what is looked for; a text looked for may be a pattern, and a blank key
equals only a blank. -/
def isExact (tolerance : Float) (lookup key : Value) : Bool :=
  match key, lookup with
  | .empty, v => v.isEmpty
  | .text k, .text l =>
    if Wildcard.isPattern l then Wildcard.isMatch (Text.lower l) (Text.lower k)
    else key.equal tolerance lookup
  | _, _ => key.equal tolerance lookup

/-- Walk sorted keys, the first of which is the `i`-th: the first equal one, else the last one
before the order turns.  Blanks and keys that cannot be compared are passed over. -/
def nearest (before : Ordering) (tolerance : Float) (lookup : Value) (best : Option Nat) (i : Nat) :
    List Value → Option Nat
  | [] => best
  | key :: rest =>
    if key.isEmpty then nearest before tolerance lookup best (i + 1) rest
    else match key.compare? tolerance lookup with
      | none => nearest before tolerance lookup best (i + 1) rest
      | some .eq => some i
      | some o =>
        if o == before then nearest before tolerance lookup (some i) (i + 1) rest else best

/-- The place of the key looked for, counted from 0. -/
def position (mode : Mode) (tolerance : Float) (lookup : Value) (keys : List Value) : Option Nat :=
  match mode with
  | .exact => keys.findIdx? (isExact tolerance lookup)
  | .atMost => nearest .lt tolerance lookup none 0 keys
  | .atLeast => nearest .gt tolerance lookup none 0 keys

/-- The table of an argument. -/
def tableArg (ctx : EvalContext) (args : List Operand) (i : Nat) : Table :=
  match args[i]? with
  | some arg => .ofOperand ctx arg
  | none => .single .empty

/-- Sorted keys are searched unless the argument says otherwise. -/
def modeArg (ctx : EvalContext) (args : List Operand) (i : Nat) : Except Fault Mode := do
  if i < args.length then
    if ← ctx.boolArg args i then return .atMost else return .exact
  else return .atMost

/-- The place of a key, or the fault that it is not found. -/
def find (ctx : EvalContext) (mode : Mode) (lookup : Value) (keys : List Value) :
    Except Fault Nat :=
  match position mode ctx.options.tolerance lookup keys with
  | some i => .ok i
  | none => .error .notFound

/-- Look up in the first column, and take the value in another column of that row. -/
def vertical (ctx : EvalContext) (args : List Operand) : Except Fault Value := do
  let lookup ← ctx.valueArg args 0
  let table := tableArg ctx args 1
  let column ← ctx.positionArg args 2
  if table.width < column then .error .reference
  else
    let mode ← modeArg ctx args 3
    let row ← find ctx mode lookup (table.column 0)
    return table.get row (column - 1)

/-- Look up in the first row, and take the value in another row of that column. -/
def horizontal (ctx : EvalContext) (args : List Operand) : Except Fault Value := do
  let lookup ← ctx.valueArg args 0
  let table := tableArg ctx args 1
  let row ← ctx.positionArg args 2
  if table.height < row then .error .reference
  else
    let mode ← modeArg ctx args 3
    let column ← find ctx mode lookup (table.row 0)
    return table.get (row - 1) column

/-- Row and column, counted from 1, that two numbers mean in a table: one number alone counts the
columns of a single row, and 0 stands for the only row or column. -/
def indices (table : Table) (alone : Bool) (first second : Nat) : Nat × Nat :=
  let (row, column) := if alone && table.height == 1 then (1, first) else (first, second)
  (if row = 0 ∧ table.height = 1 then 1 else row,
    if column = 0 ∧ table.width = 1 then 1 else column)

/-- The value at a row and a column. -/
def index (ctx : EvalContext) (args : List Operand) : Except Fault Value := do
  let table := tableArg ctx args 0
  let first := Binary64.trunc (← ctx.numberArg args 1)
  let second := Binary64.trunc (← ctx.numberArgD args 2 0.0)
  if first < 0.0 || second < 0.0 then .error .value
  else
    let (row, column) := indices table (args.length == 2) (Binary64.clampNat first)
      (Binary64.clampNat second)
    if row = 0 ∨ column = 0 then .error .value
    else if table.height < row ∨ table.width < column then .error .reference
    else return table.get (row - 1) (column - 1)

/-- The keys of a table of one row or one column. -/
def keys (table : Table) : Except Fault (List Value) :=
  if table.height = 1 then .ok (table.row 0)
  else if table.width = 1 then .ok (table.column 0)
  else .error .notFound

/-- The mode that a number means: 0 exact, above 0 ascending, else descending. -/
def Mode.ofNumber (x : Float) : Mode :=
  if x == 0.0 then .exact else if x > 0.0 then .atMost else .atLeast

/-- The place of a value among keys, counted from 1. -/
def place (ctx : EvalContext) (args : List Operand) : Except Fault Value := do
  let lookup ← ctx.valueArg args 0
  let keys ← keys (tableArg ctx args 1)
  let mode := Mode.ofNumber (← ctx.numberArgD args 2 1.0)
  return .number (Binary64.ofNat ((← find ctx mode lookup keys) + 1))

end Lookup

end Recalc
