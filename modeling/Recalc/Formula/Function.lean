/-
Recalc/Formula/Function.lean

The functions of formulas: how many arguments they take, whether arguments may be
omitted or be faults, and how they are computed.

Most functions compute from their evaluated arguments; these are the `Builtin`s.  A
conditional chooses which argument to evaluate.  A dynamic function computes a
reference, which is not supported unless it can be resolved while reading.
-/
import Recalc.Text.Case
import Std.Data.TreeMap

namespace Recalc

/-- The functions that compute from their evaluated arguments. -/
inductive Builtin
  | sum | product | average | count | counta | max | min
  | sumif | sumifs | countif | averageif
  | abs | round | roundup | rounddown | int | mod | power | sqrt
  | and | or | not
  | concat | concatenate | len | left | right | mid | upper | lower | trim
  | vlookup | hlookup | index | lookupMatch
  | date | year | month | day
  | isblank | iserror | isnumber | istext
deriving DecidableEq, Repr

/-- How a function is computed. -/
inductive FunctionKind
  | eager (body : Builtin)
  | conditional
  | dynamic
deriving DecidableEq, Repr

/-- The name of a kind. -/
def FunctionKind.tag : FunctionKind → String
  | .eager _ => "eager"
  | .conditional => "conditional"
  | .dynamic => "dynamic"

/-- A function under its name. -/
structure FunctionSpec where
  name : String
  minArgs : Nat
  /-- No limit if none. -/
  maxArgs : Option Nat
  /-- Arguments may be omitted, as in `f(a,,b)`. -/
  emptyArgs : Bool
  /-- Faults reach the function instead of being its result. -/
  errorArgs : Bool
  kind : FunctionKind
deriving DecidableEq, Repr

namespace FunctionSpec

/-- The argument counts taken, in words. -/
def expected (f : FunctionSpec) : String :=
  match f.maxArgs with
  | some most => if most = f.minArgs then s!"{most}" else s!"{f.minArgs}..{most}"
  | none => s!"{f.minArgs}+"

/-- The count of arguments is taken. -/
def takes (f : FunctionSpec) (count : Nat) : Bool :=
  f.minArgs ≤ count && f.maxArgs.all (count ≤ ·)

/-- What was expected instead of that many arguments, omitted ones among them or not; none if
the call is fine. -/
def arityFault? (f : FunctionSpec) (count : Nat) (omitted : Bool) : Option String :=
  if !f.takes count then some f.expected
  else if omitted && !f.emptyArgs then some (f.expected ++ " non-empty")
  else none

/-- A function with a least and a largest number of arguments. -/
def ranged (name : String) (least most : Nat) (body : Builtin) : FunctionSpec :=
  ⟨name, least, some most, false, false, .eager body⟩

/-- A function with a fixed number of arguments. -/
def fixed (name : String) (count : Nat) (body : Builtin) : FunctionSpec :=
  ranged name count count body

/-- A function with a least number of arguments. -/
def variadic (name : String) (least : Nat) (body : Builtin) : FunctionSpec :=
  ⟨name, least, none, false, false, .eager body⟩

/-- The same function, with arguments that may be omitted. -/
def withEmptyArgs (f : FunctionSpec) : FunctionSpec := { f with emptyArgs := true }

/-- The same function, with arguments that may be faults. -/
def withErrorArgs (f : FunctionSpec) : FunctionSpec := { f with errorArgs := true }

/-- The functions every workbook knows. -/
def builtins : List FunctionSpec :=
  [ variadic "SUM" 1 .sum,
    variadic "PRODUCT" 1 .product,
    variadic "AVERAGE" 1 .average,
    (variadic "COUNT" 1 .count).withErrorArgs,
    (variadic "COUNTA" 1 .counta).withErrorArgs,
    variadic "MAX" 1 .max,
    variadic "MIN" 1 .min,
    ranged "SUMIF" 2 3 .sumif,
    variadic "SUMIFS" 3 .sumifs,
    fixed "COUNTIF" 2 .countif,
    ranged "AVERAGEIF" 2 3 .averageif,
    fixed "ABS" 1 .abs,
    (ranged "ROUND" 1 2 .round).withEmptyArgs,
    (ranged "ROUNDUP" 1 2 .roundup).withEmptyArgs,
    (ranged "ROUNDDOWN" 1 2 .rounddown).withEmptyArgs,
    fixed "INT" 1 .int,
    fixed "MOD" 2 .mod,
    fixed "POWER" 2 .power,
    fixed "SQRT" 1 .sqrt,
    ⟨"IF", 2, some 3, true, false, .conditional⟩,
    ⟨"IFERROR", 2, some 2, true, true, .conditional⟩,
    variadic "AND" 1 .and,
    variadic "OR" 1 .or,
    fixed "NOT" 1 .not,
    variadic "CONCAT" 1 .concat,
    variadic "CONCATENATE" 1 .concatenate,
    fixed "LEN" 1 .len,
    ranged "LEFT" 1 2 .left,
    ranged "RIGHT" 1 2 .right,
    fixed "MID" 3 .mid,
    fixed "UPPER" 1 .upper,
    fixed "LOWER" 1 .lower,
    fixed "TRIM" 1 .trim,
    (ranged "VLOOKUP" 3 4 .vlookup).withEmptyArgs,
    (ranged "HLOOKUP" 3 4 .hlookup).withEmptyArgs,
    ranged "INDEX" 2 3 .index,
    ranged "MATCH" 2 3 .lookupMatch,
    fixed "DATE" 3 .date,
    fixed "YEAR" 1 .year,
    fixed "MONTH" 1 .month,
    fixed "DAY" 1 .day,
    (fixed "ISBLANK" 1 .isblank).withErrorArgs,
    (fixed "ISERROR" 1 .iserror).withErrorArgs,
    (fixed "ISNUMBER" 1 .isnumber).withErrorArgs,
    (fixed "ISTEXT" 1 .istext).withErrorArgs,
    ⟨"INDIRECT", 1, some 2, false, false, .dynamic⟩,
    ⟨"OFFSET", 3, some 5, false, false, .dynamic⟩ ]

end FunctionSpec

/-- The functions known, by their upper-case names. -/
structure Registry where
  functions : Std.TreeMap String FunctionSpec

namespace Registry

/-- Add a function; it replaces one of the same name. -/
def register (r : Registry) (f : FunctionSpec) : Registry :=
  ⟨r.functions.insert (Text.upperAscii f.name) f⟩

/-- The functions every workbook knows. -/
def builtin : Registry := FunctionSpec.builtins.foldl register ⟨∅⟩

/-- The function of a name, whatever its case. -/
def find? (r : Registry) (name : String) : Option FunctionSpec :=
  r.functions[Text.upperAscii name]?

/-- The upper-case names, sorted. -/
def names (r : Registry) : List String := r.functions.keys

end Registry

end Recalc
