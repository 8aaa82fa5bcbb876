/-
Recalc/Cell/Value.lean

What a cell can hold: numbers, texts, truth values, dates, faults, or nothing.  A fault
is a value like any other; arithmetic on texts yields one instead of failing.  A date is
a day count with a tag, and counts as a number.
-/
import Recalc.Number.Display
import Recalc.Text.Case

namespace Recalc

/-- The faults that stand in cells. -/
inductive Fault
  | divideByZero
  | value
  | notFound
  | reference
  | name
  | num
  | null
  | circular
  /-- An iterated cycle that did not settle. -/
  | noConverge
  /-- A reference that is only known once computed. -/
  | unsupported
  /-- The formula of the cell could not be read. -/
  | invalid
deriving DecidableEq, Repr

namespace Fault

/-- The text a cell shows. -/
def label : Fault → String
  | .divideByZero => "#DIV/0!"
  | .value => "#VALUE!"
  | .notFound => "#N/A"
  | .reference => "#REF!"
  | .name => "#NAME?"
  | .num => "#NUM!"
  | .null => "#NULL!"
  | .circular => "#CIRCULAR!"
  | .noConverge => "#NOCONVERGE!"
  | .unsupported => "#UNSUPPORTED!"
  | .invalid => "#INVALID!"

/-- The name of the kind of fault. -/
def tag : Fault → String
  | .divideByZero => "DivideByZero"
  | .value => "ValueError"
  | .notFound => "NotFound"
  | .reference => "Reference"
  | .name => "Name"
  | .num => "Num"
  | .null => "Null"
  | .circular => "CircularReference"
  | .noConverge => "DidNotConverge"
  | .unsupported => "Unsupported"
  | .invalid => "InvalidFormula"

/-- The faults that a formula or a cell may spell out, in the order they are tried. -/
def spelled : List Fault :=
  [.divideByZero, .value, .notFound, .reference, .name, .num, .null]

/-- Every fault. -/
def all : List Fault := spelled ++ [.circular, .noConverge, .unsupported, .invalid]

/-- The fault whose label a text is, whatever the case of its letters. -/
def ofLabel? (s : String) : Option Fault :=
  spelled.find? fun f => f.label == Text.upperAscii s

/-- The fault of a given tag. -/
def ofTag? (s : String) : Option Fault :=
  all.find? fun f => f.tag == s

end Fault

/-- The content of a cell, or the result of a formula. -/
inductive Value
  | number (x : Float)
  | text (s : String)
  | boolean (b : Bool)
  /-- A day count from the epoch of the workbook. -/
  | date (x : Float)
  | error (fault : Fault)
  | empty

/-- The kinds of values. -/
inductive ValueType
  | number
  | text
  | boolean
  | date
  | error
  | empty
deriving DecidableEq, Repr

namespace ValueType

/-- The name of a kind of value. -/
def tag : ValueType → String
  | .number => "Number"
  | .text => "Text"
  | .boolean => "Boolean"
  | .date => "Date"
  | .error => "Error"
  | .empty => "Empty"

end ValueType

namespace Value

/-- The kind of a value. -/
def type : Value → ValueType
  | .number _ => .number
  | .text _ => .text
  | .boolean _ => .boolean
  | .date _ => .date
  | .error _ => .error
  | .empty => .empty

/-- The fault, if the value is one. -/
def fault? : Value → Option Fault
  | .error f => some f
  | _ => none

/-- The value is a fault. -/
def isError (v : Value) : Bool := v.fault?.isSome

/-- The value is a blank. -/
def isEmpty : Value → Bool
  | .empty => true
  | _ => false

/-- The number of a number or a date. -/
def number? : Value → Option Float
  | .number x => some x
  | .date x => some x
  | _ => none

/-- The value is a number or a date. -/
def isNumeric (v : Value) : Bool := v.number?.isSome

/-- The value is a date. -/
def isDate : Value → Bool
  | .date _ => true
  | _ => false

/-- The text a cell shows. -/
def display : Value → String
  | .number x => displayNumber x
  | .date x => displayNumber x
  | .text s => s
  | .boolean true => "TRUE"
  | .boolean false => "FALSE"
  | .error f => f.label
  | .empty => ""

/-- Same kind and same content; numbers are compared as numbers, so `0` and `-0` agree. -/
def same : Value → Value → Bool
  | .number x, .number y => x == y
  | .date x, .date y => x == y
  | .text s, .text t => s == t
  | .boolean a, .boolean b => a == b
  | .error f, .error g => f == g
  | .empty, .empty => true
  | _, _ => false

instance : BEq Value := ⟨same⟩

instance : Inhabited Value := ⟨.empty⟩

end Value

end Recalc
