/-
Recalc/Formula/Operator.lean

The operators of formulas.
-/

namespace Recalc

/-- The operators between two operands. -/
inductive BinaryOp
  | add
  | subtract
  | multiply
  | divide
  | power
  | equal
  | notEqual
  | less
  | lessEqual
  | greater
  | greaterEqual
  | concat
deriving DecidableEq, Repr

namespace BinaryOp

/-- The sign of an operator. -/
def symbol : BinaryOp → String
  | .add => "+"
  | .subtract => "-"
  | .multiply => "*"
  | .divide => "/"
  | .power => "^"
  | .equal => "="
  | .notEqual => "<>"
  | .less => "<"
  | .lessEqual => "<="
  | .greater => ">"
  | .greaterEqual => ">="
  | .concat => "&"

/-- The name of an operator. -/
def tag : BinaryOp → String
  | .add => "Add"
  | .subtract => "Subtract"
  | .multiply => "Multiply"
  | .divide => "Divide"
  | .power => "Power"
  | .equal => "Equal"
  | .notEqual => "NotEqual"
  | .less => "LessThan"
  | .lessEqual => "LessThanOrEqual"
  | .greater => "GreaterThan"
  | .greaterEqual => "GreaterThanOrEqual"
  | .concat => "Concat"

/-- Every operator. -/
def all : List BinaryOp :=
  [.add, .subtract, .multiply, .divide, .power, .equal, .notEqual, .less, .lessEqual, .greater,
    .greaterEqual, .concat]

/-- The operator of a given name. -/
def ofTag? (s : String) : Option BinaryOp := all.find? (·.tag == s)

end BinaryOp

/-- The operators on one operand; the percent sign stands behind it. -/
inductive UnaryOp
  | negate
  | plus
  | percent
deriving DecidableEq, Repr

namespace UnaryOp

/-- The name of an operator. -/
def tag : UnaryOp → String
  | .negate => "Negate"
  | .plus => "Plus"
  | .percent => "Percent"

/-- The operator of a given name. -/
def ofTag? (s : String) : Option UnaryOp := [negate, plus, percent].find? (·.tag == s)

end UnaryOp

end Recalc
