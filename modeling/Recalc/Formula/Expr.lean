/-
Recalc/Formula/Expr.lean

Formulas as trees.  References stand for resolved targets and remember the name they
were written as; a blank literal stands for an omitted argument.
-/
import Recalc.Cell.Range
import Recalc.Cell.Value
import Recalc.Formula.Operator

namespace Recalc

/-- A resolved reference. -/
structure Reference where
  target : Target
  /-- The name it was written as, if it was one. -/
  name : Option String
deriving DecidableEq, Repr

/-- A formula. -/
inductive Expr
  | call (function : String) (args : List Expr)
  | binary (op : BinaryOp) (left right : Expr)
  | unary (op : UnaryOp) (operand : Expr)
  | reference (r : Reference)
  | literal (v : Value)
  | array (rows : List (List Value))
  /-- A reference that is only known once computed. -/
  | dynamic (function : String) (args : List Expr)

namespace Expr

instance : Inhabited Expr := ⟨.literal .empty⟩

/-- An omitted argument. -/
def isOmitted : Expr → Bool
  | .literal .empty => true
  | _ => false

/-! ### References -/

mutual

/-- The references, from left to right. -/
def references : Expr → List Reference
  | .reference r => [r]
  | .call _ args => referencesOfArgs args
  | .dynamic _ args => referencesOfArgs args
  | .binary _ left right => references left ++ references right
  | .unary _ operand => references operand
  | .literal _ => []
  | .array _ => []

/-- The references of an argument list, from left to right. -/
def referencesOfArgs : List Expr → List Reference
  | [] => []
  | arg :: args => references arg ++ referencesOfArgs args

end

mutual

/-- Some part of the tree is a reference that is only known once computed. -/
def hasDynamic : Expr → Bool
  | .dynamic _ _ => true
  | .call _ args => hasDynamicArg args
  | .binary _ left right => hasDynamic left || hasDynamic right
  | .unary _ operand => hasDynamic operand
  | .reference _ => false
  | .literal _ => false
  | .array _ => false

/-- Some argument has a reference that is only known once computed. -/
def hasDynamicArg : List Expr → Bool
  | [] => false
  | arg :: args => hasDynamic arg || hasDynamicArg args

end

/-! ### Equality -/

/-- Equal rows, value by value. -/
def sameRow : List Value → List Value → Bool
  | [], [] => true
  | v :: vs, w :: ws => v.same w && sameRow vs ws
  | _, _ => false

/-- Equal arrays, row by row. -/
def sameRows : List (List Value) → List (List Value) → Bool
  | [], [] => true
  | r :: rs, s :: ss => sameRow r s && sameRows rs ss
  | _, _ => false

mutual

/-- Equal trees, numbers being compared as numbers. -/
def same : Expr → Expr → Bool
  | .call f args, .call g brgs => f == g && sameArgs args brgs
  | .binary op a b, .binary op' a' b' => op == op' && same a a' && same b b'
  | .unary op a, .unary op' a' => op == op' && same a a'
  | .reference r, .reference s => r == s
  | .literal v, .literal w => v.same w
  | .array rows, .array rows' => sameRows rows rows'
  | .dynamic f args, .dynamic g brgs => f == g && sameArgs args brgs
  | _, _ => false

/-- Equal argument lists. -/
def sameArgs : List Expr → List Expr → Bool
  | [], [] => true
  | a :: as, b :: bs => same a b && sameArgs as bs
  | _, _ => false

end

instance : BEq Expr := ⟨same⟩

end Expr

end Recalc
