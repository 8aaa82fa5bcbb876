/-
Recalc/Formula/Printer.lean

The text of a formula.  Operators put their operands into parentheses whenever these
are operators themselves or negative numbers, so the text has one reading whatever the
precedence; a percent sign binds tightest and needs none.

Seen from a sheet, references on that sheet drop their qualifier; a name is written as
it was given.
-/
import Recalc.Formula.Expr

namespace Recalc.Expr

/-- A text literal, a quote inside written twice. -/
def quotedText (s : String) : String :=
  String.ofList ('"' :: s.toList.flatMap (fun c => if c = '"' then ['"', '"'] else [c]) ++ ['"'])

/-- A literal. -/
def literalText : Value → String
  | .number x => literalNumber x
  | .date x => literalNumber x
  | .text s => quotedText s
  | .boolean true => "TRUE"
  | .boolean false => "FALSE"
  | .error f => f.label
  | .empty => ""

/-- An array literal. -/
def arrayText (rows : List (List Value)) : String :=
  let row (vs : List Value) : String := ",".intercalate (vs.map literalText)
  "\x7b" ++ ";".intercalate (rows.map row) ++ "\x7d"

/-- A reference, as seen from a sheet if one is given. -/
def referenceText (sheet : Option String) (r : Reference) : String :=
  match r.name with
  | some name => name
  | none => if sheet == some r.target.sheet then r.target.addressText else r.target.text

/-- An operand that needs parentheses. -/
def needsParens : Expr → Bool
  | .binary _ _ _ => true
  | .unary op _ => op != .percent
  | .literal (.number x) => Binary64.isNegative x
  | .literal (.date x) => Binary64.isNegative x
  | _ => false

/-- A text in parentheses, if it needs them. -/
def wrapped (needed : Bool) (s : String) : String :=
  if needed then "(" ++ s ++ ")" else s

mutual

/-- The text of a formula without `=`, as seen from a sheet if one is given. -/
def text (sheet : Option String) : Expr → String
  | .literal v => literalText v
  | .array rows => arrayText rows
  | .reference r => referenceText sheet r
  | .call function args => function ++ "(" ++ ",".intercalate (argTexts sheet args) ++ ")"
  | .dynamic function args => function ++ "(" ++ ",".intercalate (argTexts sheet args) ++ ")"
  | .unary .percent operand => wrapped operand.needsParens (text sheet operand) ++ "%"
  | .unary .negate operand => "-" ++ wrapped operand.needsParens (text sheet operand)
  | .unary .plus operand => "+" ++ wrapped operand.needsParens (text sheet operand)
  | .binary op left right =>
    wrapped left.needsParens (text sheet left) ++ op.symbol ++
      wrapped right.needsParens (text sheet right)

/-- The texts of arguments. -/
def argTexts (sheet : Option String) : List Expr → List String
  | [] => []
  | arg :: args => text sheet arg :: argTexts sheet args

end

/-- The formula with its `=`, as written on a sheet. -/
def toFormula (sheet : String) (e : Expr) : String := "=" ++ e.text (some sheet)

/-- The text with every reference qualified, without `=`. -/
def display (e : Expr) : String := e.text none

end Recalc.Expr
