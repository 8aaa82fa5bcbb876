/-
Recalc/Formula/Fault.lean

Why a text is no formula.  Every error tells the character it was found at.
-/
import Recalc.Formula.Token

namespace Recalc

/-- What is wrong with the spelling of a formula. -/
inductive SyntaxFault
  | missingEquals
  | emptyFormula
  | unterminatedText
  | unterminatedSheet
  | unknownErrorLiteral
  | invalidNumber (text : String)
  | unexpectedCharacter (c : Char)
  | unexpectedEnd
  | unexpectedToken (kind : TokenKind)
  | missingBang (sheet : String)
  | noReferenceAfterSheet (sheet : String) (kind : TokenKind)
  | noReferenceAfterColon (kind : TokenKind)
  | badArgumentList
  | badArray
  | raggedArray
  | signWithoutNumber
  | elementNotConstant
  | expectedClose (kind : TokenKind)
  | trailingInput
  /-- The allowance of reading steps is spent. -/
  | tooDeep

/-- The wording of a fault. -/
def SyntaxFault.message : SyntaxFault → String
  | .missingEquals => "formula must start with '='"
  | .emptyFormula => "empty formula"
  | .unterminatedText => "unterminated string literal"
  | .unterminatedSheet => "unterminated sheet name"
  | .unknownErrorLiteral => "unknown error literal"
  | .invalidNumber text => s!"invalid number literal '{text}'"
  | .unexpectedCharacter c => s!"unexpected character '{c}'"
  | .unexpectedEnd => "unexpected end of formula"
  | .unexpectedToken kind => "unexpected token " ++ kind.describe
  | .missingBang sheet => s!"sheet name '{sheet}' missing '!'"
  | .noReferenceAfterSheet sheet kind =>
    s!"expected reference after '{sheet}!', got " ++ kind.describe
  | .noReferenceAfterColon kind => "expected reference after ':', got " ++ kind.describe
  | .badArgumentList => "expected ',' or ')' in argument list"
  | .badArray => "expected ',', ';' or '\x7d' in array"
  | .raggedArray => "array rows differ in length"
  | .signWithoutNumber => "expected number in array"
  | .elementNotConstant => "array elements must be constants"
  | .expectedClose kind => "expected ')', got " ++ kind.describe
  | .trailingInput => "unexpected trailing input"
  | .tooDeep => "formula nested too deeply"

/-- Why a formula was refused. -/
inductive FormulaError
  | parse (position : Nat) (fault : SyntaxFault)
  | unknownReference (position : Nat) (reference : String)
  | arity (position : Nat) (function expected : String) (got : Nat)

namespace FormulaError

/-- Where in the formula the error was found, in characters. -/
def position : FormulaError → Nat
  | .parse position _ => position
  | .unknownReference position _ => position
  | .arity position _ _ _ => position

/-- The wording of an error. -/
def message : FormulaError → String
  | .parse position fault => s!"Parse error at {position}: " ++ fault.message
  | .unknownReference position reference => s!"Unknown reference '{reference}' at {position}"
  | .arity _ function expected got =>
    s!"Invalid argument count for {function}: expected {expected}, got {got}"

end FormulaError

end Recalc
