/-
Recalc/Formula/Token.lean

The tokens of formulas.  A token knows where it starts, as a count of characters from
the start of the formula, and how many characters it covers; the end of the formula is
a token of its own that covers none.
-/
import Recalc.Cell.Value
import Recalc.Text.Quoted

namespace Recalc

/-- What a token is. -/
inductive TokenKind
  | number (value : Float) (text : String)
  | text (s : String)
  | identifier (name : String)
  /-- A sheet name in single quotes. -/
  | sheetName (name : String)
  | error (fault : Fault)
  | cell (address : String)
  | leftParen
  | rightParen
  | leftBrace
  | rightBrace
  | comma
  | semicolon
  | plus
  | minus
  | star
  | slash
  | caret
  | ampersand
  | percent
  | equal
  | notEqual
  | less
  | lessEqual
  | greater
  | greaterEqual
  | colon
  | bang
  | eof

namespace TokenKind

/-- Numbers in messages keep a point, and turn to exponents from `1e16` up and below `1e-4`. -/
def numberStyle : NumberStyle := ⟨fun lead => -4 ≤ lead && lead < 16, true⟩

/-- The name of a kind with its content in parentheses. -/
def withContent (name content : String) : String := name ++ "(" ++ content ++ ")"

/-- The description of a token in messages. -/
def describe : TokenKind → String
  | .number value spelling =>
    "Number \x7b value: " ++ numberStyle.write value ++ ", text: " ++ Text.quoted spelling ++
      " \x7d"
  | .text s => withContent "String" (Text.quoted s)
  | .identifier name => withContent "Identifier" (Text.quoted name)
  | .sheetName name => withContent "SheetName" (Text.quoted name)
  | .error fault => withContent "Error" fault.tag
  | .cell address => withContent "CellRef" (Text.quoted address)
  | .leftParen => "LParen"
  | .rightParen => "RParen"
  | .leftBrace => "LBrace"
  | .rightBrace => "RBrace"
  | .comma => "Comma"
  | .semicolon => "Semicolon"
  | .plus => "Plus"
  | .minus => "Minus"
  | .star => "Star"
  | .slash => "Slash"
  | .caret => "Caret"
  | .ampersand => "Ampersand"
  | .percent => "Percent"
  | .equal => "Equal"
  | .notEqual => "NotEqual"
  | .less => "Less"
  | .lessEqual => "LessEqual"
  | .greater => "Greater"
  | .greaterEqual => "GreaterEqual"
  | .colon => "Colon"
  | .bang => "Bang"
  | .eof => "Eof"

end TokenKind

/-- A token with the characters it covers. -/
structure Token where
  kind : TokenKind
  /-- Characters before the token. -/
  pos : Nat
  /-- Characters of the token. -/
  length : Nat

end Recalc
