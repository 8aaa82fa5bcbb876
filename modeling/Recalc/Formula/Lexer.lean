/-
Recalc/Formula/Lexer.lean

Formulas as token lists.

`munch` reads the token that starts with a given character and says how many of the
characters behind it belong to the token.  `scan` walks the text once: it passes over
the characters that the last token has taken, skips blanks, and starts a token at every
other character.  So the tokens and the blanks between them tile the text.

A name that has the form of a cell address within the limits is a cell, unless it runs
on into more name characters, a parenthesis or a `!`.
-/
import Recalc.Cell.Address
import Recalc.Formula.Fault
import Recalc.Text.Alphabetic

namespace Recalc.Lexer

/-- The token kinds of one character. -/
def single? : Char → Option TokenKind
  | '(' => some .leftParen
  | ')' => some .rightParen
  | '\x7b' => some .leftBrace
  | '\x7d' => some .rightBrace
  | ',' => some .comma
  | ';' => some .semicolon
  | '+' => some .plus
  | '-' => some .minus
  | '*' => some .star
  | '/' => some .slash
  | '^' => some .caret
  | '&' => some .ampersand
  | '%' => some .percent
  | ':' => some .colon
  | '!' => some .bang
  | '=' => some .equal
  | _ => none

/-- Read up to the closing quote, a doubled quote standing for itself: the text and the number
of characters up to and with the closing quote. -/
def quoted? (quote : Char) : List Char → Option (List Char × Nat)
  | [] => none
  | [c] => if c = quote then some ([], 1) else none
  | c :: d :: rest =>
    if c = quote then
      if d = quote then (quoted? quote rest).map fun (s, n) => (quote :: s, n + 2)
      else some ([], 1)
    else (quoted? quote (d :: rest)).map fun (s, n) => (c :: s, n + 1)

/-- The characters of a number: digits, one point before the exponent, and one exponent, whose
mark counts only if digits follow it. -/
def numberLength (point exponent : Bool) : List Char → Nat
  | [] => 0
  | c :: rest =>
    if c.isDigit then 1 + numberLength point exponent rest
    else if c = '.' ∧ ¬point ∧ ¬exponent then 1 + numberLength true exponent rest
    else if (c = 'e' ∨ c = 'E') ∧ ¬exponent then
      match rest with
      | [] => 0
      | s :: tail =>
        if s = '+' ∨ s = '-' then
          if tail.head?.any Char.isDigit then 2 + numberLength point true tail else 0
        else if s.isDigit then 1 + numberLength point true (s :: tail)
        else 0
    else 0

/-- The number that starts with a digit or a point, and its characters behind the first. -/
def number (c : Char) (rest : List Char) : Except SyntaxFault (TokenKind × Nat) :=
  let length := numberLength false false (c :: rest)
  let text := String.ofList ((c :: rest).take length)
  match readFloat? text with
  | some x => .ok (.number x text, length - 1)
  | none => .error (.invalidNumber text)

/-- The fault whose label a text starts with, whatever the case of its letters. -/
def errorLiteral (cs : List Char) : Except SyntaxFault (TokenKind × Nat) :=
  let upper := cs.map Char.toUpper
  match Fault.spelled.find? fun f => f.label.toList.isPrefixOf upper with
  | some f => .ok (.error f, f.label.length - 1)
  | none => .error .unknownErrorLiteral

/-- A character of names. -/
def isNamePart (c : Char) : Bool :=
  Text.isAlphanumeric c || c == '_' || c == '.' || c == '$' || c == '\\'

/-- A character that a name may start with. -/
def isNameStart (c : Char) : Bool :=
  c == '$' || c == '_' || c == '\\' || Text.isAlphabetic c

/-- A character that keeps what stands before it from being a cell. -/
def continuesCell (c : Char) : Bool :=
  isNamePart c || c == '(' || c == '!'

/-- One anchor in front, if there is one. -/
def anchorLength : List Char → Nat
  | '$' :: _ => 1
  | _ => 0

/-- The length of the text in front that has the form of an address; `0` if there is none. -/
def addressLength (cs : List Char) : Nat :=
  let body := cs.drop (anchorLength cs)
  let letters := (body.takeWhile Char.isAlpha).length
  let tail := body.drop letters
  let digits := ((tail.drop (anchorLength tail)).takeWhile Char.isDigit).length
  if 0 < letters ∧ 0 < digits then anchorLength cs + letters + anchorLength tail + digits else 0

/-- The cell that a text starts with, and its length. -/
def cell? (cs : List Char) : Option (String × Nat) :=
  let length := addressLength cs
  let text := String.ofList (cs.take length)
  let ended := !(cs.drop length).head?.any continuesCell
  if 0 < length ∧ ended ∧ (Address.parse text).toOption.isSome then
    some (text, length)
  else none

/-- The name or cell that starts with a given character, and its characters behind the first. -/
def name (c : Char) (rest : List Char) : TokenKind × Nat :=
  match cell? (c :: rest) with
  | some (text, length) => (.cell text, length - 1)
  | none =>
    let tail := rest.takeWhile isNamePart
    (.identifier (String.ofList (c :: tail)), tail.length)

/-- The token that starts with a given character, and its characters behind the first. -/
def munch (c : Char) (rest : List Char) : Except SyntaxFault (TokenKind × Nat) :=
  match single? c with
  | some kind => .ok (kind, 0)
  | none =>
    if c = '<' then
      match rest.head? with
      | some '=' => .ok (.lessEqual, 1)
      | some '>' => .ok (.notEqual, 1)
      | _ => .ok (.less, 0)
    else if c = '>' then
      match rest.head? with
      | some '=' => .ok (.greaterEqual, 1)
      | _ => .ok (.greater, 0)
    else if c = '"' then
      match quoted? '"' rest with
      | some (s, n) => .ok (.text (String.ofList s), n)
      | none => .error .unterminatedText
    else if c = '\'' then
      match quoted? '\'' rest with
      | some (s, n) => .ok (.sheetName (String.ofList s), n)
      | none => .error .unterminatedSheet
    else if c = '#' then errorLiteral (c :: rest)
    else if c = '.' ∨ c.isDigit then number c rest
    else if isNameStart c then .ok (name c rest)
    else .error (.unexpectedCharacter c)

/-- The tokens of a text whose first character is the `pos`-th of the formula, and whose first
`taken` characters belong to the token before. -/
def scan (taken pos : Nat) : List Char → Except FormulaError (List Token)
  | [] => .ok [⟨.eof, pos, 0⟩]
  | c :: rest =>
    match taken with
    | taken + 1 => scan taken (pos + 1) rest
    | 0 =>
      if Text.isBlank c then scan 0 (pos + 1) rest
      else
        match munch c rest with
        | .ok (kind, more) => do
          let tokens ← scan more (pos + 1) rest
          return ⟨kind, pos, more + 1⟩ :: tokens
        | .error fault => .error (.parse pos fault)

/-- The tokens of a text that starts at the given character of the formula. -/
def tokens (start : Nat) (cs : List Char) : Except FormulaError (List Token) :=
  scan 0 start cs

end Recalc.Lexer
