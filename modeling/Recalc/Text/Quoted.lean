/-
Recalc/Text/Quoted.lean

Text in quotes for messages: control characters by their short escapes, and every other
character that may not stand for itself by its code point in hexadecimal.
-/
import Recalc.Text.Printable

namespace Recalc.Text

/-- A code point in lower-case hexadecimal. -/
def hex (n : Nat) : List Char := Nat.toDigits 16 n

/-- A character inside double quotes. -/
def quotedChar (c : Char) : List Char :=
  if c = '"' ∨ c = '\\' then ['\\', c]
  else if c = '\t' then ['\\', 't']
  else if c = '\n' then ['\\', 'n']
  else if c = '\r' then ['\\', 'r']
  else if c.toNat = 0 then ['\\', '0']
  else if isPrintable c then [c]
  else ['\\', 'u', '\x7b'] ++ hex c.toNat ++ ['\x7d']

/-- A text in double quotes. -/
def quoted (s : String) : String :=
  String.ofList ('"' :: s.toList.flatMap quotedChar ++ ['"'])

end Recalc.Text
