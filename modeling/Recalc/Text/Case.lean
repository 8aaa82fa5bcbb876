/-
Recalc/Text/Case.lean

Upper and lower case of whole texts, and the case folding of ASCII alone.

A capital sigma is lowered to `ς` at the end of a word and to `σ` elsewhere: it ends a
word if a cased letter stands before it and none behind it, case-ignorable characters
passed over on both sides.
-/
import Recalc.Text.CaseMap
import Recalc.Text.Cased

namespace Recalc.Text

/-- Past the case-ignorable characters stands a cased letter. -/
def leadsToCased (cs : List Char) : Bool :=
  match cs.dropWhile isCaseIgnorable with
  | c :: _ => isCased c
  | [] => false

/-- Lower case of the rest of a text whose characters so far, last one first, are `before`. -/
def lowerAfter (before : List Char) : List Char → List Char
  | [] => []
  | c :: rest =>
    let image :=
      if c = 'Σ' then [if leadsToCased before && !leadsToCased rest then 'ς' else 'σ']
      else lowerChar c
    image ++ lowerAfter (c :: before) rest

/-- Lower case. -/
def lower (s : String) : String :=
  String.ofList (lowerAfter [] s.toList)

/-- Upper case. -/
def upper (s : String) : String :=
  String.ofList (s.toList.flatMap upperChar)

/-! ### ASCII alone -/

/-- Upper case of the ASCII letters; all else stays. -/
def upperAscii (s : String) : String :=
  String.ofList (s.toList.map Char.toUpper)

/-- Equal but for the case of ASCII letters. -/
def sameIgnoringCase (s t : String) : Bool :=
  upperAscii s == upperAscii t

end Recalc.Text
