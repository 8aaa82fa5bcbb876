/-
Recalc/Number/Display.lean

Numbers as a spreadsheet shows them, and as a formula spells them.

The display text has at most 15 significant digits and no zeros at the end.  It may
lose digits, so a formula spells a number by its display text only if that reads back
to the same number, and by its shortest text otherwise.
-/
import Recalc.Number.Text

namespace Recalc

open Binary64

/-- The text of a number that is not finite. -/
def notFiniteText : String := "#NUM!"

/-- The exponent of the leading digit, as the logarithm gives it. -/
def magnitude (x : Float) : Int :=
  clampInt (-0x80000000) 0x7fffffff (floor (Float.log10 x.abs))

/-- Places behind the point that make 15 significant digits. -/
def displayPlaces (x : Float) : Nat :=
  (max 0 (min 17 (14 - magnitude x))).toNat

/-- Without zeros behind the point, and without a point that ends the text. -/
def dropTrailingZeros (s : String) : String :=
  if s.toList.contains '.' then
    let reversed := s.toList.reverse.dropWhile (· = '0')
    String.ofList (reversed.dropWhile (· = '.')).reverse
  else s

/-- A number as a cell displays it. -/
def displayNumber (x : Float) : String :=
  if !x.isFinite then notFiniteText
  else if x == 0.0 then "0"
  else if isIntegral x && x.abs < 1e15 then fixedText 0 x
  else dropTrailingZeros (fixedText (displayPlaces x) x)

/-- A number as a formula spells it. -/
def literalNumber (x : Float) : String :=
  let display := displayNumber x
  if !x.isFinite then display
  else match readFloat? display with
    | some y => if y == x then display else plainText x
    | none => plainText x

end Recalc
