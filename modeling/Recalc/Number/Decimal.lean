/-
Recalc/Number/Decimal.lean

Decimal numerals: their value as a double and the grammar in which text spells one.

A decimal is `± digits · 10 ^ scale`.  Its double is the nearest one, so reading is
`Binary64.ofRatio` on an exact quotient; a decimal of more than 310 places before the
point, or one that starts more than 330 places behind it, is settled without forming
the power of ten.

The grammar: an optional sign, then digits with at most one point (at least one digit
in all), then an optional exponent `e` or `E` with its own sign and at least one digit;
or, in any case of letters, `inf`, `infinity` or `nan`.  Blanks are not part of it.
-/
import Recalc.Number.Binary64

namespace Recalc

/-- The number `± digits · 10 ^ scale`. -/
structure Decimal where
  negative : Bool
  digits : Nat
  scale : Int
deriving DecidableEq, Repr

namespace Decimal

/-- How many decimal digits a natural has; 1 for zero. -/
def digitCount (n : Nat) : Nat :=
  (Nat.toDigits 10 n).length

/-- The double nearest to a decimal. -/
def toFloat (d : Decimal) : Float :=
  let places : Int := (digitCount d.digits : Int) + d.scale
  if d.digits = 0 then Binary64.ofMagnitude d.negative 0
  else if 310 < places then Binary64.ofMagnitude d.negative Binary64.infinityBits
  else if places < -330 then Binary64.ofMagnitude d.negative 0
  else if 0 ≤ d.scale then Binary64.ofRatio d.negative (d.digits * Nat.pow 10 d.scale.toNat) 1
  else Binary64.ofRatio d.negative d.digits (Nat.pow 10 (-d.scale).toNat)

/-! ### Reading -/

/-- The value of a run of digits. -/
def ofDigits (cs : List Char) : Nat :=
  cs.foldl (fun n c => 10 * n + (c.toNat - '0'.toNat)) 0

/-- A sign in front, if there is one. -/
def splitSign : List Char → Bool × List Char
  | '-' :: rest => (true, rest)
  | '+' :: rest => (false, rest)
  | rest => (false, rest)

/-- The exponent part, which is all that is left: nothing, or `e` with a signed run of digits. -/
def exponent? : List Char → Option Int
  | [] => some 0
  | c :: rest =>
    if c = 'e' ∨ c = 'E' then
      let (negative, ds) := splitSign rest
      if ds ≠ [] ∧ ds.all Char.isDigit then
        let n : Int := ofDigits ds
        some (if negative then -n else n)
      else none
    else none

/-- A numeral without its sign. -/
def unsigned? (negative : Bool) (cs : List Char) : Option Decimal :=
  let whole := cs.takeWhile Char.isDigit
  let rest := cs.dropWhile Char.isDigit
  let (fraction, tail) :=
    match rest with
    | '.' :: r => (r.takeWhile Char.isDigit, r.dropWhile Char.isDigit)
    | r => ([], r)
  if whole = [] ∧ fraction = [] then none
  else (exponent? tail).map fun e =>
    ⟨negative, ofDigits (whole ++ fraction), e - fraction.length⟩

/-- The double that a text spells. -/
def readChars? (cs : List Char) : Option Float :=
  let (negative, body) := splitSign cs
  let word := String.ofList (body.map Char.toLower)
  if word = "inf" ∨ word = "infinity" then
    some (Binary64.ofMagnitude negative Binary64.infinityBits)
  else if word = "nan" then some (0.0 / 0.0)
  else (unsigned? negative body).map toFloat

end Decimal

/-- The double that a text spells, blanks not allowed. -/
def readFloat? (s : String) : Option Float :=
  Decimal.readChars? s.toList

end Recalc
