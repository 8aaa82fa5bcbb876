/-
Recalc/Number/Text.lean

Doubles as text: with a fixed number of places, and with the fewest digits that read
back.

`fixedText` rounds the exact value, a half going to the even neighbour.  `shortest`
walks the decimal grids of 1, 2, … 17 digits: on each it looks at the two grid points
around the value and keeps those that read back as the same double; the first grid
with such a point wins, of two points the nearer, and of two equally near the upper.
How the digits are then laid out (positional or with an exponent, with `.0` or
without) is a `NumberStyle`, and each place that writes numbers has its own.
-/
import Recalc.Number.Decimal

namespace Recalc

open Binary64

/-! ### Fixed places -/

/-- A run of digits, filled up with zeros on the left. -/
def zeroPadded (width n : Nat) : List Char :=
  let ds := Nat.toDigits 10 n
  List.replicate (width - ds.length) '0' ++ ds

/-- A finite double with the given number of places behind the point. -/
def fixedText (places : Nat) (x : Float) : String :=
  let p := parts x
  let (num, den) := p.ratio
  let unit := Nat.pow 10 places
  let n := roundDiv (num * unit) den
  let sign := if p.negative then ['-'] else []
  let whole := Nat.toDigits 10 (n / unit)
  let fraction := if places = 0 then [] else '.' :: zeroPadded places (n % unit)
  String.ofList (sign ++ whole ++ fraction)

/-! ### Fewest digits -/

/-- The exponent of the leading decimal digit of a positive `num / den`, for doubles. -/
def leadingExponent (num den : Nat) : Int :=
  (Decimal.digitCount (num * Nat.pow 10 400 / den) : Int) - 401

/-- The points around `num / den` on the grid `10 ^ scale`, nearest first; the lower comes first
only if it is strictly nearer. -/
def pointsAround (negative : Bool) (num den : Nat) (scale : Int) : List Decimal :=
  let (n, d) :=
    if 0 ≤ scale then (num, den * Nat.pow 10 scale.toNat)
    else (num * Nat.pow 10 (-scale).toNat, den)
  let lower : Decimal := ⟨negative, n / d, scale⟩
  let upper : Decimal := ⟨negative, n / d + 1, scale⟩
  if 2 * (n % d) < d then [lower, upper] else [upper, lower]

/-- The points around a double on the grid of `count` digits. -/
def gridPoints (p : Parts) (count : Nat) : List Decimal :=
  pointsAround p.negative p.ratio.1 p.ratio.2
    (leadingExponent p.ratio.1 p.ratio.2 - (count : Int) + 1)

/-- Drop the zeros at the end of the digits. -/
def Decimal.stripZeros : Nat → Decimal → Decimal
  | 0, d => d
  | fuel + 1, d =>
    if d.digits ≠ 0 ∧ d.digits % 10 = 0 then
      stripZeros fuel { d with digits := d.digits / 10, scale := d.scale + 1 }
    else d

/-- The exact value of a finite double. -/
def exactDecimal (p : Parts) : Decimal :=
  if 0 ≤ p.exponent then ⟨p.negative, p.mantissa * Nat.pow 2 p.exponent.toNat, 0⟩
  else ⟨p.negative, p.mantissa * Nat.pow 5 (-p.exponent).toNat, p.exponent⟩

/-- The decimal of fewest digits that reads back as a finite double, the nearest one of these. -/
def shortest (x : Float) : Decimal :=
  let p := parts x
  if p.mantissa = 0 then ⟨p.negative, 0, 0⟩
  else
    let readsBack (d : Decimal) : Bool := d.toFloat == x
    match (List.range 17).findSome? fun i => (gridPoints p (i + 1)).find? readsBack with
    | some d => d.stripZeros 17
    | none => exactDecimal p

/-! ### Layout -/

/-- How digits are laid out. -/
structure NumberStyle where
  /-- Leading exponents written positionally; all others take the exponent form. -/
  positional : Int → Bool
  /-- An integral number written positionally ends in `.0`. -/
  pointZero : Bool

/-- Digits with the point where the scale puts it. -/
def positionalChars (digits : Nat) (scale : Int) (pointZero : Bool) : List Char :=
  let ds := Nat.toDigits 10 digits
  if 0 ≤ scale then
    ds ++ List.replicate scale.toNat '0' ++ (if pointZero then ['.', '0'] else [])
  else
    let places := (-scale).toNat
    if places < ds.length then
      ds.take (ds.length - places) ++ '.' :: ds.drop (ds.length - places)
    else '0' :: '.' :: (List.replicate (places - ds.length) '0' ++ ds)

/-- One digit, a point, the other digits, then the exponent. -/
def exponentChars (digits : Nat) (lead : Int) : List Char :=
  let tail := (toString lead).toList
  match Nat.toDigits 10 digits with
  | [] => []
  | [d] => d :: 'e' :: tail
  | d :: ds => d :: '.' :: (ds ++ 'e' :: tail)

/-- A double in the given style; what is not finite reads `inf`, `-inf` and `NaN`. -/
def NumberStyle.write (style : NumberStyle) (x : Float) : String :=
  if x.isNaN then "NaN"
  else
    let sign := if isNegative x then ['-'] else []
    if x.isFinite then
      let d := shortest x
      let lead := d.scale + (Decimal.digitCount d.digits : Int) - 1
      String.ofList (sign ++
        if d.digits = 0 ∨ style.positional lead then
          positionalChars d.digits d.scale style.pointZero
        else exponentChars d.digits lead)
    else String.ofList (sign ++ ['i', 'n', 'f'])

/-- Digits and a point only, however long. -/
def plainStyle : NumberStyle := ⟨fun _ => true, false⟩

/-- A double with digits and a point only. -/
def plainText (x : Float) : String := plainStyle.write x

end Recalc
