/-
Recalc/Number/Binary64.lean

Doubles as exact numbers.  A finite double is `± m · 2 ^ q` with naturals `m` and
integers `q`; this file takes a double apart into these parts and, the other way
round, finds the double nearest to a quotient of two naturals:

    parts x = ⟨s, m, q⟩   and   ofRatio s num den   (ties to the even neighbour).

Design.  Rounding to an integer and truncation to `Int` are done on the parts, so
all of it is arithmetic on `Nat`.  The magnitude bits of a double grow with its
magnitude; hence the double with mantissa `m` on the grid `2 ^ q` has magnitude
bits `(q + 1074) · 2 ^ 52 + m`, for the subnormal ones (`q = -1074`) as well, and
a mantissa that rounds up to `2 ^ 53` carries into the exponent by itself.
-/

namespace Recalc.Binary64

/-- A finite double taken apart: `± mantissa · 2 ^ exponent`. -/
structure Parts where
  negative : Bool
  mantissa : Nat
  exponent : Int
deriving DecidableEq, Repr

/-- The weight of the sign bit, `2 ^ 63`. -/
def signBit : Nat := 0x8000000000000000

/-- The weight of the lowest bit of the exponent, `2 ^ 52`. -/
def exponentBit : Nat := 0x10000000000000

/-- Whether the sign bit is set; it is for `-0.0` as well. -/
def isNegative (x : Float) : Bool :=
  signBit ≤ x.toBits.toNat

/-- The parts of a finite double. -/
def parts (x : Float) : Parts :=
  let bits : Nat := x.toBits.toNat
  let field : Nat := bits / exponentBit % 0x800
  let fraction : Nat := bits % exponentBit
  if field = 0 then ⟨isNegative x, fraction, -1074⟩
  else ⟨isNegative x, fraction + exponentBit, (field : Int) - 1075⟩

/-- The magnitude as a quotient of naturals. -/
def Parts.ratio (p : Parts) : Nat × Nat :=
  if 0 ≤ p.exponent then (p.mantissa * Nat.pow 2 p.exponent.toNat, 1)
  else (p.mantissa, Nat.pow 2 (-p.exponent).toNat)

/-- A quotient rounded to an integer, a half going to the even neighbour. -/
def roundDiv (num den : Nat) : Nat :=
  let quotient := num / den
  let twice := 2 * (num % den)
  if twice < den then quotient
  else if den < twice then quotient + 1
  else quotient + quotient % 2

/-- The magnitude bits of infinity. -/
def infinityBits : Nat := 0x7FF0000000000000

/-- The double with the given sign and magnitude bits; bits beyond infinity's give infinity. -/
def ofMagnitude (negative : Bool) (bits : Nat) : Float :=
  Float.ofBits (UInt64.ofNat (min bits infinityBits + if negative then signBit else 0))

/-- The exponent of the grid on which a positive `num / den` has a mantissa of 53 bits, or
`-1074`, the finest grid there is. -/
def gridExponent (num den : Nat) : Int :=
  let guess : Int := (num.log2 : Int) - (den.log2 : Int) - 52
  let fits : Bool :=
    if 0 ≤ guess + 52 then den * Nat.pow 2 (guess + 52).toNat ≤ num
    else den ≤ num * Nat.pow 2 (-(guess + 52)).toNat
  max (-1074) (if fits then guess else guess - 1)

/-- The double nearest to `± num / den`, ties to the even neighbour, overflow to infinity. -/
def ofRatio (negative : Bool) (num den : Nat) : Float :=
  if num = 0 then ofMagnitude negative 0
  else
    let grid := gridExponent num den
    let mantissa :=
      if 0 ≤ grid then roundDiv num (den * Nat.pow 2 grid.toNat)
      else roundDiv (num * Nat.pow 2 (-grid).toNat) den
    ofMagnitude negative ((grid + 1074).toNat * exponentBit + mantissa)

/-- The double nearest to a natural number, of which the lowest 64 bits are taken. -/
def ofNat (n : Nat) : Float := ofRatio false (UInt64.ofNat n).toNat 1

/-! ### Rounding to an integer -/

/-- The ways a fraction is dropped. -/
inductive Direction
  | towardZero
  | down
  | up
  | nearest
deriving DecidableEq, Repr

/-- The magnitude `m / s` rounded to an integer; a half goes away from zero. -/
def Direction.magnitude (d : Direction) (negative : Bool) (m s : Nat) : Nat :=
  match d, negative with
  | .towardZero, _ => m / s
  | .down, false => m / s
  | .down, true => (m + s - 1) / s
  | .up, false => (m + s - 1) / s
  | .up, true => m / s
  | .nearest, _ => (2 * m + s) / (2 * s)

/-- Round to an integral double.  The sign stays, so a negative fraction may give `-0.0`. -/
def round (d : Direction) (x : Float) : Float :=
  if x.isFinite then
    let p := parts x
    if 0 ≤ p.exponent then x
    else ofRatio p.negative (d.magnitude p.negative p.mantissa (Nat.pow 2 (-p.exponent).toNat)) 1
  else x

/-- Drop the fraction. -/
def trunc (x : Float) : Float := round .towardZero x

/-- The greatest integral double not above. -/
def floor (x : Float) : Float := round .down x

/-- The fraction is zero. -/
def isIntegral (x : Float) : Bool := x.isFinite && trunc x == x

/-- A finite double without its fraction, as an integer. -/
def Parts.toInt (p : Parts) : Int :=
  let magnitude : Nat := p.ratio.1 / p.ratio.2
  if p.negative then -(magnitude : Int) else magnitude

/-- Truncate into the interval from `lo` to `hi`; what lies beyond goes to the nearer end, and a
double that is no number to 0. -/
def clampInt (lo hi : Int) (x : Float) : Int :=
  if x.isNaN then 0
  else if x.isFinite then max lo (min hi (parts x).toInt)
  else if isNegative x then lo else hi

/-- Truncate to a natural; infinity stands for a bound that no length reaches. -/
def clampNat (x : Float) : Nat :=
  (clampInt 0 0xffffffffffffffff x).toNat

/-- The magnitude of the first with the sign of the second. -/
def copySign (x sign : Float) : Float :=
  if isNegative x == isNegative sign then x else -x

/-- The greater of two; one that is no number gives way to the other. -/
def greater (x y : Float) : Float :=
  if x.isNaN then y else if y.isNaN then x else if x < y then y else x

/-- The smaller of two; one that is no number gives way to the other. -/
def smaller (x y : Float) : Float :=
  if x.isNaN then y else if y.isNaN then x else if y < x then y else x

/-- `10 ^ n`, exact for `n ≤ 22`. -/
def powerOfTen (n : Nat) : Float :=
  ofRatio false (Nat.pow 10 n) 1

end Recalc.Binary64
