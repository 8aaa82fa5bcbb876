/-
Recalc/Proofs/Number/Value.lean

The numbers that doubles are.  A finite double stands for a rational number, `± m · 2 ^ q`
with its parts, and finite doubles are ordered like these numbers:

    x ≤ y ↔ value x ≤ value y.

A double that is a whole number is truncated to this number (`IsWhole.clampInt`), and
natural numbers of no more than 53 bits are doubles as they are (`isWhole_ofNat`).

Design.  The mantissa of a double has 53 bits unless its exponent is the least there is.  So
among magnitudes the exponent decides first and the mantissa second (`Parts.magnitude_lt_iff`),
which is how places are compared.
-/
import Recalc.Proofs.Number.Bits
import Recalc.Proofs.Number.Order

namespace Recalc.Binary64

open Float.Model Float.Model.UnpackedFloat

/-! ### Values -/

namespace Parts

variable {p q : Parts}

/-- The magnitude that the parts spell. -/
def magnitude (p : Parts) : ℚ := p.mantissa * 2 ^ p.exponent

/-- The number that the parts spell. -/
def value (p : Parts) : ℚ := if p.negative then -p.magnitude else p.magnitude

/-- The place of the number that the parts spell. -/
def place (p : Parts) : Int × Int × Int :=
  if p.mantissa = 0 then (0, 0, 0)
  else if p.negative then (-1, -p.exponent, -p.mantissa) else (1, p.exponent, p.mantissa)

theorem magnitude_pos (h : p.mantissa ≠ 0) : 0 < p.magnitude :=
  mul_pos (by exact_mod_cast Nat.pos_of_ne_zero h) (by positivity)

theorem magnitude_eq_zero (h : p.mantissa = 0) : p.magnitude = 0 := by
  rw [magnitude, h, Nat.cast_zero, zero_mul]

/-- A greater exponent makes a greater magnitude. -/
theorem magnitude_lt_of_exponent_lt (hp : p.Bounded) (hq : q.Bounded)
    (h : p.exponent < q.exponent) : p.magnitude < q.magnitude := by
  have hfull : 2 ^ 52 ≤ q.mantissa := hq.full.resolve_left (by have := hp.le_exponent; omega)
  have hstep : (2 : ℚ) ^ (p.exponent + 1) ≤ 2 ^ q.exponent :=
    zpow_le_zpow_right₀ (by norm_num) (by omega)
  calc p.magnitude < 2 ^ 53 * 2 ^ p.exponent := by
        refine mul_lt_mul_of_pos_right ?_ (by positivity)
        exact_mod_cast hp.mantissa_lt
    _ = 2 ^ 52 * 2 ^ (p.exponent + 1) := by
        rw [zpow_add₀ (by norm_num), zpow_one]
        ring
    _ ≤ 2 ^ 52 * 2 ^ q.exponent := by gcongr
    _ ≤ q.magnitude := by
        refine mul_le_mul_of_nonneg_right ?_ (by positivity)
        exact_mod_cast hfull

/-- **Of two magnitudes the exponent decides, and the mantissa if the exponents agree.** -/
theorem magnitude_lt_iff (hp : p.Bounded) (hq : q.Bounded) : p.magnitude < q.magnitude ↔
    p.exponent < q.exponent ∨ p.exponent = q.exponent ∧ p.mantissa < q.mantissa := by
  rcases lt_trichotomy p.exponent q.exponent with hlt | heq | hgt
  · exact iff_of_true (magnitude_lt_of_exponent_lt hp hq hlt) (.inl hlt)
  · have htwo : (0 : ℚ) < 2 ^ q.exponent := by positivity
    rw [magnitude, magnitude, heq, mul_lt_mul_iff_left₀ htwo, Nat.cast_lt]
    simp
  · refine iff_of_false (magnitude_lt_of_exponent_lt hq hp hgt).not_gt ?_
    omega

/-- A number is negative, zero or positive, and its place says which. -/
theorem place_cases (p : Parts) :
    p.place = (-1, -p.exponent, -(p.mantissa : Int)) ∧ p.value = -p.magnitude ∧ 0 < p.magnitude ∨
      p.place = (0, 0, 0) ∧ p.value = 0 ∨
      p.place = (1, p.exponent, (p.mantissa : Int)) ∧ p.value = p.magnitude ∧ 0 < p.magnitude := by
  unfold place value
  by_cases hzero : p.mantissa = 0
  · rw [if_pos hzero, magnitude_eq_zero hzero, neg_zero, ite_self]
    exact .inr (.inl ⟨rfl, rfl⟩)
  · rw [if_neg hzero]
    cases p.negative with
    | true => exact .inl ⟨rfl, rfl, magnitude_pos hzero⟩
    | false => exact .inr (.inr ⟨rfl, rfl, magnitude_pos hzero⟩)

/-- **Places are ordered like the numbers.** -/
theorem before_place_iff (hp : p.Bounded) (hq : q.Bounded) :
    Before p.place q.place ↔ p.value < q.value := by
  have hless := magnitude_lt_iff hp hq
  have hmore := magnitude_lt_iff hq hp
  unfold Before
  rcases p.place_cases with ⟨hpp, hpv, hpm⟩ | ⟨hpp, hpv⟩ | ⟨hpp, hpv, hpm⟩ <;>
    rcases q.place_cases with ⟨hqp, hqv, hqm⟩ | ⟨hqp, hqv⟩ | ⟨hqp, hqv, hqm⟩ <;>
    rw [hpp, hqp, hpv, hqv] <;> dsimp only
  · rw [neg_lt_neg_iff.trans hmore]
    omega
  · exact iff_of_true (by omega) (by linarith)
  · exact iff_of_true (by omega) (by linarith)
  · exact iff_of_false (by omega) (by linarith)
  · exact iff_of_false (by omega) (by linarith)
  · exact iff_of_true (by omega) (by linarith)
  · exact iff_of_false (by omega) (by linarith)
  · exact iff_of_false (by omega) (by linarith)
  · rw [hless]
    omega

end Parts

/-- The number that a finite double is. -/
def value (x : Float) : ℚ := (parts x).value

theorem ofBitVec_unpackSign (x : Float) :
    Sign.ofBitVec (@unpackSign .binary64 x.toBits.toBitVec) =
      if isNegative x then .negative else .positive := by
  have hbit : (@unpackSign .binary64 x.toBits.toBitVec).toNat = x.toBits.toNat / 2 ^ 63 :=
    toNat_unpackSign _
  have hlt := x.toBits.toNat_lt
  cases hneg : isNegative x with
  | true =>
    have hle : 0x8000000000000000 ≤ x.toBits.toNat := of_decide_eq_true hneg
    have hone : @unpackSign .binary64 x.toBits.toBitVec = 1#1 := by
      refine BitVec.eq_of_toNat_eq ?_
      rw [hbit]
      show _ = 1
      omega
    rw [hone]
    rfl
  | false =>
    have hle : ¬0x8000000000000000 ≤ x.toBits.toNat := of_decide_eq_false hneg
    have hzero : @unpackSign .binary64 x.toBits.toBitVec = 0#1 := by
      refine BitVec.eq_of_toNat_eq ?_
      rw [hbit]
      show _ = 0
      omega
    rw [hzero]
    rfl

theorem place_finite (negative : Bool) {m : Nat} {e : Int} (h : 0 < m) :
    Binary64.place (.finite (if negative then .negative else .positive) m e h) =
      Parts.place ⟨negative, m, e⟩ := by
  rw [Parts.place, if_neg (Nat.pos_iff_ne_zero.mp h)]
  cases negative <;> rfl

/-- The parts are those that the double is compared by. -/
theorem place_unpack {x : Float} (h : x.isFinite = true) :
    Binary64.place x.toModel.unpack = (parts x).place := by
  have hexponent : (@unpackExponent .binary64 x.toBits.toBitVec).toNat =
      x.toBits.toNat / exponentBit % 0x800 := toNat_unpackExponent _
  have hmantissa : (@unpackMantissa .binary64 x.toBits.toBitVec).toNat =
      x.toBits.toNat % exponentBit := toNat_unpackMantissa _
  have hfinite : @unpackExponent .binary64 x.toBits.toBitVec ≠ -1#11 := by
    rw [Ne, exponent_eq_iff, not_le]
    exact isFinite_iff.mp h
  have hbias : ((Format.binary64.exponentBias : Nat) : Int) +
      Format.binary64.mantissaBitsWithoutImplicit = 1075 := rfl
  show Binary64.place (UnpackedFloat.unpack .binary64 x.toBits.toBitVec) = _
  unfold UnpackedFloat.unpack parts
  dsimp only
  rw [if_neg hfinite, ofBitVec_unpackSign, hbias]
  by_cases hsub : @unpackExponent .binary64 x.toBits.toBitVec = 0#11
  · have hfield : x.toBits.toNat / exponentBit % 0x800 = 0 := by
      rw [← hexponent, hsub]
      rfl
    rw [if_pos hsub, if_pos hfield]
    by_cases hzero : @unpackMantissa .binary64 x.toBits.toBitVec = 0#52
    · have hfraction : x.toBits.toNat % exponentBit = 0 := by
        rw [← hmantissa, hzero]
        rfl
      rw [dif_pos hzero, Parts.place, if_pos hfraction]
      rfl
    · rw [dif_neg hzero, place_finite, hmantissa, hexponent, hfield]
      rfl
  · have hfield : ¬x.toBits.toNat / exponentBit % 0x800 = 0 := by
      rw [← hexponent]
      exact fun heq => hsub (BitVec.eq_of_toNat_eq heq)
    rw [if_neg hsub, if_neg hfield, place_finite, toNat_one_append, hmantissa, hexponent,
      Nat.add_comm]
    rfl

/-- **Finite doubles are ordered like the numbers that they are.** -/
theorem lt_iff_value {x y : Float} (hx : x.isFinite = true) (hy : y.isFinite = true) :
    x < y ↔ value x < value y := by
  rw [lt_iff_place, place_unpack hx, place_unpack hy,
    Parts.before_place_iff (bounded_parts hx).1 (bounded_parts hy).1]
  exact ⟨fun hlt => hlt.2.2, fun hlt => ⟨isNaN_of_isFinite hx, isNaN_of_isFinite hy, hlt⟩⟩

theorem le_iff_value {x y : Float} (hx : x.isFinite = true) (hy : y.isFinite = true) :
    x ≤ y ↔ value x ≤ value y := by
  rw [le_iff_place, place_unpack hx, place_unpack hy,
    Parts.before_place_iff (bounded_parts hy).1 (bounded_parts hx).1, not_lt]
  exact ⟨fun hle => hle.2.2, fun hle => ⟨isNaN_of_isFinite hx, isNaN_of_isFinite hy, hle⟩⟩

/-! ### Whole numbers -/

/-- The double is that whole number. -/
structure IsWhole (x : Float) (n : Int) : Prop where
  isFinite : x.isFinite = true
  value : value x = n

namespace IsWhole

variable {x : Float} {n : Int}

/-- The parts of a whole number spell it without a rest. -/
theorem toInt_parts (h : IsWhole x n) : (parts x).toInt = n := by
  have hvalue : (parts x).value = n := h.value
  have hratio := (parts x).ratio_eq
  have hpos := (parts x).ratio_pos
  have hmagnitude : (parts x).magnitude = (n.natAbs : ℚ) := by
    have hnonneg : 0 ≤ (parts x).magnitude := by
      rw [Parts.magnitude]
      positivity
    rw [Nat.cast_natAbs, ← abs_of_nonneg hnonneg, Int.cast_abs, ← hvalue, Parts.value]
    split
    · rw [abs_neg]
    · rfl
  have hdiv : (parts x).ratio.1 / (parts x).ratio.2 = n.natAbs := by
    rw [← Parts.magnitude, hmagnitude, div_eq_iff (by positivity)] at hratio
    exact Nat.div_eq_of_eq_mul_left hpos (by exact_mod_cast hratio)
  rw [Parts.toInt, hdiv]
  rw [Parts.value, hmagnitude] at hvalue
  refine Int.cast_injective (α := ℚ) ?_
  rw [← hvalue, apply_ite (Int.cast (R := ℚ)), Int.cast_neg, Int.cast_natCast]

/-- **A whole number is truncated to itself**, if it lies in the interval. -/
theorem clampInt (h : IsWhole x n) {lo hi : Int} (hlo : lo ≤ n) (hhi : n ≤ hi) :
    Binary64.clampInt lo hi x = n := by
  rw [Binary64.clampInt, isNaN_of_isFinite h.isFinite, h.isFinite, h.toInt_parts]
  show max lo (min hi n) = n
  omega

theorem le_iff {y : Float} {k : Int} (hx : IsWhole x n) (hy : IsWhole y k) : x ≤ y ↔ n ≤ k := by
  rw [le_iff_value hx.isFinite hy.isFinite, hx.value, hy.value, Int.cast_le]

theorem lt_iff {y : Float} {k : Int} (hx : IsWhole x n) (hy : IsWhole y k) : x < y ↔ n < k := by
  rw [lt_iff_value hx.isFinite hy.isFinite, hx.value, hy.value, Int.cast_lt]

end IsWhole

/-- The parts of a double that was made from parts. -/
theorem parts_ofMagnitude {p : Parts} (h : p.Bounded) :
    parts (ofMagnitude p.negative p.bits) = p := by
  have hsign := isNegative_ofMagnitude p.negative p.bits
  have hbits := toNat_toBits_ofMagnitude p.negative p.bits
  obtain ⟨negative, mantissa, exponent⟩ := p
  obtain ⟨hmantissa, hlow, hhigh, hfull⟩ := h
  dsimp only at hmantissa hlow hhigh hfull hsign hbits ⊢
  -- the exponent counts the grids from the finest one
  obtain ⟨k, hk⟩ := Int.eq_ofNat_of_zero_le (by omega : 0 ≤ exponent + 1074)
  have hshape : Parts.bits ⟨negative, mantissa, exponent⟩ = k * exponentBit + mantissa := by
    rw [Parts.bits, hk, Int.toNat_natCast]
  rw [hshape] at hsign hbits ⊢
  rw [exponentBit] at hsign hbits ⊢
  rw [infinityBits, signBit, Nat.min_eq_left (by omega)] at hbits
  unfold parts
  dsimp only
  rw [hsign, hbits, exponentBit]
  have hfield : (k * 0x10000000000000 + mantissa + if negative then 0x8000000000000000 else 0) /
      0x10000000000000 % 0x800 = k + mantissa / 0x10000000000000 := by
    split <;> omega
  have hfraction : (k * 0x10000000000000 + mantissa + if negative then 0x8000000000000000 else 0) %
      0x10000000000000 = mantissa % 0x10000000000000 := by
    split <;> omega
  rw [hfield, hfraction]
  split
  · simp only [Parts.mk.injEq, true_and]
    omega
  · simp only [Parts.mk.injEq, true_and]
    omega

/-- A quotient that parts spell is the double with these parts. -/
theorem value_ofRatio {p : Parts} (h : p.Bounded) {num den : Nat} (hden : 0 < den)
    (hquotient : (num / den : ℚ) = p.magnitude) : value (ofRatio p.negative num den) = p.value := by
  rw [ofRatio_congr_div p.negative hden p.ratio_pos (hquotient.trans p.ratio_eq.symm),
    Parts.ofRatio_ratio h, value, parts_ofMagnitude h]

/-- **A natural number of no more than 53 bits is a double.** -/
theorem isWhole_ofNat {n : Nat} (h : n < 2 ^ 53) : IsWhole (ofNat n) n := by
  refine ⟨isFinite_ofNat n, ?_⟩
  have hword : (UInt64.ofNat n).toNat = n := by
    rw [UInt64.toNat_ofNat', Nat.mod_eq_of_lt (by omega)]
  rw [ofNat, hword]
  rcases Nat.eq_zero_or_pos n with rfl | hpos
  · have hbounded : Parts.Bounded ⟨false, 0, -1074⟩ :=
      ⟨by decide, le_refl _, by decide, .inl rfl⟩
    rw [value_ofRatio hbounded Nat.one_pos (by simp [Parts.magnitude])]
    simp [Parts.value, Parts.magnitude]
  · -- the mantissa is shifted up to 53 bits
    have hlow : 2 ^ n.log2 ≤ n := Nat.log2_self_le (Nat.pos_iff_ne_zero.mp hpos)
    have hhigh : n < 2 ^ (n.log2 + 1) := Nat.lt_log2_self
    have hlog : n.log2 ≤ 52 := by
      have := (Nat.log2_lt (Nat.pos_iff_ne_zero.mp hpos)).mpr h
      omega
    obtain ⟨k, hk⟩ := Nat.exists_eq_add_of_le hlog
    have hshift : 2 ^ n.log2 * 2 ^ k = 2 ^ 52 := by rw [← Nat.pow_add, ← hk]
    have hbounded : Parts.Bounded ⟨false, n * 2 ^ k, -k⟩ := by
      refine ⟨?_, by dsimp only; omega, by dsimp only; omega, .inr ?_⟩
      · calc n * 2 ^ k < 2 ^ (n.log2 + 1) * 2 ^ k := Nat.mul_lt_mul_of_pos_right hhigh (by positivity)
          _ = 2 ^ 53 := by rw [Nat.pow_succ, Nat.mul_right_comm, hshift, ← Nat.pow_succ]
      · calc 2 ^ 52 = 2 ^ n.log2 * 2 ^ k := hshift.symm
          _ ≤ n * 2 ^ k := Nat.mul_le_mul_right _ hlow
    have hmagnitude : Parts.magnitude ⟨false, n * 2 ^ k, -k⟩ = n := by
      rw [Parts.magnitude, zpow_neg, zpow_natCast]
      push_cast
      field_simp
    rw [value_ofRatio hbounded Nat.one_pos (by rw [hmagnitude, Nat.cast_one, div_one])]
    exact hmagnitude

end Recalc.Binary64
