/-
Recalc/Proofs/Number/Bits.lean

Doubles and their bits.  The bits of a double that is a number are the bits it was made from
(`toBits_ofBits`), so the sign, the parts and the negation of a double can be told from them.

The double nearest to a quotient depends on the quotient alone (`ofRatio_congr`), and the
double nearest to the value of a finite double is that double (`ofRatio_parts`).  It is finite
for every quotient that is not too large, natural numbers of 64 bits among them (`isFinite_ofNat`).

Design.  The grid of a quotient is the one on which its mantissa has 53 bits.  This is said
by two bounds with powers of two (`OnGrid`), and only one grid can satisfy them.
-/
import Recalc.Number.Binary64
import Mathlib.Algebra.Order.Field.Power
import Mathlib.Algebra.Order.Field.Rat
import Mathlib.Data.List.Basic
import Mathlib.Tactic.FieldSimp
import Mathlib.Tactic.Linarith
import Mathlib.Tactic.Positivity
import Mathlib.Tactic.Ring

namespace Recalc.Binary64

open Float.Model Float.Model.UnpackedFloat

/-! ### The fields of bits -/

theorem toNat_packComponents (s : Sign) (e : BitVec 11) (m : BitVec 52) :
    (packComponents .binary64 s e m).toNat =
      s.toBitVec.toNat * 2 ^ 63 + e.toNat * 2 ^ 52 + m.toNat := by
  rw [packComponents, BitVec.toNat_append, BitVec.toNat_append,
    ← Nat.shiftLeft_add_eq_or_of_lt e.isLt, ← Nat.shiftLeft_add_eq_or_of_lt m.isLt,
    Nat.shiftLeft_eq, Nat.shiftLeft_eq]
  show (_ * 2 ^ 11 + _) * 2 ^ 52 + _ = _
  omega

theorem toNat_unpackMantissa (b : BitVec 64) :
    (@unpackMantissa .binary64 b).toNat = b.toNat % 2 ^ 52 := by
  simp [unpackMantissa]

theorem toNat_unpackExponent (b : BitVec 64) :
    (@unpackExponent .binary64 b).toNat = b.toNat / 2 ^ 52 % 2 ^ 11 := by
  simp [unpackExponent, Nat.shiftRight_eq_div_pow]

theorem toNat_unpackSign (b : BitVec 64) :
    (@unpackSign .binary64 b).toNat = b.toNat / 2 ^ 63 := by
  have hlt := b.isLt
  unfold unpackSign
  rw [BitVec.toNat_cast, BitVec.extractLsb_toNat, Nat.shiftRight_eq_div_pow]
  show b.toNat / 2 ^ 63 % 2 = _
  omega

theorem toBitVec_ofBitVec (v : BitVec 1) : (Sign.ofBitVec v).toBitVec = v := by
  revert v
  decide

/-- Bits are put together from the fields they are split into. -/
theorem packComponents_fields (b : BitVec 64) :
    packComponents .binary64 (Sign.ofBitVec (@unpackSign .binary64 b))
      (@unpackExponent .binary64 b) (@unpackMantissa .binary64 b) = b := by
  refine BitVec.eq_of_toNat_eq ?_
  rw [toNat_packComponents, toBitVec_ofBitVec, toNat_unpackSign, toNat_unpackExponent,
    toNat_unpackMantissa]
  have hlt := b.isLt
  omega

theorem toNat_one_append (m : BitVec 52) : (1#1 ++ m).toNat = 2 ^ 52 + m.toNat := by
  rw [BitVec.toNat_append, ← Nat.shiftLeft_add_eq_or_of_lt m.isLt, Nat.shiftLeft_eq]
  rfl

theorem log2_eq {n k : Nat} (hlow : 2 ^ k ≤ n) (hhigh : n < 2 ^ (k + 1)) : n.log2 = k := by
  have hne : n ≠ 0 := by
    have := Nat.two_pow_pos k
    omega
  exact (Nat.log2_eq_iff hne).mpr ⟨hlow, hhigh⟩

theorem pack_normal (s : Sign) {m : Nat} {e : Int} (hpos : 0 < m) (hlow : 2 ^ 52 ≤ m)
    (hhigh : m < 2 ^ 53) (he : e ≤ 971) :
    UnpackedFloat.pack .binary64 (.finite s m e hpos) =
      packComponents .binary64 s (BitVec.ofNat 11 (e + 1075).toNat) (BitVec.ofNat 52 m) := by
  have hexponent : (e + Format.binary64.exponentBias +
      Format.binary64.mantissaBitsWithoutImplicit).toNat = (e + 1075).toNat := by
    show (e + (1023 : Nat) + (52 : Nat)).toNat = (e + 1075).toNat
    omega
  have hbits : 52 + 1 = Format.binary64.mantissaBits := rfl
  unfold UnpackedFloat.pack
  dsimp only
  rw [hexponent, log2_eq hlow hhigh, if_neg (by omega), if_pos hbits]

theorem pack_subnormal (s : Sign) {m : Nat} (hpos : 0 < m) (hhigh : m < 2 ^ 52) :
    UnpackedFloat.pack .binary64 (.finite s m (-1074) hpos) =
      packComponents .binary64 s 0#11 (BitVec.ofNat 52 m) := by
  have hlog : m.log2 < 52 := (Nat.log2_lt (Nat.pos_iff_ne_zero.mp hpos)).mpr hhigh
  have hbits : Format.binary64.mantissaBits = 53 := rfl
  unfold UnpackedFloat.pack
  dsimp only
  rw [if_neg (by decide), if_neg (by omega)]

/-- Packing gives back the bits that were unpacked, unless they were no number. -/
theorem pack_unpack {b : BitVec 64}
    (h : @unpackExponent .binary64 b = -1#11 → @unpackMantissa .binary64 b = 0#52) :
    UnpackedFloat.pack .binary64 (UnpackedFloat.unpack .binary64 b) = b := by
  have hfields := packComponents_fields b
  have hm : (@unpackMantissa .binary64 b).toNat < 2 ^ 52 := (@unpackMantissa .binary64 b).isLt
  have he : (@unpackExponent .binary64 b).toNat < 2 ^ 11 := (@unpackExponent .binary64 b).isLt
  unfold UnpackedFloat.unpack
  dsimp only
  by_cases hinf : @unpackExponent .binary64 b = -1#11
  · rw [if_pos hinf, if_pos (h hinf)]
    rw [hinf, h hinf] at hfields
    exact hfields
  · rw [if_neg hinf]
    by_cases hsub : @unpackExponent .binary64 b = 0#11
    · rw [if_pos hsub]
      by_cases hzero : @unpackMantissa .binary64 b = 0#52
      · rw [dif_pos hzero]
        rw [hsub, hzero] at hfields
        exact hfields
      · have hexponent : ((@unpackExponent .binary64 b).toNat : Int) -
            (Format.binary64.exponentBias + Format.binary64.mantissaBitsWithoutImplicit) + 1 =
              -1074 := by
          rw [hsub]
          rfl
        rw [dif_neg hzero, hexponent, pack_subnormal _ _ hm, BitVec.ofNat_toNat, BitVec.setWidth_eq]
        rw [hsub] at hfields
        exact hfields
    · have hmantissa := toNat_one_append (@unpackMantissa .binary64 b)
      have hne : (@unpackExponent .binary64 b).toNat ≠ 2 ^ 11 - 1 := fun heq =>
        hinf (BitVec.eq_of_toNat_eq heq)
      have hbias : ((Format.binary64.exponentBias : Nat) : Int) +
          Format.binary64.mantissaBitsWithoutImplicit = 1075 := rfl
      rw [if_neg hsub, hbias, pack_normal _ _ (by omega) (by omega) (by omega)]
      have hexponent : BitVec.ofNat 11 (((@unpackExponent .binary64 b).toNat : Int) - 1075 +
          1075).toNat = @unpackExponent .binary64 b := by
        rw [Int.sub_add_cancel, Int.toNat_natCast, BitVec.ofNat_toNat, BitVec.setWidth_eq]
      have hrest : BitVec.ofNat 52 (1#1 ++ @unpackMantissa .binary64 b).toNat =
          @unpackMantissa .binary64 b := by
        refine BitVec.eq_of_toNat_eq ?_
        rw [BitVec.toNat_ofNat, hmantissa]
        omega
      rw [hexponent, hrest]
      exact hfields

/-! ### Doubles and their bits -/

/-- The bits of a double without the sign. -/
def magnitudeBits (x : Float) : Nat := x.toBits.toNat % signBit

theorem exponent_eq_iff (b : BitVec 64) :
    @unpackExponent .binary64 b = -1#11 ↔ infinityBits ≤ b.toNat % signBit := by
  have hfield := toNat_unpackExponent b
  have hones : (-1#11).toNat = 2 ^ 11 - 1 := rfl
  rw [← BitVec.toNat_inj, hfield, hones, infinityBits, signBit]
  omega

/-- The bits of a double are those that it was made from, unless they were no number. -/
theorem toBits_ofBits {bits : UInt64} (h : bits.toNat % signBit ≤ infinityBits) :
    (Float.ofBits bits).toBits = bits := by
  refine UInt64.eq_of_toBitVec_eq (pack_unpack fun hexponent => ?_)
  have hleast := (exponent_eq_iff _).mp hexponent
  refine BitVec.eq_of_toNat_eq ?_
  rw [toNat_unpackMantissa]
  have heq : bits.toBitVec.toNat % signBit = infinityBits := le_antisymm h hleast
  rw [signBit, infinityBits] at heq
  show _ = 0
  omega

theorem isFinite_iff {x : Float} : x.isFinite = true ↔ magnitudeBits x < infinityBits := by
  have hexponent := exponent_eq_iff x.toBits.toBitVec
  show (UnpackedFloat.unpack .binary64 x.toBits.toBitVec).isFinite = true ↔ _
  rw [magnitudeBits, ← not_le]
  unfold UnpackedFloat.unpack
  dsimp only
  show _ ↔ ¬ infinityBits ≤ x.toBits.toBitVec.toNat % signBit
  rw [← hexponent]
  by_cases h : @unpackExponent .binary64 x.toBits.toBitVec = -1#11
  · refine iff_of_false ?_ (not_not_intro h)
    rw [if_pos h]
    split <;> exact Bool.noConfusion
  · refine iff_of_true ?_ h
    rw [if_neg h]
    by_cases hsub : @unpackExponent .binary64 x.toBits.toBitVec = 0#11
    · rw [if_pos hsub]
      by_cases hzero : @unpackMantissa .binary64 x.toBits.toBitVec = 0#52
      · rw [dif_pos hzero]
        rfl
      · rw [dif_neg hzero]
        rfl
    · rw [if_neg hsub]
      rfl

/-- A finite double is made from its bits. -/
theorem ofBits_toBits {x : Float} (h : x.isFinite = true) : Float.ofBits x.toBits = x := by
  have hbits : (Float.ofBits x.toBits).toBits = x.toBits := toBits_ofBits (isFinite_iff.mp h).le
  obtain ⟨⟨bits, valid⟩⟩ := x
  show Float.ofModel (Float.Model.ofBits bits) = _
  have hmodel : (Float.Model.ofBits bits).toBits = bits := hbits
  congr 1
  generalize Float.Model.ofBits bits = y at hmodel
  obtain ⟨bits', valid'⟩ := y
  subst hmodel
  rfl

theorem isNaN_of_isFinite {x : Float} (h : x.isFinite = true) : x.isNaN = false := by
  have hfinite : x.toModel.unpack.isFinite = true := h
  show x.toModel.unpack.isNaN = false
  cases hu : x.toModel.unpack with
  | notANumber =>
    rw [hu] at hfinite
    cases hfinite
  | _ => rfl

theorem beq_self_of_isFinite {x : Float} (h : x.isFinite = true) : (x == x) = true := by
  show (x.toModel.unpack.compare x.toModel.unpack == some .eq) = true
  have hfinite : x.toModel.unpack.isFinite = true := h
  generalize x.toModel.unpack = u at hfinite
  cases u with
  | infinity s => cases hfinite
  | notANumber => cases hfinite
  | zero s => rfl
  | finite s m e hm =>
    cases s with
    | negative =>
      show (some ((Ord.compare e e).then (Ord.compare m m)).swap == some .eq) = true
      simp
    | positive =>
      show (some ((Ord.compare e e).then (Ord.compare m m)) == some .eq) = true
      simp

theorem neg_finite {m n : Nat} (e : Int) (hm : 0 < m) (hn : 0 < n) (heq : n = m) :
    (UnpackedFloat.finite (.ofBitVec 0#1) m e hm).neg = .finite (.ofBitVec 1#1) n e hn := by
  subst heq
  rfl

theorem neg_unpack {v w : BitVec 64} (hv : v.toNat < signBit) (hw : w.toNat = v.toNat + signBit) :
    (UnpackedFloat.unpack .binary64 v).neg = UnpackedFloat.unpack .binary64 w := by
  rw [signBit] at hv hw
  have hmantissa : @unpackMantissa .binary64 w = @unpackMantissa .binary64 v := by
    refine BitVec.eq_of_toNat_eq ?_
    rw [toNat_unpackMantissa, toNat_unpackMantissa]
    omega
  have hexponent : @unpackExponent .binary64 w = @unpackExponent .binary64 v := by
    refine BitVec.eq_of_toNat_eq ?_
    rw [toNat_unpackExponent, toNat_unpackExponent]
    omega
  have hpositive : @unpackSign .binary64 v = 0#1 := by
    refine BitVec.eq_of_toNat_eq ?_
    rw [toNat_unpackSign]
    exact Nat.div_eq_of_lt hv
  have hnegative : @unpackSign .binary64 w = 1#1 := by
    refine BitVec.eq_of_toNat_eq ?_
    rw [toNat_unpackSign]
    show _ = 1
    omega
  unfold UnpackedFloat.unpack
  dsimp only
  rw [hexponent, hpositive, hnegative]
  by_cases hinf : @unpackExponent .binary64 v = -1#11
  · rw [if_pos hinf, if_pos hinf, hmantissa]
    split <;> rfl
  · rw [if_neg hinf, if_neg hinf]
    by_cases hsub : @unpackExponent .binary64 v = 0#11
    · rw [if_pos hsub, if_pos hsub]
      by_cases hzero : @unpackMantissa .binary64 v = 0#52
      · rw [dif_pos hzero, dif_pos (hmantissa.trans hzero)]
        rfl
      · rw [dif_neg hzero, dif_neg (hmantissa ▸ hzero)]
        exact neg_finite _ _ _ (congrArg BitVec.toNat hmantissa)
    · rw [if_neg hsub, if_neg hsub]
      exact neg_finite _ _ _ (congrArg (fun m => (1#1 ++ m).toNat) hmantissa)

theorem min_infinityBits_lt (bits : Nat) : min bits infinityBits < signBit :=
  lt_of_le_of_lt (Nat.min_le_right _ _) (by decide)

theorem toNat_toBits_ofMagnitude (negative : Bool) (bits : Nat) :
    (ofMagnitude negative bits).toBits.toNat =
      min bits infinityBits + if negative then signBit else 0 := by
  have hlt := min_infinityBits_lt bits
  have hle : min bits infinityBits ≤ infinityBits := Nat.min_le_right _ _
  have hbits : (UInt64.ofNat (min bits infinityBits + if negative then signBit else 0)).toNat =
      min bits infinityBits + if negative then signBit else 0 := by
    rw [UInt64.toNat_ofNat', Nat.mod_eq_of_lt]
    rw [signBit] at hlt ⊢
    split <;> omega
  rw [ofMagnitude, toBits_ofBits, hbits]
  rw [hbits]
  cases negative with
  | false => exact (Nat.mod_le _ _).trans hle
  | true => rwa [if_pos rfl, Nat.add_mod_right, Nat.mod_eq_of_lt hlt]

/-- Negation changes the sign bit only. -/
theorem neg_ofMagnitude (bits : Nat) : -ofMagnitude false bits = ofMagnitude true bits := by
  have hpositive := toNat_toBits_ofMagnitude false bits
  have hlt := min_infinityBits_lt bits
  have hword : (UInt64.ofNat (min bits infinityBits + signBit)).toBitVec.toNat =
      min bits infinityBits + signBit := by
    show (UInt64.ofNat _).toNat = _
    rw [UInt64.toNat_ofNat', Nat.mod_eq_of_lt]
    rw [signBit] at hlt ⊢
    omega
  refine congrArg (fun u => Float.ofModel (Float.Model.pack u)) (neg_unpack ?_ ?_)
  · exact hpositive.trans_lt hlt
  · exact hword.trans (congrArg (· + signBit) hpositive.symm)

theorem isNegative_ofMagnitude (negative : Bool) (bits : Nat) :
    isNegative (ofMagnitude negative bits) = negative := by
  rw [isNegative, toNat_toBits_ofMagnitude]
  cases negative with
  | false => 
    have hmin := Nat.min_le_right bits infinityBits
    have hlt : infinityBits < signBit := by decide
    simp only [Bool.false_eq_true, if_false, Nat.add_zero, decide_eq_false_iff_not, not_le]
    omega
  | true => 
    simp

/-- A finite double is told by its sign and its magnitude. -/
theorem ofMagnitude_magnitudeBits {x : Float} (h : x.isFinite = true) :
    ofMagnitude (isNegative x) (magnitudeBits x) = x := by
  have hmin := Nat.min_eq_left (isFinite_iff.mp h).le
  have hlt := x.toBits.toNat_lt
  rw [ofMagnitude, hmin]
  refine Eq.trans (congrArg Float.ofBits (UInt64.toNat_inj.mp ?_)) (ofBits_toBits h)
  rw [UInt64.toNat_ofNat', magnitudeBits, isNegative, signBit]
  split
  case isTrue hneg =>
    have := of_decide_eq_true hneg
    omega
  case isFalse hneg =>
    have := of_decide_eq_false (Bool.not_eq_true _ ▸ hneg)
    omega

/-! ### The grid of a quotient -/

/-- On the grid `2 ^ e` the quotient has a mantissa of 53 bits. -/
def OnGrid (num den : Nat) (e : Int) : Prop :=
  (2 : ℚ) ^ (e + 52) ≤ num / den ∧ (num / den : ℚ) < 2 ^ (e + 53)

variable {num den : Nat}

theorem lt_of_two_zpow_lt {a b : Int} (h : (2 : ℚ) ^ a < 2 ^ b) : a < b :=
  (zpow_lt_zpow_iff_right₀ (by norm_num)).mp h

/-- A quotient of naturals against a power of two, without division. -/
theorem two_zpow_le_div_iff (num : Nat) (hden : 0 < den) (e : Int) : (2 : ℚ) ^ e ≤ num / den ↔
    if 0 ≤ e then den * Nat.pow 2 e.toNat ≤ num else den ≤ num * Nat.pow 2 (-e).toNat := by
  have hden' : (0 : ℚ) < den := by exact_mod_cast hden
  split
  case isTrue he =>
    obtain ⟨k, rfl⟩ := Int.eq_ofNat_of_zero_le he
    rw [le_div_iff₀ hden', Int.toNat_natCast, zpow_natCast, mul_comm]
    exact_mod_cast Iff.rfl
  case isFalse he =>
    obtain ⟨k, hk⟩ := Int.eq_ofNat_of_zero_le (by omega : 0 ≤ -e)
    obtain rfl : e = -k := by omega
    rw [neg_neg, Int.toNat_natCast, zpow_neg, zpow_natCast, le_div_iff₀ hden',
      inv_mul_le_iff₀ (by positivity), mul_comm]
    exact_mod_cast Iff.rfl

theorem onGrid_unique {e e' : Int} (h : OnGrid num den e) (h' : OnGrid num den e') : e = e' := by
  have hlt := lt_of_two_zpow_lt (h.1.trans_lt h'.2)
  have hlt' := lt_of_two_zpow_lt (h'.1.trans_lt h.2)
  omega

/-- The binary logarithm of a natural bounds it. -/
theorem two_zpow_log2_le (h : 0 < num) : (2 : ℚ) ^ (num.log2 : Int) ≤ num := by
  rw [zpow_natCast]
  exact_mod_cast Nat.log2_self_le (Nat.pos_iff_ne_zero.mp h)

theorem lt_two_zpow_log2 (n : Nat) : (n : ℚ) < 2 ^ ((n.log2 : Int) + 1) := by
  have hlt : n < 2 ^ (n.log2 + 1) := Nat.lt_log2_self
  rw [show (n.log2 : Int) + 1 = ((n.log2 + 1 : Nat) : Int) by push_cast; rfl, zpow_natCast]
  exact_mod_cast hlt

/-- The grid of a quotient is the one on which it has 53 bits, or the finest one. -/
theorem exists_onGrid (hnum : 0 < num) (hden : 0 < den) :
    ∃ e, OnGrid num den e ∧ gridExponent num den = max (-1074) e := by
  have hden' : (0 : ℚ) < den := by exact_mod_cast hden
  have hnumLow := two_zpow_log2_le hnum
  have hnumHigh := lt_two_zpow_log2 num
  have hdenLow := two_zpow_log2_le hden
  have hdenHigh := lt_two_zpow_log2 den
  have hhigh : (num / den : ℚ) < 2 ^ ((num.log2 : Int) - den.log2 + 1) := by
    rw [div_lt_iff₀ hden']
    refine hnumHigh.trans_le ?_
    calc (2 : ℚ) ^ ((num.log2 : Int) + 1)
        = 2 ^ ((num.log2 : Int) - den.log2 + 1) * 2 ^ (den.log2 : Int) := by
          rw [← zpow_add₀ (by norm_num)]
          congr 1
          ring
      _ ≤ _ := by gcongr
  have hlow : (2 : ℚ) ^ ((num.log2 : Int) - den.log2 - 1) ≤ num / den := by
    rw [le_div_iff₀ hden']
    refine le_trans ?_ hnumLow
    calc (2 : ℚ) ^ ((num.log2 : Int) - den.log2 - 1) * den
        ≤ 2 ^ ((num.log2 : Int) - den.log2 - 1) * 2 ^ ((den.log2 : Int) + 1) := by gcongr
      _ = _ := by
          rw [← zpow_add₀ (by norm_num)]
          congr 1
          ring
  have hguess : (num.log2 : Int) - den.log2 - 52 + 52 = (num.log2 : Int) - den.log2 := by ring
  have hgrid : gridExponent num den = max (-1074) (if (2 : ℚ) ^ ((num.log2 : Int) - den.log2) ≤
      num / den then (num.log2 : Int) - den.log2 - 52 else (num.log2 : Int) - den.log2 - 52 - 1) := by
    have hfits := two_zpow_le_div_iff num hden ((num.log2 : Int) - den.log2)
    unfold gridExponent
    dsimp only
    rw [hguess]
    congr 1
    by_cases hsign : 0 ≤ (num.log2 : Int) - den.log2
    · simp only [if_pos hsign, decide_eq_true_eq] at hfits ⊢
      simp only [hfits]
    · simp only [if_neg hsign, decide_eq_true_eq] at hfits ⊢
      simp only [hfits]
  refine ⟨_, ?_, hgrid⟩
  split
  case isTrue hfits =>
    refine ⟨by rwa [hguess], ?_⟩
    rwa [show (num.log2 : Int) - den.log2 - 52 + 53 = num.log2 - den.log2 + 1 by ring]
  case isFalse hfits =>
    constructor
    · rwa [show (num.log2 : Int) - den.log2 - 52 - 1 + 52 = num.log2 - den.log2 - 1 by ring]
    · rw [show (num.log2 : Int) - den.log2 - 52 - 1 + 53 = num.log2 - den.log2 by ring]
      exact not_le.mp hfits

theorem gridExponent_eq (hnum : 0 < num) (hden : 0 < den) {q : Int} (hq : -1074 ≤ q)
    (hlow : q = -1074 ∨ (2 : ℚ) ^ (q + 52) ≤ num / den)
    (hhigh : (num / den : ℚ) < 2 ^ (q + 53)) : gridExponent num den = q := by
  obtain ⟨e, he, hgrid⟩ := exists_onGrid hnum hden
  have hle := lt_of_two_zpow_lt (he.1.trans_lt hhigh)
  rw [hgrid]
  rcases hlow with rfl | hlow
  · omega
  · have hge := lt_of_two_zpow_lt (hlow.trans_lt he.2)
    omega

/-! ### Rounding -/

theorem roundDiv_mul_right (n d : Nat) {c : Nat} (hc : 0 < c) :
    roundDiv (n * c) (d * c) = roundDiv n d := by
  unfold roundDiv
  dsimp only
  rw [Nat.mul_div_mul_right _ _ hc, Nat.mul_mod_mul_right, ← Nat.mul_assoc]
  simp only [Nat.mul_lt_mul_right hc]

/-- A quotient without a rest rounds to itself. -/
theorem roundDiv_mul_self (n : Nat) {d : Nat} (hd : 0 < d) : roundDiv (n * d) d = n := by
  unfold roundDiv
  dsimp only
  rw [Nat.mul_div_cancel _ hd, Nat.mul_mod_left, if_pos (by omega)]

theorem roundDiv_congr {n d n' d' : Nat} (hd : 0 < d) (hd' : 0 < d') (h : n * d' = n' * d) :
    roundDiv n d = roundDiv n' d' := by
  rw [← roundDiv_mul_right n d hd', ← roundDiv_mul_right n' d' hd, h, Nat.mul_comm d d']

/-- **The nearest double depends on the quotient alone.** -/
theorem ofRatio_congr (negative : Bool) {n d n' d' : Nat} (hd : 0 < d) (hd' : 0 < d')
    (h : n * d' = n' * d) : ofRatio negative n d = ofRatio negative n' d' := by
  have hzero : n = 0 ↔ n' = 0 := by
    constructor
    · rintro rfl
      rw [Nat.zero_mul] at h
      exact (Nat.mul_eq_zero.mp h.symm).resolve_right (Nat.pos_iff_ne_zero.mp hd)
    · rintro rfl
      rw [Nat.zero_mul] at h
      exact (Nat.mul_eq_zero.mp h).resolve_right (Nat.pos_iff_ne_zero.mp hd')
  unfold ofRatio
  by_cases hn : n = 0
  · rw [if_pos hn, if_pos (hzero.mp hn)]
  · have hn' : n' ≠ 0 := fun h => hn (hzero.mpr h)
    have hquotient : (n / d : ℚ) = n' / d' := by
      rw [div_eq_div_iff (by positivity) (by positivity)]
      exact_mod_cast h
    have hgrid : gridExponent n d = gridExponent n' d' := by
      obtain ⟨e, he, hgrid⟩ := exists_onGrid (Nat.pos_of_ne_zero hn) hd
      obtain ⟨e', he', hgrid'⟩ := exists_onGrid (Nat.pos_of_ne_zero hn') hd'
      rw [OnGrid, hquotient] at he
      rw [hgrid, hgrid', onGrid_unique he he']
    rw [if_neg hn, if_neg hn']
    dsimp only
    rw [hgrid]
    congr 2
    split
    · refine roundDiv_congr (Nat.mul_pos hd (Nat.two_pow_pos _))
        (Nat.mul_pos hd' (Nat.two_pow_pos _)) ?_
      rw [← Nat.mul_assoc, h, Nat.mul_assoc]
    · refine roundDiv_congr hd hd' ?_
      rw [Nat.mul_right_comm, h, Nat.mul_right_comm]

theorem ofRatio_congr_div (negative : Bool) {n d n' d' : Nat} (hd : 0 < d) (hd' : 0 < d')
    (h : (n / d : ℚ) = n' / d') : ofRatio negative n d = ofRatio negative n' d' := by
  rw [div_eq_div_iff (by positivity) (by positivity)] at h
  exact ofRatio_congr negative hd hd' (by exact_mod_cast h)

/-! ### The parts of a double -/

/-- Parts that a finite double can have. -/
structure Parts.Bounded (p : Parts) : Prop where
  mantissa_lt : p.mantissa < 2 ^ 53
  le_exponent : -1074 ≤ p.exponent
  exponent_le : p.exponent ≤ 971
  full : p.exponent = -1074 ∨ 2 ^ 52 ≤ p.mantissa

/-- The bits of the magnitude, from the parts. -/
def Parts.bits (p : Parts) : Nat := (p.exponent + 1074).toNat * exponentBit + p.mantissa

theorem bounded_parts {x : Float} (h : x.isFinite = true) :
    (parts x).Bounded ∧ (parts x).bits = magnitudeBits x := by
  have hlt := isFinite_iff.mp h
  rw [magnitudeBits, signBit, infinityBits] at hlt
  unfold Parts.bits parts magnitudeBits
  rw [exponentBit, signBit]
  dsimp only
  split
  case isTrue hfield =>
    refine ⟨⟨?_, le_refl _, ?_, .inl rfl⟩, ?_⟩
    all_goals
      dsimp only
      omega
  case isFalse hfield =>
    refine ⟨⟨?_, ?_, ?_, .inr ?_⟩, ?_⟩
    all_goals
      dsimp only
      omega

theorem negative_parts (x : Float) : (parts x).negative = isNegative x := by
  unfold parts
  dsimp only
  split <;> rfl

namespace Parts

variable {p : Parts}

theorem ratio_pos (p : Parts) : 0 < p.ratio.2 := by
  unfold ratio
  split
  · exact Nat.one_pos
  · exact Nat.two_pow_pos _

theorem ratio_fst_pos (hm : 0 < p.mantissa) : 0 < p.ratio.1 := by
  unfold ratio
  split
  · exact Nat.mul_pos hm (Nat.two_pow_pos _)
  · exact hm

/-- The value of the parts. -/
theorem ratio_eq (p : Parts) : (p.ratio.1 / p.ratio.2 : ℚ) = p.mantissa * 2 ^ p.exponent := by
  unfold ratio
  split
  case isTrue he =>
    obtain ⟨k, hk⟩ := Int.eq_ofNat_of_zero_le he
    rw [hk, Int.toNat_natCast, zpow_natCast]
    push_cast
    rw [div_one]
    norm_cast
  case isFalse he =>
    obtain ⟨k, hk⟩ := Int.eq_ofNat_of_zero_le (by omega : 0 ≤ -p.exponent)
    rw [hk, Int.toNat_natCast, show p.exponent = -k by omega, zpow_neg, zpow_natCast]
    rw [div_eq_mul_inv]
    norm_cast

theorem gridExponent_ratio (h : p.Bounded) (hm : 0 < p.mantissa) :
    gridExponent p.ratio.1 p.ratio.2 = p.exponent := by
  have hvalue := p.ratio_eq
  have htwo : (0 : ℚ) < 2 ^ p.exponent := by positivity
  refine gridExponent_eq (ratio_fst_pos hm) p.ratio_pos h.le_exponent (h.full.imp_right fun hfull => ?_) ?_
  · rw [hvalue, zpow_add₀ (by norm_num), mul_comm]
    refine mul_le_mul_of_nonneg_right ?_ htwo.le
    exact_mod_cast hfull
  · rw [hvalue, zpow_add₀ (by norm_num), mul_comm]
    refine mul_lt_mul_of_pos_left ?_ htwo
    exact_mod_cast h.mantissa_lt

theorem ofRatio_ratio (h : p.Bounded) :
    ofRatio p.negative p.ratio.1 p.ratio.2 = ofMagnitude p.negative p.bits := by
  rcases Nat.eq_zero_or_pos p.mantissa with hzero | hm
  case inl =>
    have hexponent : p.exponent = -1074 := h.full.resolve_right (by omega)
    have hnum : p.ratio.1 = 0 := by
      unfold ratio
      split
      · rw [hzero, Nat.zero_mul]
      · exact hzero
    rw [ofRatio, if_pos hnum, bits, hexponent, hzero]
    rfl
  case inr =>
    have hgrid := gridExponent_ratio h hm
    have hnum := Nat.pos_iff_ne_zero.mp (ratio_fst_pos hm)
    rw [ofRatio, if_neg hnum]
    dsimp only
    rw [hgrid, bits]
    congr 2
    unfold ratio
    split
    · rw [Nat.one_mul]
      exact roundDiv_mul_self _ (Nat.two_pow_pos _)
    · exact roundDiv_mul_self _ (Nat.two_pow_pos _)

end Parts

/-- **The double nearest to the value of a finite double is that double.** -/
theorem ofRatio_parts {x : Float} (h : x.isFinite = true) :
    ofRatio (isNegative x) (parts x).ratio.1 (parts x).ratio.2 = x := by
  obtain ⟨hbounded, hbits⟩ := bounded_parts h
  have hself := Parts.ofRatio_ratio hbounded
  rw [negative_parts, hbits] at hself
  rw [hself, ofMagnitude_magnitudeBits h]

/-! ### Finite results -/

theorem magnitudeBits_ofMagnitude (negative : Bool) (bits : Nat) :
    magnitudeBits (ofMagnitude negative bits) = min bits infinityBits := by
  have hlt := min_infinityBits_lt bits
  rw [magnitudeBits, toNat_toBits_ofMagnitude]
  cases negative with
  | false => exact Nat.mod_eq_of_lt hlt
  | true => rw [if_pos rfl, Nat.add_mod_right, Nat.mod_eq_of_lt hlt]

theorem isFinite_ofMagnitude (negative : Bool) {bits : Nat} (h : bits < infinityBits) :
    (ofMagnitude negative bits).isFinite = true := by
  rw [isFinite_iff, magnitudeBits_ofMagnitude]
  exact (Nat.min_le_left _ _).trans_lt h

theorem roundDiv_le {n d b : Nat} (hd : 0 < d) (h : n < b * d) : roundDiv n d ≤ b := by
  have hquotient : n / d < b := (Nat.div_lt_iff_lt_mul hd).mpr h
  unfold roundDiv
  dsimp only
  split
  · omega
  · split <;> omega

/-- On its grid a quotient has a mantissa of no more than 53 bits. -/
theorem lt_two_zpow_gridExponent (hnum : 0 < num) (hden : 0 < den) :
    (num / den : ℚ) < 2 ^ (gridExponent num den + 53) := by
  obtain ⟨e, he, hgrid⟩ := exists_onGrid hnum hden
  refine he.2.trans_le (zpow_le_zpow_right₀ (by norm_num) ?_)
  omega

/-- **A quotient that is not too large is near a finite double.** -/
theorem isFinite_ofRatio (negative : Bool) (hden : 0 < den) (h : (num / den : ℚ) < 2 ^ (1023 : Int)) :
    (ofRatio negative num den).isFinite = true := by
  unfold ofRatio
  split
  case isTrue => exact isFinite_ofMagnitude negative (by decide)
  case isFalse hne =>
    have hnum := Nat.pos_of_ne_zero hne
    have hden' : (0 : ℚ) < den := by exact_mod_cast hden
    have hgrid : gridExponent num den ≤ 970 := by
      obtain ⟨e, he, hgrid⟩ := exists_onGrid hnum hden
      have hlt := lt_of_two_zpow_lt (he.1.trans_lt h)
      omega
    have hbound := lt_two_zpow_gridExponent hnum hden
    dsimp only
    generalize gridExponent num den = g at hgrid hbound
    apply isFinite_ofMagnitude
    have hmantissa : (if 0 ≤ g then roundDiv num (den * Nat.pow 2 g.toNat)
        else roundDiv (num * Nat.pow 2 (-g).toNat) den) ≤ 2 ^ 53 := by
      rw [add_comm, zpow_add₀ (by norm_num), div_lt_iff₀ hden'] at hbound
      split
      case isTrue hg =>
        obtain ⟨k, rfl⟩ := Int.eq_ofNat_of_zero_le hg
        apply roundDiv_le (Nat.mul_pos hden (Nat.two_pow_pos _))
        rw [Int.toNat_natCast]
        rw [zpow_natCast, mul_assoc, mul_comm (_ ^ k)] at hbound
        exact_mod_cast hbound
      case isFalse hg =>
        obtain ⟨k, hk⟩ := Int.eq_ofNat_of_zero_le (by omega : 0 ≤ -g)
        obtain rfl : g = -k := by omega
        apply roundDiv_le hden
        rw [neg_neg, Int.toNat_natCast]
        rw [zpow_neg, zpow_natCast, mul_right_comm, lt_mul_inv_iff₀ (by positivity)] at hbound
        exact_mod_cast hbound
    rw [exponentBit, infinityBits]
    omega

/-- **The double nearest to a number of 64 bits is finite.** -/
theorem isFinite_ofNat (n : Nat) : (ofNat n).isFinite = true := by
  refine isFinite_ofRatio false Nat.one_pos ?_
  rw [Nat.cast_one, div_one]
  have hlt : (UInt64.ofNat n).toNat < 2 ^ 64 := (UInt64.ofNat n).toNat_lt
  calc ((UInt64.ofNat n).toNat : ℚ) < 2 ^ 64 := by exact_mod_cast hlt
    _ = 2 ^ (64 : Int) := by norm_cast
    _ ≤ 2 ^ (1023 : Int) := zpow_le_zpow_right₀ (by norm_num) (by norm_num)

end Recalc.Binary64
