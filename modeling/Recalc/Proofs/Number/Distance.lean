/-
Recalc/Proofs/Number/Distance.lean

How far two doubles are apart.  The distance is the same from both sides, rounding,
overflow and what is no number included (`abs_sub_swap`), so being near is symmetric
(`near_comm`).  It is not reflexive: finite doubles that are equal are near if the tolerance
is at least 0 (`near_of_beq`), but no infinity is near itself (`not_near_of_isInf`).

Design.  Two unpacked doubles that differ in their sign at most have one absolute value.
Both differences are rounded from opposite mantissas, so they differ in their sign at most,
and packing and unpacking keeps this (`abs_unpack_pack`).
-/
import Recalc.Eval.Comparison
import Recalc.Proofs.Number.Bits

namespace Recalc.Binary64

open Float.Model Float.Model.UnpackedFloat

/-! ### Unpacked doubles up to their sign -/

theorem abs_finite_congr (s t : Sign) {m n : Nat} (e : Int) (hm : 0 < m) (hn : 0 < n)
    (heq : m = n) :
    (UnpackedFloat.finite s m e hm).abs = (UnpackedFloat.finite t n e hn).abs := by
  subst heq
  rfl

theorem abs_zero_or_finite (s t : Sign) (m : Nat) (e : Int) :
    (if h : m = 0 then UnpackedFloat.zero s else .finite s m e (Nat.pos_of_ne_zero h)).abs =
      (if h : m = 0 then UnpackedFloat.zero t else .finite t m e (Nat.pos_of_ne_zero h)).abs := by
  by_cases h : m = 0
  · rw [dif_pos h, dif_pos h]
    rfl
  · rw [dif_neg h, dif_neg h]
    rfl

/-- Rounding does not look at the sign. -/
theorem abs_round (spec : Format) (s t : Sign) (m : Nat) (e : Int) :
    (UnpackedFloat.round spec s m e).abs = (UnpackedFloat.round spec t m e).abs := by
  unfold UnpackedFloat.round roundWithAccuracy
  exact abs_zero_or_finite s t _ _

theorem abs_normalize_neg (spec : Format) (m e : Int) (s t : Sign) :
    (UnpackedFloat.normalize spec (-m) e s).abs = (UnpackedFloat.normalize spec m e t).abs := by
  rcases Int.lt_trichotomy m 0 with hneg | rfl | hpos
  · have hlt : compare m 0 = .lt := Int.compare_eq_lt.mpr hneg
    have hgt : compare (-m) 0 = .gt := Int.compare_eq_gt.mpr (by omega)
    unfold UnpackedFloat.normalize
    rw [hlt, hgt]
    exact abs_round spec _ _ _ e
  · rfl
  · have hgt : compare m 0 = .gt := Int.compare_eq_gt.mpr hpos
    have hlt : compare (-m) 0 = .lt := Int.compare_eq_lt.mpr (by omega)
    unfold UnpackedFloat.normalize
    rw [hlt, hgt]
    dsimp only
    rw [Int.neg_neg]
    exact abs_round spec _ _ _ e

/-- **The two differences of unpacked doubles differ in their sign at most.** -/
theorem abs_unpacked_sub_comm (spec : Format) (u v : UnpackedFloat) :
    (UnpackedFloat.sub spec u v).abs = (UnpackedFloat.sub spec v u).abs := by
  cases u with
  | notANumber => cases v <;> rfl
  | infinity s =>
    cases v with
    | infinity t => cases s <;> cases t <;> rfl
    | _ => rfl
  | zero s =>
    cases v with
    | zero t => cases s <;> cases t <;> rfl
    | _ => rfl
  | finite s m e hm =>
    cases v with
    | finite t n f hn =>
      unfold UnpackedFloat.sub
      dsimp only
      rw [Int.min_comm f e, ← Int.neg_sub]
      exact abs_normalize_neg spec _ _ _ _
    | _ => rfl

/-! ### Equal doubles -/

theorem finite_congr {s : Sign} {m n : Nat} {e f : Int} (hm : 0 < m) (hn : 0 < n)
    (h : (compare e f).then (compare m n) = .eq) :
    UnpackedFloat.finite s m e hm = .finite s n f hn := by
  rw [Ordering.then_eq_eq, Std.LawfulEqOrd.compare_eq_iff_eq,
    Std.LawfulEqOrd.compare_eq_iff_eq] at h
  obtain ⟨rfl, rfl⟩ := h
  rfl

/-- Equal doubles are the same but for the sign of zero. -/
theorem unpacked_eq_of_beq {u v : UnpackedFloat} (h : u.beq v = true) :
    u = v ∨ ∃ s t, u = .zero s ∧ v = .zero t := by
  have hcompare : u.compare v = some .eq := eq_of_beq h
  cases u with
  | notANumber => cases v <;> cases hcompare
  | infinity s =>
    left
    cases v with
    | infinity t =>
      cases s <;> cases t
      · rfl
      · cases hcompare
      · cases hcompare
      · rfl
    | _ => cases s <;> cases hcompare
  | zero s =>
    cases v with
    | zero t => exact .inr ⟨s, t, rfl, rfl⟩
    | infinity t => cases t <;> cases hcompare
    | notANumber => cases hcompare
    | finite t n f hn => cases t <;> cases hcompare
  | finite s m e hm =>
    left
    cases v with
    | finite t n f hn =>
      cases s <;> cases t
      · exact finite_congr hm hn (Ordering.swap_eq_eq.mp (Option.some.inj hcompare))
      · cases hcompare
      · cases hcompare
      · exact finite_congr hm hn (Option.some.inj hcompare)
    | infinity t => cases s <;> cases t <;> cases hcompare
    | notANumber => cases s <;> cases hcompare
    | zero t => cases s <;> cases hcompare

/-- Equality of doubles does not see their order. -/
theorem beq_swap (x y : Float) : (x == y) = (y == x) := by
  have himp {u v : UnpackedFloat} (h : u.beq v = true) : v.beq u = true := by
    rcases unpacked_eq_of_beq h with rfl | ⟨s, t, rfl, rfl⟩
    · exact h
    · rfl
  show x.toModel.unpack.beq y.toModel.unpack = y.toModel.unpack.beq x.toModel.unpack
  exact Bool.eq_iff_iff.mpr ⟨himp, himp⟩

/-! ### Packing -/

/-- Bits that differ in the sign at most are unpacked so. -/
theorem abs_unpack_congr {spec : Format} {b b' : BitVec spec.numBits}
    (hexponent : unpackExponent b = unpackExponent b')
    (hmantissa : unpackMantissa b = unpackMantissa b') :
    (UnpackedFloat.unpack spec b).abs = (UnpackedFloat.unpack spec b').abs := by
  unfold UnpackedFloat.unpack
  dsimp only
  rw [hexponent]
  by_cases hinf : unpackExponent b' = -1#_
  · rw [if_pos hinf, if_pos hinf, hmantissa]
    by_cases hzero : unpackMantissa b' = 0#_
    · rw [if_pos hzero, if_pos hzero]
      rfl
    · rw [if_neg hzero, if_neg hzero]
  · rw [if_neg hinf, if_neg hinf]
    by_cases hsub : unpackExponent b' = 0#_
    · rw [if_pos hsub, if_pos hsub]
      by_cases hzero : unpackMantissa b' = 0#_
      · rw [dif_pos hzero, dif_pos (hmantissa.trans hzero)]
        rfl
      · rw [dif_neg hzero, dif_neg (hmantissa ▸ hzero)]
        exact abs_finite_congr _ _ _ _ _ (congrArg BitVec.toNat hmantissa)
    · rw [if_neg hsub, if_neg hsub]
      exact abs_finite_congr _ _ _ _ _ (congrArg (fun m => (1#1 ++ m).toNat) hmantissa)

theorem abs_unpack_packComponents (spec : Format) (s t : Sign) (e : BitVec spec.exponentBits)
    (m : BitVec spec.mantissaBitsWithoutImplicit) :
    (UnpackedFloat.unpack spec (packComponents spec s e m)).abs =
      (UnpackedFloat.unpack spec (packComponents spec t e m)).abs :=
  abs_unpack_congr (unpackExponent_packComponents.trans unpackExponent_packComponents.symm)
    (unpackMantissa_packComponents.trans unpackMantissa_packComponents.symm)

/-- **Packing keeps doubles that differ in their sign at most so.** -/
theorem abs_unpack_pack (spec : Format) {u v : UnpackedFloat} (h : u.abs = v.abs) :
    (UnpackedFloat.unpack spec (UnpackedFloat.pack spec u)).abs =
      (UnpackedFloat.unpack spec (UnpackedFloat.pack spec v)).abs := by
  cases u with
  | notANumber =>
    cases v with
    | notANumber => rfl
    | _ => cases h
  | infinity s =>
    cases v with
    | infinity t => exact abs_unpack_packComponents spec s t _ _
    | _ => cases h
  | zero s =>
    cases v with
    | zero t => exact abs_unpack_packComponents spec s t _ _
    | _ => cases h
  | finite s m e hm =>
    cases v with
    | finite t n f hn =>
      injection h with _ hmantissa hexponent
      subst hmantissa hexponent
      unfold UnpackedFloat.pack
      dsimp only
      by_cases hlarge : 2 ^ spec.exponentBits ≤
          (e + spec.exponentBias + spec.mantissaBitsWithoutImplicit).toNat + 1
      · rw [if_pos hlarge, if_pos hlarge]
        exact abs_unpack_packComponents spec s t _ _
      · rw [if_neg hlarge, if_neg hlarge]
        by_cases hnormal : m.log2 + 1 = spec.mantissaBits
        · rw [if_pos hnormal, if_pos hnormal]
          exact abs_unpack_packComponents spec s t _ _
        · rw [if_neg hnormal, if_neg hnormal]
          exact abs_unpack_packComponents spec s t _ _
    | _ => cases h

/-! ### Distances -/

/-- **The distance of two doubles is the same from both sides.** -/
theorem abs_sub_swap (x y : Float) : (x - y).abs = (y - x).abs := by
  have hunpacked := abs_unpacked_sub_comm .binary64 x.toModel.unpack y.toModel.unpack
  exact congrArg (fun u => Float.ofModel (Float.Model.pack u)) (abs_unpack_pack _ hunpacked)

/-- **Being near is symmetric.** -/
theorem near_comm (tolerance x y : Float) : near tolerance x y = near tolerance y x := by
  rw [near, near, abs_sub_swap]

theorem unpacked_sub_self {u : UnpackedFloat} (h : u.isFinite = true) :
    UnpackedFloat.sub .binary64 u u = .zero .positive := by
  cases u with
  | notANumber => cases h
  | infinity s => cases h
  | zero s => cases s <;> rfl
  | finite s m e hm =>
    unfold UnpackedFloat.sub
    dsimp only
    rw [Int.sub_self]
    rfl

/-- The distance of equal numbers is 0. -/
theorem abs_sub_of_beq {x y : Float} (hx : x.isFinite = true) (h : (x == y) = true) :
    (x - y).abs = 0.0 := by
  have hunpacked :
      ∃ s, UnpackedFloat.sub .binary64 x.toModel.unpack y.toModel.unpack = .zero s := by
    have hfinite : x.toModel.unpack.isFinite = true := hx
    rcases unpacked_eq_of_beq h with heq | ⟨s, t, hs, ht⟩
    · exact ⟨.positive, heq ▸ unpacked_sub_self hfinite⟩
    · rw [hs, ht]
      cases s <;> cases t <;> exact ⟨_, rfl⟩
  obtain ⟨s, hs⟩ := hunpacked
  have hzero : x - y = Float.ofModel (Float.Model.pack (.zero s)) :=
    congrArg (fun u => Float.ofModel (Float.Model.pack u)) hs
  rw [hzero]
  cases s <;> rfl

/-- **Equal finite doubles are near**, if the tolerance is at least 0. -/
theorem near_of_beq {tolerance x y : Float} (htolerance : 0.0 ≤ tolerance) (hx : x.isFinite = true)
    (h : (x == y) = true) : near tolerance x y = true := by
  rw [near, abs_sub_of_beq hx h]
  exact decide_eq_true htolerance

/-- An infinity is not near itself. -/
theorem not_near_of_isInf {tolerance x y : Float} (hx : x.isInf = true) (h : (x == y) = true) :
    near tolerance x y = false := by
  have hunpacked : UnpackedFloat.sub .binary64 x.toModel.unpack y.toModel.unpack = .notANumber := by
    have hinf : x.toModel.unpack.isInf = true := hx
    rcases unpacked_eq_of_beq h with heq | ⟨s, t, hs, -⟩
    · rw [← heq]
      generalize x.toModel.unpack = u at hinf
      cases u with
      | infinity s => cases s <;> rfl
      | _ => cases hinf
    · rw [hs] at hinf
      cases hinf
  have hnan : x - y = Float.ofModel (Float.Model.pack .notANumber) :=
    congrArg (fun u => Float.ofModel (Float.Model.pack u)) hunpacked
  rw [near, hnan]
  rfl

theorem isInf_of_not_isFinite {x y : Float} (h : (x == y) = true) (hx : ¬x.isFinite = true) :
    x.isInf = true := by
  have hbeq : x.toModel.unpack.beq y.toModel.unpack = true := h
  have hfinite : ¬x.toModel.unpack.isFinite = true := hx
  show x.toModel.unpack.isInf = true
  generalize x.toModel.unpack = u at hbeq hfinite
  cases u with
  | notANumber => cases hbeq
  | infinity s => rfl
  | zero s => exact absurd rfl hfinite
  | finite s m e hm => exact absurd rfl hfinite

/-- **A finite double is near itself**, if the tolerance is at least 0. -/
theorem near_self {tolerance x : Float} (hx : x.isFinite = true) (h : 0.0 ≤ tolerance) :
    near tolerance x x = true :=
  near_of_beq h hx (beq_self_of_isFinite hx)

end Recalc.Binary64
