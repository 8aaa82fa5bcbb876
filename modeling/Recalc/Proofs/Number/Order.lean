/-
Recalc/Proofs/Number/Order.lean

The order of doubles.  A double that is a number has a place: minus infinity, the negative
numbers, zero, the positive numbers, infinity, and among numbers of one sign the exponent
and then the mantissa.  Being less is being less in this place (`lt_iff_place`), hence it
is transitive and irreflexive, and no number stands to one that is none.  Being at most is
not being greater (`le_iff_place`).

The smallest of several doubles is one of them and none of them is less; it is no number
only if none of them is one.  Taking the smaller of it and one double more is the smallest
of all of these (`IsSmallest.append_singleton`).
-/
import Recalc.Number.Binary64
import Mathlib.Data.List.Basic

namespace Recalc.Binary64

open Float.Model

/-- The place of an unpacked double: its class, and the exponent and mantissa with the sign. -/
def place : UnpackedFloat → Int × Int × Int
  | .infinity .negative => (-2, 0, 0)
  | .finite .negative m e _ => (-1, -e, -m)
  | .zero _ => (0, 0, 0)
  | .finite .positive m e _ => (1, e, m)
  | .infinity .positive => (2, 0, 0)
  | .notANumber => (3, 0, 0)

/-- Less in the first coordinate in which two places differ. -/
def Before (p q : Int × Int × Int) : Prop :=
  p.1 < q.1 ∨ p.1 = q.1 ∧ (p.2.1 < q.2.1 ∨ p.2.1 = q.2.1 ∧ p.2.2 < q.2.2)

theorem then_eq_lt_iff {e₁ e₂ : Int} {m₁ m₂ : Nat} :
    (compare e₁ e₂).then (compare m₁ m₂) = .lt ↔ e₁ < e₂ ∨ e₁ = e₂ ∧ m₁ < m₂ := by
  rw [Ordering.then_eq_lt, Std.compare_eq_lt, Std.compare_eq_lt, Std.LawfulEqOrd.compare_eq_iff_eq]

theorem then_eq_gt_iff {e₁ e₂ : Int} {m₁ m₂ : Nat} :
    (compare e₁ e₂).then (compare m₁ m₂) = .gt ↔ e₂ < e₁ ∨ e₁ = e₂ ∧ m₂ < m₁ := by
  rw [Ordering.then_eq_gt, Std.compare_eq_gt, Std.compare_eq_gt, Std.LawfulEqOrd.compare_eq_iff_eq]

theorem compare_sign_eq_lt_iff {s t : UnpackedFloat.Sign} :
    compare s t = .lt ↔ s = .negative ∧ t = .positive := by
  cases s <;> cases t <;> simp [compare]

/-- What is no number has the last place. -/
theorem isNaN_eq_false_iff (p : UnpackedFloat) : p.isNaN = false ↔ (place p).1 < 3 := by
  cases p with
  | infinity s => cases s <;> exact iff_of_true rfl (by decide)
  | notANumber => exact iff_of_false Bool.noConfusion (by decide)
  | zero s => exact iff_of_true rfl (by decide : (0 : Int) < 3)
  | finite s m e h =>
      cases s with
      | positive => exact iff_of_true rfl (by decide : (1 : Int) < 3)
      | negative => exact iff_of_true rfl (by decide : (-1 : Int) < 3)

theorem unpacked_lt_iff (p q : UnpackedFloat) :
    p.lt q = true ↔ p.isNaN = false ∧ q.isNaN = false ∧ Before (place p) (place q) := by
  rw [isNaN_eq_false_iff, isNaN_eq_false_iff]
  rcases p with s | _ | s | ⟨s, m, e, _⟩ <;> rcases q with t | _ | t | ⟨t, m', e', _⟩ <;>
    (try cases s) <;> (try cases t) <;>
    dsimp only [UnpackedFloat.lt, UnpackedFloat.compare, place, Before] <;>
    simp [compare_sign_eq_lt_iff, then_eq_lt_iff, then_eq_gt_iff]

/-- **Being less is being less in the place.** -/
theorem lt_iff_place (x y : Float) :
    x < y ↔ x.isNaN = false ∧ y.isNaN = false ∧
      Before (place x.toModel.unpack) (place y.toModel.unpack) := by
  have hmodel : x < y ↔ x.toModel.unpack.lt y.toModel.unpack = true := by
    show decide (x.toModel < y.toModel) = true ↔ _
    rw [decide_eq_true_eq]
    rfl
  exact hmodel.trans (unpacked_lt_iff _ _)

theorem isLE_then_iff {e₁ e₂ : Int} {m₁ m₂ : Nat} :
    ((compare e₁ e₂).then (compare m₁ m₂)).isLE = true ↔ ¬(e₂ < e₁ ∨ e₂ = e₁ ∧ m₂ < m₁) := by
  rw [@eq_comm _ e₂, ← then_eq_gt_iff]
  cases (compare e₁ e₂).then (compare m₁ m₂) <;> decide

theorem isGE_then_iff {e₁ e₂ : Int} {m₁ m₂ : Nat} :
    ((compare e₁ e₂).then (compare m₁ m₂)).isGE = true ↔ ¬(e₁ < e₂ ∨ e₂ = e₁ ∧ m₁ < m₂) := by
  rw [@eq_comm _ e₂, ← then_eq_lt_iff]
  cases (compare e₁ e₂).then (compare m₁ m₂) <;> decide

theorem isLE_compare_sign_iff {s t : UnpackedFloat.Sign} :
    (compare s t).isLE = true ↔ ¬(t = .negative ∧ s = .positive) := by
  cases s <;> cases t <;> simp [compare]

theorem unpacked_le_iff (p q : UnpackedFloat) :
    p.le q = true ↔ p.isNaN = false ∧ q.isNaN = false ∧ ¬Before (place q) (place p) := by
  rw [isNaN_eq_false_iff, isNaN_eq_false_iff]
  rcases p with s | _ | s | ⟨s, m, e, _⟩ <;> rcases q with t | _ | t | ⟨t, m', e', _⟩ <;>
    (try cases s) <;> (try cases t) <;>
    dsimp only [UnpackedFloat.le, UnpackedFloat.compare, place, Before] <;>
    simp [isLE_compare_sign_iff, isLE_then_iff, isGE_then_iff]

/-- A number is at most another one if that is not less in the place. -/
theorem le_iff_place (x y : Float) :
    x ≤ y ↔ x.isNaN = false ∧ y.isNaN = false ∧
      ¬Before (place y.toModel.unpack) (place x.toModel.unpack) := by
  have hmodel : x ≤ y ↔ x.toModel.unpack.le y.toModel.unpack = true := by
    show decide (x.toModel ≤ y.toModel) = true ↔ _
    rw [decide_eq_true_eq]
    rfl
  exact hmodel.trans (unpacked_le_iff _ _)

theorem lt_trans {x y z : Float} (hxy : x < y) (hyz : y < z) : x < z := by
  rw [lt_iff_place] at hxy hyz ⊢
  refine ⟨hxy.1, hyz.2.1, ?_⟩
  have h₁ := hxy.2.2
  have h₂ := hyz.2.2
  unfold Before at h₁ h₂ ⊢
  omega

theorem lt_irrefl (x : Float) : ¬ x < x := by
  rw [lt_iff_place]
  rintro ⟨-, -, h⟩
  unfold Before at h
  omega

theorem not_lt_of_isNaN {x y : Float} (h : x.isNaN = true) : ¬ x < y := by
  rw [lt_iff_place, h]
  simp

/-! ### The smallest of several -/

/-- A double is the smallest of some: one of them, with none of them less, and a number if one of
them is. -/
def IsSmallest (x : Float) (xs : List Float) : Prop :=
  x ∈ xs ∧ (∀ y ∈ xs, ¬ y < x) ∧ (x.isNaN = true → ∀ y ∈ xs, y.isNaN = true)

theorem isSmallest_singleton (x : Float) : IsSmallest x [x] := by
  refine ⟨List.mem_singleton_self x, fun y hy => ?_, fun hx y hy => ?_⟩
  · rw [List.mem_singleton.mp hy]
    exact lt_irrefl x
  · rw [List.mem_singleton.mp hy]
    exact hx

theorem IsSmallest.append_singleton {x : Float} {xs : List Float} (h : IsSmallest x xs)
    (y : Float) : IsSmallest (smaller x y) (xs ++ [y]) := by
  obtain ⟨hmem, hleast, hnan⟩ := h
  have hboth : ∀ {P : Float → Prop}, (∀ z ∈ xs, P z) → P y → ∀ z ∈ xs ++ [y], P z := by
    intro P hxs hy z hz
    rcases List.mem_append.mp hz with hz | hz
    · exact hxs z hz
    · exact List.mem_singleton.mp hz ▸ hy
  have hy : y ∈ xs ++ [y] := List.mem_append_right _ (List.mem_singleton_self y)
  have hx : x ∈ xs ++ [y] := List.mem_append_left _ hmem
  unfold smaller
  by_cases hxn : x.isNaN
  · -- so far there was no number
    rw [if_pos hxn]
    exact ⟨hy, hboth (fun z hz => not_lt_of_isNaN (hnan hxn z hz)) (lt_irrefl y),
      fun hyn => hboth (hnan hxn) hyn⟩
  · rw [if_neg hxn]
    by_cases hyn : y.isNaN
    · rw [if_pos hyn]
      exact ⟨hx, hboth hleast (not_lt_of_isNaN hyn), fun h => absurd h hxn⟩
    · rw [if_neg hyn]
      by_cases hlt : y < x
      · rw [if_pos hlt]
        exact ⟨hy, hboth (fun z hz hzy => hleast z hz (lt_trans hzy hlt)) (lt_irrefl y),
          fun h => absurd h hyn⟩
      · rw [if_neg hlt]
        exact ⟨hx, hboth hleast hlt, fun h => absurd h hxn⟩

end Recalc.Binary64
