/-
Recalc/Proofs/Eval/Comparison.lean

The comparison operators together.  Two values that have an order, compared with a tolerance
of at least 0, are less, equal or greater, and of these exactly one.  There are two exceptions,
in which none of the three holds although the order takes both for level: equality asks a blank
and a number whether the number is 0, not whether it is near 0, and it takes infinities for
equal to nothing (`overlooks`).  At most is always not greater, and at least not less.

Design.  Both tables, equality and order, are compared once, kind by kind (`equal_eq`): equal is
level but not overlooked.  The operators follow from this and the three orders there are.
-/
import Recalc.Eval.Operation
import Recalc.Proofs.Number.Distance
import Recalc.Proofs.Number.Order
import Recalc.Proofs.Text.Lowering

namespace Recalc

open Binary64

variable {tolerance x y : Float} {o : Ordering}

/-! ### Numbers -/

namespace Binary64

/-- Equal doubles have one place. -/
theorem place_eq_of_beq (h : (x == y) = true) :
    place x.toModel.unpack = place y.toModel.unpack := by
  rcases unpacked_eq_of_beq h with heq | ⟨s, t, hs, ht⟩
  · rw [heq]
  · rw [hs, ht]
    rfl

theorem not_lt_of_beq (h : (x == y) = true) : ¬x < y := by
  rw [lt_iff_place, place_eq_of_beq h]
  rintro ⟨-, -, hbefore⟩
  unfold Before at hbefore
  omega

end Binary64

/-- Numbers are level if they are near or equal. -/
theorem compareNumbers_eq_eq_iff :
    compareNumbers tolerance x y = some .eq ↔ near tolerance x y = true ∨ (x == y) = true := by
  unfold compareNumbers
  by_cases hnear : near tolerance x y = true
  · rw [if_pos hnear]
    exact iff_of_true rfl (.inl hnear)
  · rw [if_neg hnear]
    by_cases heq : (x == y) = true
    · have hswap : (y == x) = true := (beq_swap y x).trans heq
      rw [if_neg (not_lt_of_beq heq), if_neg (not_lt_of_beq hswap), if_pos heq]
      exact iff_of_true rfl (.inr heq)
    · rw [if_neg heq]
      refine iff_of_false ?_ (not_or.mpr ⟨hnear, heq⟩)
      split
      · exact nofun
      · split <;> exact nofun

theorem level_iff (h : compareNumbers tolerance x y = some o) :
    o = .eq ↔ near tolerance x y = true ∨ (x == y) = true := by
  rw [← compareNumbers_eq_eq_iff, h, Option.some.injEq]

theorem level_zero_iff (h : compareNumbers tolerance 0.0 y = some o) :
    o = .eq ↔ near tolerance 0.0 y = true ∨ (y == 0.0) = true := by
  rw [beq_swap]
  exact level_iff h

/-- Being near is being level, an infinity beside itself apart. -/
theorem near_eq (htolerance : 0.0 ≤ tolerance) (h : compareNumbers tolerance x y = some o) :
    near tolerance x y = (o == .eq && !(x.isInf && x == y)) := by
  rw [Bool.eq_iff_iff, Bool.and_eq_true, beq_iff_eq, Bool.not_eq_true', Bool.and_eq_false_iff]
  constructor
  · intro hnear
    refine ⟨(level_iff h).mpr (.inl hnear), ?_⟩
    by_cases heq : (x == y) = true
    · left
      apply Bool.eq_false_iff.mpr
      intro hinf
      rw [not_near_of_isInf hinf heq] at hnear
      cases hnear
    · exact .inr (Bool.eq_false_iff.mpr heq)
  · rintro ⟨ho, hnot⟩
    rcases (level_iff h).mp ho with hnear | heq
    · exact hnear
    · apply near_of_beq htolerance ?_ heq
      -- equal doubles that are not finite are one infinity
      by_contra hfinite
      rw [isInf_of_not_isFinite heq hfinite, heq] at hnot
      rcases hnot with hnot | hnot <;> cases hnot

/-- Being 0 is being level with 0, numbers near 0 apart. -/
theorem isZero_eq {isNear isZero : Bool} (hlevel : o = .eq ↔ isNear = true ∨ isZero = true) :
    isZero = (o == .eq && !(isNear && !isZero)) := by
  cases isZero with
  | true =>
    rw [hlevel.mpr (.inr rfl), Bool.not_true, Bool.and_false]
    rfl
  | false =>
    cases isNear with
    | true => rw [Bool.not_false, Bool.and_true, Bool.not_true, Bool.and_false]
    | false =>
      have ho : o ≠ .eq := by
        intro ho
        rcases hlevel.mp ho with h | h <;> cases h
      rw [beq_eq_false_iff_ne.mpr ho]
      rfl

/-! ### Values -/

namespace Value

/-- Equality overlooks that the values are level: one is blank and the other a number near 0 that
is not 0, or both are the same infinity. -/
def overlooks (tolerance : Float) (v w : Value) : Bool :=
  match v.number?, w.number? with
  | some x, some y => x.isInf && x == y
  | some x, none => w.isEmpty && (near tolerance x 0.0 && x != 0.0)
  | none, some y => v.isEmpty && (near tolerance 0.0 y && y != 0.0)
  | none, none => false

variable {v w : Value}

theorem beq_eq_compare (s t : String) : (s == t) = (compare s t == .eq && !false) := by
  rw [Bool.eq_iff_iff, Bool.not_false, Bool.and_true, beq_iff_eq, beq_iff_eq,
    Std.LawfulEqOrd.compare_eq_iff_eq]

/-- A text is empty if it is level with the empty text. -/
theorem beq_empty_eq (s : String) : (s == "") = (Text.lower s == Text.lower "") := by
  rw [Bool.eq_iff_iff, beq_iff_eq, beq_iff_eq]
  exact Text.lower_eq_empty_iff.symm

/-- **Equal is level but not overlooked.** -/
theorem equal_eq (htolerance : 0.0 ≤ tolerance) (h : v.compare? tolerance w = some o) :
    v.equal tolerance w = (o == .eq && !v.overlooks tolerance w) := by
  -- a blank is compared as the 0, the empty text or the FALSE of the other kind
  cases v with
  | number x | date x =>
    cases w with
    | number y => exact near_eq htolerance h
    | date y => exact near_eq htolerance h
    | empty => exact isZero_eq (level_iff h)
    | _ => cases h
  | text s =>
    cases w with
    | text t =>
      obtain rfl := Option.some.inj h
      exact beq_eq_compare _ _
    | empty =>
      obtain rfl := Option.some.inj h
      exact (beq_empty_eq s).trans (beq_eq_compare _ _)
    | _ => cases h
  | boolean a =>
    cases w with
    | boolean b =>
      obtain rfl := Option.some.inj h
      cases a <;> cases b <;> rfl
    | empty =>
      obtain rfl := Option.some.inj h
      cases a <;> rfl
    | _ => cases h
  | empty =>
    cases w with
    | empty =>
      obtain rfl := Option.some.inj h
      rfl
    | number y => exact isZero_eq (level_zero_iff h)
    | date y => exact isZero_eq (level_zero_iff h)
    | text t =>
      obtain rfl := Option.some.inj h
      exact ((beq_empty_eq t).trans Bool.beq_comm).trans (beq_eq_compare _ _)
    | boolean b =>
      obtain rfl := Option.some.inj h
      cases b <;> rfl
    | error f => cases h
  | error f => cases w <;> cases h

/-- What is overlooked is level. -/
theorem eq_of_overlooks (h : v.compare? tolerance w = some o)
    (hoverlooks : v.overlooks tolerance w = true) : o = .eq := by
  have hsame {x y : Float} (h : compareNumbers tolerance x y = some o)
      (hinf : (x.isInf && x == y) = true) : o = .eq :=
    (level_iff h).mpr (.inr (Bool.and_eq_true_iff.mp hinf).2)
  have hnear {x y z : Float} (h : compareNumbers tolerance x y = some o)
      (hnear : (near tolerance x y && z != 0.0) = true) : o = .eq :=
    (level_iff h).mpr (.inl (Bool.and_eq_true_iff.mp hnear).1)
  cases v with
  | number x | date x =>
    cases w with
    | number y => exact hsame h hoverlooks
    | date y => exact hsame h hoverlooks
    | empty => exact hnear h hoverlooks
    | _ => cases hoverlooks
  | empty =>
    cases w with
    | number y => exact hnear h hoverlooks
    | date y => exact hnear h hoverlooks
    | _ => cases hoverlooks
  | _ => cases w <;> cases hoverlooks

-- an infinity beside itself, as a number and as a date
example : overlooks 0.0 (.number (1.0 / 0.0)) (.date (1.0 / 0.0)) = true := by decide +kernel

theorem fault?_eq_none (h : v.compare? tolerance w = some o) : v.fault?.or w.fault? = none := by
  have hv : v.fault? = none := by
    cases v with
    | error f => cases w <;> cases h
    | _ => rfl
  have hw : w.fault? = none := by
    cases w with
    | error f => cases v <;> cases h
    | _ => rfl
  rw [hv, hw]
  rfl

/-- **Comparisons are coherent.**  Of less, equal and greater exactly one holds, unless equality
overlooks that the values are level, and then none; at most is not greater, and at least not
less. -/
theorem comparisons_coherent (htolerance : 0.0 ≤ tolerance)
    (hsome : (v.compare? tolerance w).isSome = true) :
    ∃ less equal greater : Bool,
      binary tolerance .less v w = .boolean less ∧
      binary tolerance .equal v w = .boolean equal ∧
      binary tolerance .greater v w = .boolean greater ∧
      binary tolerance .lessEqual v w = .boolean (!greater) ∧
      binary tolerance .greaterEqual v w = .boolean (!less) ∧
      [less, equal, greater].count true = if v.overlooks tolerance w then 0 else 1 := by
  obtain ⟨o, ho⟩ := Option.isSome_iff_exists.mp hsome
  have hordered (accept : Ordering → Bool) :
      ordered tolerance accept v w = .boolean (accept o) := by
    rw [ordered, ho]
    rfl
  refine ⟨o.isLT, v.equal tolerance w, o.isGT, ?_⟩
  simp only [binary, fault?_eq_none ho, hordered, true_and, boolean.injEq]
  refine ⟨by cases o <;> rfl, by cases o <;> rfl, ?_⟩
  rw [equal_eq htolerance ho]
  cases hoverlooks : v.overlooks tolerance w with
  | false => cases o <;> rfl
  | true =>
    rw [eq_of_overlooks ho hoverlooks]
    rfl

theorem comparisons_coherent_dates :
    (0.0 : Float) ≤ 1e-9 ∧
    (compare? 1e-9 (.date 45000.0) (.number 45000.5)).isSome = true ∧
    overlooks 1e-9 (.date 45000.0) (.number 45000.5) = false ∧
    ∃ less equal greater : Bool,
      binary 1e-9 .less (.date 45000.0) (.number 45000.5) = .boolean less ∧
      binary 1e-9 .equal (.date 45000.0) (.number 45000.5) = .boolean equal ∧
      binary 1e-9 .greater (.date 45000.0) (.number 45000.5) = .boolean greater ∧
      [less, equal, greater].count true = 1 := by
  have htolerance : (0.0 : Float) ≤ 1e-9 := by decide +kernel
  have hsome : (compare? 1e-9 (.date 45000.0) (.number 45000.5)).isSome = true := by
    decide +kernel
  have hoverlooks : overlooks 1e-9 (.date 45000.0) (.number 45000.5) = false := by
    decide +kernel
  obtain ⟨less, equal, greater, hless, hequal, hgreater, -, -, hcount⟩ :=
    comparisons_coherent htolerance hsome
  rw [hoverlooks] at hcount
  exact ⟨htolerance, hsome, hoverlooks, less, equal, greater, hless, hequal, hgreater, hcount⟩

/-- **A blank beside a small number** is neither less nor equal nor greater, although both have an
order. -/
theorem comparisons_blank_small :
    (0.0 : Float) ≤ 1e-9 ∧ (compare? 1e-9 .empty (.number 1e-10)).isSome = true ∧
      binary 1e-9 .less .empty (.number 1e-10) = .boolean false ∧
      binary 1e-9 .equal .empty (.number 1e-10) = .boolean false ∧
      binary 1e-9 .greater .empty (.number 1e-10) = .boolean false := by
  refine ⟨by decide +kernel, by decide +kernel, ?_, ?_, ?_⟩
  · exact congrArg boolean (by decide +kernel)
  · exact congrArg boolean (by decide +kernel)
  · exact congrArg boolean (by decide +kernel)

end Value

end Recalc
