/-
Recalc/Proofs/Eval/Finite.lean

Finite results.  Operators and functions report a number that is not finite as a fault, with
the exception of five functions that add: the sum of finite doubles may be infinite, and
SUM, AVERAGE, SUMIF, SUMIFS and AVERAGEIF hand on what they got.  Over finite constants and
cells these are the only origin of such numbers (`Engine.finite_or_overflows`), and they are
one (`Engine.not_finite_hugeSum`).

Design.  `Ensures Q x` says that what a computation gives has `Q`, and faults are free.  A
function whose last step is the test asks nothing of its arguments; those that choose among
the values of their arguments pass on that these are finite.
-/
import Recalc.Proofs.Eval.Faults
import Recalc.Proofs.Formula.Expr
import Recalc.Proofs.Number.Bits

namespace Recalc

/-! ### Finite values -/

/-- The value is no number or date, or a finite one. -/
def Value.Finite : Value → Prop
  | .number x => x.isFinite = true
  | .date x => x.isFinite = true
  | _ => True

instance : DecidablePred Value.Finite
  | .number x => inferInstanceAs (Decidable (x.isFinite = true))
  | .date x => inferInstanceAs (Decidable (x.isFinite = true))
  | .text _ => .isTrue trivial
  | .boolean _ => .isTrue trivial
  | .empty => .isTrue trivial
  | .error _ => .isTrue trivial

/-- What the computation gives has the property. -/
def Ensures {α : Type} (Q : α → Prop) : Except Fault α → Prop
  | .ok a => Q a
  | .error _ => True

namespace Ensures

variable {α β : Type} {Q : α → Prop} {R : β → Prop} {x : Except Fault α}

theorem ok {a : α} (h : Q a) : Ensures Q (.ok a) := h

theorem error (f : Fault) : Ensures Q (.error f) := trivial

theorem bind {f : α → Except Fault β} (hx : Ensures Q x) (hf : ∀ a, Q a → Ensures R (f a)) :
    Ensures R (x >>= f) := by
  cases x with
  | error e => exact error e
  | ok a => exact hf a hx

/-- The last step alone ensures the property. -/
theorem last {f : α → Except Fault β} (hf : ∀ a, Ensures R (f a)) : Ensures R (x >>= f) := by
  cases x with
  | error e => exact error e
  | ok a => exact hf a

theorem map {f : α → β} (hx : Ensures Q x) (hf : ∀ a, Q a → R (f a)) : Ensures R (x.map f) := by
  cases x with
  | error e => exact error e
  | ok a => exact hf a hx

theorem mapM {f : α → Except Fault β} {l : List α} (hf : ∀ a ∈ l, Ensures R (f a)) :
    Ensures (fun bs => ∀ b ∈ bs, R b) (l.mapM f) := by
  induction l with
  | nil => exact ok fun b hb => nomatch hb
  | cons a rest ih =>
    rw [List.mapM_cons]
    apply bind (hf a List.mem_cons_self)
    intro b hb
    apply bind (ih fun a ha => hf a (List.mem_cons_of_mem _ ha))
    intro bs hbs
    apply ok
    intro c hc
    rcases List.mem_cons.mp hc with rfl | hc
    · exact hb
    · exact hbs c hc

theorem finite {x : Except Fault Value} (h : Ensures Value.Finite x) :
    (Value.ofExcept x).Finite := by
  cases x with
  | error f => trivial
  | ok v => exact h

end Ensures

namespace Value

variable {v w : Value}

/-- The test of a computed number. -/
theorem finite_finite (x : Float) : Ensures Finite (finite x) := by
  unfold finite
  split
  case isTrue h => exact .ok h
  case isFalse => exact .error _

theorem toNumber_finite (h : v.Finite) : Ensures (·.isFinite = true) v.toNumber := by
  unfold toNumber
  split
  case h_1 x => exact .ok h
  case h_2 x => exact .ok h
  case h_3 b =>
    apply Ensures.ok
    cases b <;> decide
  case h_4 => exact .ok (by decide)
  case h_5 s =>
    -- a text that is read as a number is read as a finite one
    split
    case h_1 x hx => exact .ok (Option.filter_eq_some_iff.mp hx).2
    case h_2 => exact .error _
  case h_6 f => exact .error f

/-! ### Operators -/

theorem ofNumber_finite (r : Except Fault Float) : (ofNumber r).Finite :=
  Ensures.finite (.last finite_finite)

theorem dated_finite (b : Bool) (h : v.Finite) : (dated b v).Finite := by
  unfold dated
  split <;> exact h

theorem concat_finite (v w : Value) : (concat v w).Finite :=
  Ensures.finite (.last fun _ => .last fun _ => .ok trivial)

theorem power_finite (v w : Value) : (power v w).Finite := ofNumber_finite _

/-- **An operator on two values gives a finite one.** -/
theorem binary_finite (tolerance : Float) (op : BinaryOp) (v w : Value) :
    (binary tolerance op v w).Finite := by
  unfold binary
  split
  case h_1 f _ => trivial
  case h_2 =>
    cases op with
    | add => exact dated_finite _ (ofNumber_finite _)
    | subtract => exact dated_finite _ (ofNumber_finite _)
    | multiply => exact ofNumber_finite _
    | divide => exact ofNumber_finite _
    | power => exact power_finite v w
    | concat => exact concat_finite v w
    | _ => trivial

/-- A sign of plus changes nothing; the other operators on one value compute. -/
theorem unary_finite (op : UnaryOp) (h : v.Finite) : (unary op v).Finite := by
  cases op with
  | plus => exact h
  | negate => exact ofNumber_finite _
  | percent => exact ofNumber_finite _

end Value

theorem Binary64.greater_finite {x y : Float} (hx : x.isFinite = true) (hy : y.isFinite = true) :
    (greater x y).isFinite = true := by
  unfold greater
  split
  · exact hy
  · split
    · exact hx
    · split <;> assumption

theorem Binary64.smaller_finite {x y : Float} (hx : x.isFinite = true) (hy : y.isFinite = true) :
    (smaller x y).isFinite = true := by
  unfold smaller
  split
  · exact hy
  · split
    · exact hx
    · split <;> assumption

/-! ### Functions -/

variable {ctx : EvalContext} {a : Operand} {args : List Operand}

namespace Aggregate

theorem numbersAmong_finite {vs : List Value} (h : ∀ v ∈ vs, v.Finite) :
    Ensures (fun xs => ∀ x ∈ xs, x.isFinite = true) (numbersAmong vs) := by
  have hcons {x : Float} {rest : List Value} (hx : x.isFinite = true)
      (hrest : Ensures (fun xs => ∀ x ∈ xs, x.isFinite = true) (numbersAmong rest)) :
      Ensures (fun xs => ∀ x ∈ xs, x.isFinite = true) ((numbersAmong rest).map (x :: ·)) :=
    hrest.map fun xs hxs => List.forall_mem_cons.mpr ⟨hx, hxs⟩
  fun_induction numbersAmong vs with
  | case1 => exact .ok fun x hx => absurd hx List.not_mem_nil
  | case2 x rest ih =>
    exact hcons (h _ List.mem_cons_self) (ih fun v hv => h v (List.mem_cons_of_mem _ hv))
  | case3 x rest ih =>
    exact hcons (h _ List.mem_cons_self) (ih fun v hv => h v (List.mem_cons_of_mem _ hv))
  | case4 f rest => exact .error f
  | case5 v rest _ _ _ ih => exact ih fun v hv => h v (List.mem_cons_of_mem _ hv)

theorem numbersOf_finite (hs : ctx.source.All Value.Finite) (ha : a.All Value.Finite) :
    Ensures (fun xs => ∀ x ∈ xs, x.isFinite = true) (numbersOf ctx a) := by
  unfold numbersOf
  split
  case h_1 => exact .ok fun x hx => absurd hx List.not_mem_nil
  case h_2 v _ =>
    exact (Value.toNumber_finite ha).map fun x hx y hy => List.mem_singleton.mp hy ▸ hx
  case h_3 => exact numbersAmong_finite (EvalContext.all_values hs ha)

variable (hs : ctx.source.All Value.Finite) (hargs : ∀ a ∈ args, a.All Value.Finite)
include hs hargs

theorem numbers_finite : Ensures (fun xs => ∀ x ∈ xs, x.isFinite = true) (numbers ctx args) := by
  apply Ensures.map (Ensures.mapM fun a ha => numbersOf_finite hs (hargs a ha))
  intro xss hxss x hx
  obtain ⟨xs, hxs, hmem⟩ := List.mem_flatten.mp hx
  exact hxss xs hxs x hmem

/-- The best of finite numbers is one of them. -/
theorem best_finite {pick : Float → Float → Float}
    (hpick : ∀ x y, x.isFinite = true → y.isFinite = true → (pick x y).isFinite = true) :
    Ensures Value.Finite (best pick ctx args) := by
  apply Ensures.bind (numbers_finite hs hargs)
  intro xs hxs
  cases xs with
  | nil => exact .ok (by decide : (0.0 : Float).isFinite = true)
  | cons x rest =>
    obtain ⟨hx, hrest⟩ := List.forall_mem_cons.mp hxs
    exact .ok (List.foldlRecOn rest pick hx fun y hy z hz => hpick y z hy (hrest z hz))

end Aggregate

theorem Aggregate.product_finite : Ensures Value.Finite (product ctx args) := by
  apply Ensures.last
  intro xs
  cases xs with
  | nil => exact .ok (by decide : (0.0 : Float).isFinite = true)
  | cons x rest => exact Value.finite_finite _

namespace Lookup

variable (hs : ctx.source.All Value.Finite) (hargs : ∀ a ∈ args, a.All Value.Finite)
include hs hargs

theorem get_finite (i row column : Nat) : ((tableArg ctx args i).get row column).Finite :=
  Table.all_get trivial (Table.all_tableArg trivial hs hargs i) row column

theorem vertical_finite : Ensures Value.Finite (vertical ctx args) := by
  apply Ensures.last
  intro lookup
  apply Ensures.last
  intro column
  split
  · exact .error _
  · exact .last fun _ => .last fun _ => .ok (get_finite hs hargs 1 _ _)

theorem horizontal_finite : Ensures Value.Finite (horizontal ctx args) := by
  apply Ensures.last
  intro lookup
  apply Ensures.last
  intro row
  split
  · exact .error _
  · exact .last fun _ => .last fun _ => .ok (get_finite hs hargs 1 _ _)

theorem index_finite : Ensures Value.Finite (index ctx args) := by
  apply Ensures.last
  intro first
  apply Ensures.last
  intro second
  dsimp only
  split
  · exact .error _
  split
  · exact .error _
  split
  · exact .error _
  · exact .ok (get_finite hs hargs 0 _ _)

end Lookup

namespace Builtin

/-- The functions that add numbers without a test of the result. -/
def overflowing : List Builtin := [.sum, .average, .sumif, .sumifs, .averageif]

theorem power_finite : Ensures Value.Finite (Arithmetic.power ctx args) := by
  apply Ensures.last
  intro base
  apply Ensures.last
  intro exponent
  have hpower := Value.power_finite base exponent
  split
  case h_1 => exact .error _
  case h_2 => exact .ok hpower

theorem mod_finite : Ensures Value.Finite (Arithmetic.mod ctx args) := by
  apply Ensures.last
  intro n
  apply Ensures.last
  intro d
  split
  · exact .error _
  · exact Value.finite_finite _

theorem sqrt_finite : Ensures Value.Finite (Arithmetic.sqrt ctx args) := by
  apply Ensures.last
  intro x
  split
  · exact .error _
  · exact Value.finite_finite _

/-- Serials of dates are natural numbers. -/
theorem ofParts_finite : Ensures Value.Finite (DateFunction.ofParts ctx args) := by
  apply Ensures.last
  intro year
  apply Ensures.last
  intro month
  apply Ensures.last
  intro day
  split
  case h_1 serial hserial =>
    unfold Epoch.serial? at hserial
    split at hserial
    · obtain ⟨n, -, rfl⟩ := Option.map_eq_some_iff.mp hserial
      exact .ok (Binary64.isFinite_ofNat n)
    · cases hserial
  case h_2 => exact .error _

theorem part_finite (pick : Date → Nat) :
    Ensures Value.Finite (DateFunction.part pick ctx args) := by
  apply Ensures.last
  intro serial
  split
  · exact .ok (Binary64.isFinite_ofNat _)
  · exact .error _

/-- **All functions but those that add give finite results.** -/
theorem apply_finite (hs : ctx.source.All Value.Finite) (hargs : ∀ a ∈ args, a.All Value.Finite)
    {body : Builtin} (hbody : body ∉ overflowing) : Ensures Value.Finite (body.apply ctx args) := by
  cases body
  case sum | average | sumif | sumifs | averageif => exact absurd (by decide) hbody
  -- numbers that are tested
  case abs | int => exact .last fun _ => Value.finite_finite _
  case round | roundup | rounddown => exact .last fun _ => .last fun _ => Value.finite_finite _
  case product => exact Aggregate.product_finite
  case mod => exact mod_finite
  case power => exact power_finite
  case sqrt => exact sqrt_finite
  -- natural numbers
  case count | counta => exact .ok (Binary64.isFinite_ofNat _)
  case len => exact .last fun _ => .ok (Binary64.isFinite_ofNat _)
  case countif => exact .last fun _ => .last fun _ => .ok (Binary64.isFinite_ofNat _)
  case lookupMatch =>
    exact .last fun _ => .last fun _ => .last fun _ => .last fun _ =>
      .ok (Binary64.isFinite_ofNat _)
  case date => exact ofParts_finite
  case year | month | day => exact part_finite _
  -- values of the arguments
  case max => exact Aggregate.best_finite hs hargs fun _ _ => Binary64.greater_finite
  case min => exact Aggregate.best_finite hs hargs fun _ _ => Binary64.smaller_finite
  case vlookup => exact Lookup.vertical_finite hs hargs
  case hlookup => exact Lookup.horizontal_finite hs hargs
  case index => exact Lookup.index_finite hs hargs
  -- texts and truth values
  case and | or | not | concat | concatenate | upper | lower | trim =>
    exact .last fun _ => .ok trivial
  case left | right => exact .last fun _ => .last fun _ => .ok trivial
  case mid => exact .last fun _ => .last fun _ => .last fun _ => .ok trivial
  case isblank | iserror | isnumber | istext => exact .ok trivial

end Builtin

/-! ### Formulas -/

/-- The formula calls a function that adds numbers without a test of the result. -/
def Expr.adds (functions : Registry) : Expr → Bool
  | .call name _ => (functions.find? name).any fun f =>
    match f.kind with
    | .eager body => body ∈ Builtin.overflowing
    | _ => false
  | _ => false

namespace Engine

variable {functions : Registry}

theorem applyTo_finite (hs : ctx.source.All Value.Finite) (hargs : ∀ a ∈ args, a.All Value.Finite)
    (f : FunctionSpec) {body : Builtin} (hbody : body ∉ Builtin.overflowing) :
    (f.applyTo body ctx args).All Value.Finite := by
  unfold FunctionSpec.applyTo
  split
  case h_1 => trivial
  case h_2 => exact (Builtin.apply_finite hs hargs hbody).finite

theorem operandAt_finite {args : List Expr}
    (hargs : ∀ a ∈ args, (operand functions ctx a).All Value.Finite) (k : Nat) :
    (operandAt functions ctx args k).All Value.Finite := by
  rw [operandAt_eq]
  cases ha : args[k]? with
  | none => trivial
  | some a => exact hargs a (List.mem_of_getElem? ha)

/-- A call that is finite if it adds is finite. -/
theorem operand_call_finite (hs : ctx.source.All Value.Finite) {name : String} {args : List Expr}
    (hadds : (Expr.call name args).adds functions = true →
      (ctx.topLeft (operand functions ctx (.call name args))).Finite)
    (hargs : ∀ a ∈ args, (operand functions ctx a).All Value.Finite) :
    (operand functions ctx (.call name args)).All Value.Finite := by
  rcases operand_call_cases functions ctx name args with ⟨f, body, hf, hkind, happly⟩ | hshort
  · by_cases hbody : body ∈ Builtin.overflowing
    · -- a function of all operands has a value, and this is the value at the top left
      have hvalue := hadds (by simp [Expr.adds, hf, hkind, hbody])
      rw [happly, FunctionSpec.applyTo] at hvalue ⊢
      split at hvalue <;> exact hvalue
    · rw [happly]
      apply applyTo_finite hs _ f hbody
      intro a ha
      rw [operands_eq_map] at ha
      obtain ⟨e, he, rfl⟩ := List.mem_map.mp ha
      exact hargs e he
  · have hat := operandAt_finite hargs
    generalize operand functions ctx (.call name args) = a at hshort
    cases hshort with
    | fault f => trivial
    | absent => trivial
    | omitted => exact (by decide : (0.0 : Float).isFinite = true)
    | first => exact EvalContext.all_scalar trivial hs (hat 0)
    | branch k => exact hat k

mutual

/-- **A formula is finite if all parts of it that add are.** -/
theorem operand_finite (hs : ctx.source.All Value.Finite) : ∀ e : Expr,
    (∀ v ∈ e.constants, v.Finite) →
    (∀ part ∈ e.parts, part.adds functions = true →
      (ctx.topLeft (operand functions ctx part)).Finite) →
    (operand functions ctx e).All Value.Finite
  | .literal v, hconstants, _ => hconstants v (List.mem_singleton_self v)
  | .array rows, hconstants, _ => fun row hrow v hv =>
    hconstants v (List.mem_flatten.mpr ⟨row, hrow, hv⟩)
  | .reference r, _, _ => Operand.all_ofTarget r.target
  | .dynamic _ _, _, _ => trivial
  | .binary op a b, _, _ => by
    rw [operand]
    exact Value.binary_finite _ op _ _
  | .unary op e, hconstants, hparts => by
    rw [operand]
    apply Value.unary_finite op
    apply EvalContext.all_scalar trivial hs
    exact operand_finite hs e hconstants fun part hpart => hparts part (List.mem_cons_of_mem _ hpart)
  | .call name args, hconstants, hparts =>
    operand_call_finite hs (hparts _ (Expr.self_mem_parts _))
      (operands_finite hs args hconstants fun part hpart =>
        hparts part (List.mem_cons_of_mem _ hpart))

theorem operands_finite (hs : ctx.source.All Value.Finite) : ∀ args : List Expr,
    (∀ v ∈ Expr.constantsOfArgs args, v.Finite) →
    (∀ part ∈ Expr.partsOfArgs args, part.adds functions = true →
      (ctx.topLeft (operand functions ctx part)).Finite) →
    ∀ a ∈ args, (operand functions ctx a).All Value.Finite
  | [], _, _, a, ha => nomatch ha
  | arg :: args, hconstants, hparts, a, ha => by
    rcases List.mem_cons.mp ha with heq | ha
    · rw [heq]
      exact operand_finite hs arg (fun v hv => hconstants v (List.mem_append_left _ hv))
        fun part hpart => hparts part (List.mem_append_left _ hpart)
    · exact operands_finite hs args (fun v hv => hconstants v (List.mem_append_right _ hv))
        (fun part hpart => hparts part (List.mem_append_right _ hpart)) a ha

end

end Engine

theorem CellMap.all_source {P : Value → Prop} (hempty : P .empty) {m : CellMap}
    (h : ∀ (c : Coordinate) (v : Value), m[c]? = some v → P v) : m.source.All P where
  value c := by
    show P (m[c]?.getD .empty)
    cases hc : m[c]? with
    | none => exact hempty
    | some v => exact h c v hc
  boundIn r p hp := h p.1 p.2 (CellMap.mem_boundIn.mp hp).2

/-- **Results are finite unless an addition overflows.**  Over finite constants and cells, a formula
whose value is a number or a date that is not finite has a part that calls one of the functions
that add without a test, and that part is not finite. -/
theorem Engine.finite_or_overflows (engine : Engine) (m : CellMap) {e : Expr}
    (hconstants : ∀ v ∈ e.constants, v.Finite)
    (hcells : ∀ (c : Coordinate) (v : Value), m[c]? = some v → v.Finite) :
    (engine.evaluate e m.source).Finite ∨
      ∃ part ∈ e.parts, part.adds engine.functions = true ∧
        ¬ (engine.evaluate part m.source).Finite := by
  have hs : (EvalContext.mk m.source engine.options).source.All Value.Finite :=
    CellMap.all_source trivial hcells
  by_cases hparts : ∀ part ∈ e.parts, part.adds engine.functions = true →
      (engine.evaluate part m.source).Finite
  · left
    exact EvalContext.all_topLeft trivial hs (operand_finite hs e hconstants hparts)
  · right
    simpa only [not_forall, exists_prop] using hparts

namespace Engine

/-- The greater of a sum of two cells and a third one, plus 1: `1 + MAX(SUM(A1:A2), A3)`. -/
def guardedSum : Expr :=
  .binary .add (.literal (.number 1.0)) (.call "MAX"
    [.call "SUM" [.reference ⟨.range ⟨⟨"S", 1, 1⟩, ⟨"S", 1, 2⟩⟩, none⟩],
      .reference ⟨.cell ⟨"S", 1, 3⟩, none⟩])

/-- One cell, with the greatest power of ten. -/
def hugeCell : CellMap := .ofList [(⟨"S", 1, 1⟩, .number 1e308)]

theorem finite_hugeCell (c : Coordinate) (v : Value) (h : hugeCell[c]? = some v) : v.Finite := by
  have hcell : v = .number 1e308 := by
    rw [hugeCell, CellMap.ofList, List.foldl_cons, List.foldl_nil, Std.TreeMap.getElem?_insert] at h
    split at h
    · exact (Option.some.inj h).symm
    · cases h
  subst hcell
  decide +kernel

theorem finite_or_overflows_guardedSum :
    (∀ v ∈ guardedSum.constants, v.Finite) ∧
    ((plain.evaluate guardedSum hugeCell.source).Finite ∨
      ∃ part ∈ guardedSum.parts, part.adds plain.functions = true ∧
        ¬ (plain.evaluate part hugeCell.source).Finite) := by
  have hconstants : ∀ v ∈ guardedSum.constants, v.Finite := by decide
  exact ⟨hconstants, finite_or_overflows plain hugeCell hconstants finite_hugeCell⟩

/-- A sum of two finite numbers: `SUM(1e308, 1e308)`. -/
def hugeSum : Expr := .call "SUM" [.literal (.number 1e308), .literal (.number 1e308)]

/-- The sum is not finite, and no fault. -/
theorem not_finite_hugeSum : (∀ v ∈ hugeSum.constants, v.Finite) ∧
    ¬ (plain.evaluate hugeSum (CellMap.source ∅)).Finite := by
  decide +kernel

end Engine

end Recalc
