/-
Recalc/Proofs/Eval/Faults.lean

Where faults come from.  Some faults can be spelled out in cells and formulas; the others
tell of cells that could not be computed.  A formula without references that are only known
once computed makes none of these: over cells that hold no such fault its value is none
(`Engine.clean_evaluate`).

Design.  `Gives Q x` says that a computation gives something with `Q` or fails with a
fault that can be spelled out.  It composes along binds, so there is one lemma for each way
to read an argument, and each function is a chain of these.
-/
import Recalc.Eval.Engine
import Recalc.Proofs.Eval.Footprint
import Recalc.Proofs.Eval.Values
import Recalc.Proofs.Formula.Reading

namespace Recalc

/-! ### Clean values -/

/-- The value is no fault, or one that can be spelled out. -/
def Value.Clean (v : Value) : Prop := ∀ f, v.fault? = some f → f ∈ Fault.spelled

theorem Value.clean_of_fault? {v : Value} (h : v.fault? = none) : v.Clean := fun f hf => by
  rw [h] at hf
  cases hf

theorem Value.clean_error {f : Fault} : (Value.error f).Clean ↔ f ∈ Fault.spelled := by
  constructor
  · exact fun h => h f rfl
  · rintro h g hg
    obtain rfl := Option.some.inj hg
    exact h

/-- A computation gives something with a property, or fails with a fault that can be spelled
out. -/
def Gives {α : Type} (Q : α → Prop) : Except Fault α → Prop
  | .ok a => Q a
  | .error f => f ∈ Fault.spelled

namespace Gives

variable {α β : Type} {Q : α → Prop} {R : β → Prop} {x : Except Fault α}

theorem bind {f : α → Except Fault β} (hx : Gives Q x) (hf : ∀ a, Q a → Gives R (f a)) :
    Gives R (x >>= f) := by
  cases x with
  | error e => exact hx
  | ok a => exact hf a hx

theorem map {f : α → β} (hx : Gives Q x) (hf : ∀ a, Q a → R (f a)) : Gives R (x.map f) := by
  cases x with
  | error e => exact hx
  | ok a => exact hf a hx

/-- What a computation gives, or the fault that it fails with, is clean as a value. -/
theorem clean {x : Except Fault Value} (h : Gives Value.Clean x) : (Value.ofExcept x).Clean := by
  cases x with
  | error f => exact Value.clean_error.mpr h
  | ok v => exact h

end Gives

/-- A computation of which only the faults matter. -/
abbrev FailsCleanly {α : Type} (x : Except Fault α) : Prop := Gives (fun _ => True) x

theorem Gives.mapM {α β : Type} {f : α → Except Fault β} {l : List α}
    (hf : ∀ a ∈ l, FailsCleanly (f a)) : FailsCleanly (l.mapM f) := by
  induction l with
  | nil => trivial
  | cons a rest ih =>
    rw [List.mapM_cons]
    refine .bind (hf a List.mem_cons_self) fun b _ => ?_
    exact .bind (ih fun a ha => hf a (List.mem_cons_of_mem _ ha)) fun bs _ => trivial

namespace Value

variable {v w : Value}

theorem clean_number (x : Float) : (number x).Clean := clean_of_fault? rfl

theorem clean_text (s : String) : (text s).Clean := clean_of_fault? rfl

theorem clean_boolean (b : Bool) : (boolean b).Clean := clean_of_fault? rfl

theorem clean_empty : empty.Clean := clean_of_fault? rfl

theorem clean_getD {o : Option Value} (h : ∀ v, o = some v → v.Clean) :
    (o.getD .empty).Clean := by
  cases o with
  | none => exact clean_empty
  | some v => exact h v rfl

theorem toNumber_clean (h : v.Clean) : FailsCleanly v.toNumber := by
  unfold toNumber
  split
  case h_5 s =>
    split
    · trivial
    · exact (by decide : Fault.value ∈ Fault.spelled)
  case h_6 f => exact clean_error.mp h
  all_goals trivial

theorem toText_clean (h : v.Clean) : FailsCleanly v.toText := by
  unfold toText
  split
  · exact clean_error.mp h
  · trivial

theorem toBool_clean (h : v.Clean) : FailsCleanly v.toBool := by
  unfold toBool
  split
  case h_5 s =>
    split
    · trivial
    · split
      · trivial
      · exact (by decide : Fault.value ∈ Fault.spelled)
  case h_6 f => exact clean_error.mp h
  all_goals trivial

theorem finite_clean (x : Float) : Gives Clean (finite x) := by
  unfold finite
  split
  · exact clean_number x
  · exact (by decide : Fault.num ∈ Fault.spelled)

/-! ### Operators -/

theorem ofNumber_clean {r : Except Fault Float} (h : FailsCleanly r) : (ofNumber r).Clean :=
  (Gives.bind (f := finite) h fun x _ => finite_clean x).clean

theorem numbers_clean (hv : v.Clean) (hw : w.Clean) : FailsCleanly (numbers v w) :=
  .bind (toNumber_clean hv) fun _ _ => .bind (toNumber_clean hw) fun _ _ => trivial

theorem arithmetic_clean (op : Float → Float → Float) (hv : v.Clean) (hw : w.Clean) :
    (arithmetic op v w).Clean :=
  ofNumber_clean (.map (numbers_clean hv hw) fun _ _ => trivial)

theorem dated_clean (b : Bool) (h : v.Clean) : (dated b v).Clean := by
  unfold dated
  split
  · exact clean_of_fault? rfl
  · exact h

theorem power_clean (hv : v.Clean) (hw : w.Clean) : (power v w).Clean := by
  refine ofNumber_clean (.bind (numbers_clean hv hw) fun p _ => ?_)
  dsimp only
  split
  · exact (by decide : Fault.divideByZero ∈ Fault.spelled)
  · trivial

theorem divide_clean (hv : v.Clean) (hw : w.Clean) : (divide v w).Clean := by
  refine ofNumber_clean (.bind (numbers_clean hv hw) fun p _ => ?_)
  dsimp only
  split
  · exact (by decide : Fault.divideByZero ∈ Fault.spelled)
  · trivial

theorem concat_clean (hv : v.Clean) (hw : w.Clean) : (concat v w).Clean :=
  Gives.clean (.bind (toText_clean hv) fun _ _ => .bind (toText_clean hw) fun _ _ => clean_text _)

/-- **An operator on clean values gives a clean one.** -/
theorem binary_clean (tolerance : Float) (op : BinaryOp) (hv : v.Clean) (hw : w.Clean) :
    (binary tolerance op v w).Clean := by
  unfold binary
  split
  case h_1 f hf =>
    rcases Option.or_eq_some_iff.mp hf with hleft | ⟨-, hright⟩
    · exact clean_error.mpr (hv f hleft)
    · exact clean_error.mpr (hw f hright)
  case h_2 =>
    cases op with
    | add => exact dated_clean _ (arithmetic_clean _ hv hw)
    | subtract => exact dated_clean _ (arithmetic_clean _ hv hw)
    | multiply => exact arithmetic_clean _ hv hw
    | divide => exact divide_clean hv hw
    | power => exact power_clean hv hw
    | concat => exact concat_clean hv hw
    | _ => exact clean_boolean _

theorem unary_clean (op : UnaryOp) (h : v.Clean) : (unary op v).Clean := by
  cases op with
  | plus => exact h
  | negate => exact ofNumber_clean (.map (toNumber_clean h) fun _ _ => trivial)
  | percent => exact ofNumber_clean (.map (toNumber_clean h) fun _ _ => trivial)

end Value

/-! ### Ways to read an operand -/

/-- All values of the source are clean. -/
structure CellSource.Clean (s : CellSource) : Prop where
  value : ∀ c, (s.value c).Clean
  boundIn : ∀ r, ∀ p ∈ s.boundIn r, p.2.Clean

theorem CellSource.Clean.all {s : CellSource} (hs : s.Clean) : s.All Value.Clean :=
  ⟨hs.value, hs.boundIn⟩

/-- The values that the operand brings along are clean. -/
def Operand.Clean : Operand → Prop
  | .value v => v.Clean
  | .array rows => ∀ row ∈ rows, ∀ v ∈ row, v.Clean
  | .cell _ => True
  | .range _ => True

theorem Operand.clean_iff {a : Operand} : a.Clean ↔ a.All Value.Clean := by
  cases a <;> exact Iff.rfl

theorem Value.clean_fault : (Value.error .value).Clean := Value.clean_error.mpr (by decide)

namespace EvalContext

variable {ctx : EvalContext} {a : Operand} {args : List Operand}

theorem scalar_clean (hs : ctx.source.Clean) (ha : a.Clean) : (ctx.scalar a).Clean :=
  all_scalar Value.clean_fault hs.all (Operand.clean_iff.mp ha)

theorem values_clean (hs : ctx.source.Clean) (ha : a.Clean) : ∀ v ∈ ctx.values a, v.Clean :=
  all_values hs.all (Operand.clean_iff.mp ha)

theorem topLeft_clean (hs : ctx.source.Clean) (ha : a.Clean) : (ctx.topLeft a).Clean :=
  all_topLeft Value.clean_fault hs.all (Operand.clean_iff.mp ha)

/-! ### Arguments -/

variable (hs : ctx.source.Clean) (hargs : ∀ a ∈ args, a.Clean)
include hs hargs

theorem scalarArg_clean (i : Nat) : ((args[i]?.map ctx.scalar).getD .empty).Clean :=
  all_scalarArg Value.clean_fault Value.clean_empty hs.all
    (fun a ha => Operand.clean_iff.mp (hargs a ha)) i

theorem valueArg_clean (i : Nat) : Gives Value.Clean (ctx.valueArg args i) := by
  have hclean := scalarArg_clean hs hargs i
  unfold valueArg
  split
  case h_1 f hf => exact Value.clean_error.mp (hf ▸ hclean)
  case h_2 => exact hclean

theorem numberArg_clean (i : Nat) : FailsCleanly (ctx.numberArg args i) :=
  .bind (valueArg_clean hs hargs i) fun _ hv => Value.toNumber_clean hv

theorem numberArgD_clean (i : Nat) (default : Float) :
    FailsCleanly (ctx.numberArgD args i default) := by
  unfold numberArgD
  split
  · exact numberArg_clean hs hargs i
  · trivial

theorem textArg_clean (i : Nat) : FailsCleanly (ctx.textArg args i) :=
  .bind (valueArg_clean hs hargs i) fun _ hv => Value.toText_clean hv

theorem boolArg_clean (i : Nat) : FailsCleanly (ctx.boolArg args i) :=
  .bind (valueArg_clean hs hargs i) fun _ hv => Value.toBool_clean hv

theorem positionArg_clean (i : Nat) : FailsCleanly (ctx.positionArg args i) := by
  refine .bind (numberArg_clean hs hargs i) fun x _ => ?_
  dsimp only
  split
  · exact (by decide : Fault.value ∈ Fault.spelled)
  · trivial

theorem countArg_clean (i : Nat) (default : Float) :
    FailsCleanly (ctx.countArg args i default) := by
  refine .bind (numberArgD_clean hs hargs i default) fun x _ => ?_
  dsimp only
  split
  · exact (by decide : Fault.value ∈ Fault.spelled)
  · trivial

end EvalContext

open EvalContext

variable {ctx : EvalContext} {args : List Operand}

/-! ### Aggregates -/

namespace Aggregate

theorem numbersAmong_clean {vs : List Value} (h : ∀ v ∈ vs, v.Clean) :
    FailsCleanly (numbersAmong vs) := by
  fun_induction numbersAmong vs with
  | case1 => trivial
  | case2 x rest ih => exact .map (ih fun v hv => h v (List.mem_cons_of_mem _ hv)) fun _ _ => trivial
  | case3 x rest ih => exact .map (ih fun v hv => h v (List.mem_cons_of_mem _ hv)) fun _ _ => trivial
  | case4 f rest => exact Value.clean_error.mp (h _ List.mem_cons_self)
  | case5 v rest _ _ _ ih => exact ih fun v hv => h v (List.mem_cons_of_mem _ hv)

theorem logicalsAmong_clean {vs : List Value} (h : ∀ v ∈ vs, v.Clean) :
    FailsCleanly (logicalsAmong vs) := by
  fun_induction logicalsAmong vs with
  | case1 => trivial
  | case2 b rest ih => exact .map (ih fun v hv => h v (List.mem_cons_of_mem _ hv)) fun _ _ => trivial
  | case3 x rest ih => exact .map (ih fun v hv => h v (List.mem_cons_of_mem _ hv)) fun _ _ => trivial
  | case4 x rest ih => exact .map (ih fun v hv => h v (List.mem_cons_of_mem _ hv)) fun _ _ => trivial
  | case5 f rest => exact Value.clean_error.mp (h _ List.mem_cons_self)
  | case6 v rest _ _ _ _ ih => exact ih fun v hv => h v (List.mem_cons_of_mem _ hv)

theorem numbersOf_clean (hs : ctx.source.Clean) {a : Operand} (ha : a.Clean) :
    FailsCleanly (numbersOf ctx a) := by
  unfold numbersOf
  split
  · trivial
  · exact .map (Value.toNumber_clean ha) fun _ _ => trivial
  · exact numbersAmong_clean (values_clean hs ha)

theorem logicalsOf_clean (hs : ctx.source.Clean) {a : Operand} (ha : a.Clean) :
    FailsCleanly (logicalsOf ctx a) := by
  unfold logicalsOf
  split
  · trivial
  · exact .map (Value.toBool_clean ha) fun _ _ => trivial
  · exact logicalsAmong_clean (values_clean hs ha)

variable (hs : ctx.source.Clean) (hargs : ∀ a ∈ args, a.Clean)
include hs hargs

theorem numbers_clean : FailsCleanly (numbers ctx args) :=
  .map (.mapM fun a ha => numbersOf_clean hs (hargs a ha)) fun _ _ => trivial

theorem logicals_clean : FailsCleanly (logicals ctx args) := by
  refine .bind (.mapM fun a ha => logicalsOf_clean hs (hargs a ha)) fun bs _ => ?_
  split
  · exact (by decide : Fault.value ∈ Fault.spelled)
  · trivial

theorem product_clean : Gives Value.Clean (product ctx args) := by
  refine .bind (numbers_clean hs hargs) fun xs _ => ?_
  split
  · exact Value.clean_number _
  · exact Value.finite_clean _

theorem average_clean : Gives Value.Clean (average ctx args) := by
  refine .bind (numbers_clean hs hargs) fun xs _ => ?_
  split
  · exact (by decide : Fault.divideByZero ∈ Fault.spelled)
  · exact Value.clean_number _

theorem best_clean (pick : Float → Float → Float) : Gives Value.Clean (best pick ctx args) := by
  refine .bind (numbers_clean hs hargs) fun xs _ => ?_
  split
  · exact Value.clean_number _
  · exact Value.clean_number _

theorem join_clean : Gives Value.Clean (join ctx args) := by
  refine .bind (.mapM fun v hv => ?_) fun _ _ => Value.clean_text _
  obtain ⟨a, ha, hmem⟩ := List.mem_flatMap.mp hv
  exact Value.toText_clean (values_clean hs (hargs a ha) v hmem)

end Aggregate

/-! ### Tables -/

namespace Lookup

theorem find_clean (mode : Mode) (lookup : Value) (keys : List Value) :
    FailsCleanly (find ctx mode lookup keys) := by
  unfold find
  split
  · trivial
  · exact (by decide : Fault.notFound ∈ Fault.spelled)

theorem keys_clean (t : Table) : FailsCleanly (keys t) := by
  unfold keys
  split
  · trivial
  · split
    · trivial
    · exact (by decide : Fault.notFound ∈ Fault.spelled)

variable (hs : ctx.source.Clean) (hargs : ∀ a ∈ args, a.Clean)
include hs hargs

theorem get_clean (i row column : Nat) : ((tableArg ctx args i).get row column).Clean :=
  Table.all_get Value.clean_empty (Table.all_tableArg Value.clean_empty hs.all
    (fun a ha => Operand.clean_iff.mp (hargs a ha)) i) row column

theorem modeArg_clean (i : Nat) : FailsCleanly (modeArg ctx args i) := by
  unfold modeArg
  split
  · refine .bind (boolArg_clean hs hargs i) fun b _ => ?_
    split <;> trivial
  · trivial

theorem vertical_clean : Gives Value.Clean (vertical ctx args) := by
  refine .bind (valueArg_clean hs hargs 0) fun lookup _ => ?_
  refine .bind (positionArg_clean hs hargs 2) fun column _ => ?_
  split
  · exact (by decide : Fault.reference ∈ Fault.spelled)
  · refine .bind (modeArg_clean hs hargs 3) fun mode _ => ?_
    refine .bind (find_clean mode lookup _) fun row _ => ?_
    exact get_clean hs hargs 1 _ _

theorem horizontal_clean : Gives Value.Clean (horizontal ctx args) := by
  refine .bind (valueArg_clean hs hargs 0) fun lookup _ => ?_
  refine .bind (positionArg_clean hs hargs 2) fun row _ => ?_
  split
  · exact (by decide : Fault.reference ∈ Fault.spelled)
  · refine .bind (modeArg_clean hs hargs 3) fun mode _ => ?_
    refine .bind (find_clean mode lookup _) fun column _ => ?_
    exact get_clean hs hargs 1 _ _

theorem index_clean : Gives Value.Clean (index ctx args) := by
  refine .bind (numberArg_clean hs hargs 1) fun first _ => ?_
  refine .bind (numberArgD_clean hs hargs 2 0.0) fun second _ => ?_
  dsimp only
  split
  · exact (by decide : Fault.value ∈ Fault.spelled)
  split
  · exact (by decide : Fault.value ∈ Fault.spelled)
  split
  · exact (by decide : Fault.reference ∈ Fault.spelled)
  · exact get_clean hs hargs 0 _ _

theorem place_clean : Gives Value.Clean (place ctx args) := by
  refine .bind (valueArg_clean hs hargs 0) fun lookup _ => ?_
  refine .bind (keys_clean _) fun ks _ => ?_
  refine .bind (numberArgD_clean hs hargs 2 1.0) fun x _ => ?_
  exact .bind (find_clean _ lookup ks) fun _ _ => Value.clean_number _

end Lookup

/-! ### Criteria -/

namespace Conditional

theorem rangeOf_clean {a : Operand} (ha : a.Clean) : FailsCleanly (rangeOf a) := by
  unfold rangeOf
  split
  case h_3 f => exact Value.clean_error.mp ha
  case h_4 => exact (by decide : Fault.value ∈ Fault.spelled)
  case h_5 => exact (by decide : Fault.value ∈ Fault.spelled)
  all_goals trivial

theorem rangeArg_clean (hargs : ∀ a ∈ args, a.Clean) (i : Nat) : FailsCleanly (rangeArg args i) := by
  unfold rangeArg
  split
  case h_1 a ha => exact rangeOf_clean (hargs a (List.mem_of_getElem? ha))
  case h_2 => exact (by decide : Fault.value ∈ Fault.spelled)

theorem tally_clean (acc : Float) (n : Nat) {vs : List Value} (h : ∀ v ∈ vs, v.Clean) :
    FailsCleanly (tally acc n vs) := by
  fun_induction tally acc n vs with
  | case1 => trivial
  | case2 acc n x rest ih => exact ih fun v hv => h v (List.mem_cons_of_mem _ hv)
  | case3 acc n x rest ih => exact ih fun v hv => h v (List.mem_cons_of_mem _ hv)
  | case4 acc n f rest => exact Value.clean_error.mp (h _ List.mem_cons_self)
  | case5 acc n v rest _ _ _ ih => exact ih fun v hv => h v (List.mem_cons_of_mem _ hv)

/-- What is selected are values of cells. -/
theorem matched_clean (hs : ctx.source.Clean) (conditions : List Condition) (target : CellRange) :
    Gives (fun vs => ∀ v ∈ vs, v.Clean) (matched ctx conditions target) := by
  unfold matched
  split
  case h_1 => exact (by decide : Fault.value ∈ Fault.spelled)
  case h_2 lead others =>
    split
    case isFalse => exact (by decide : Fault.value ∈ Fault.spelled)
    case isTrue => exact all_matchAt hs.all

variable (hs : ctx.source.Clean)
include hs

theorem single_clean (hargs : ∀ a ∈ args, a.Clean) : FailsCleanly (single ctx args) := by
  refine .bind (rangeArg_clean hargs 0) fun range _ => ?_
  refine .bind (valueArg_clean hs hargs 1) fun v _ => ?_
  split
  case h_1 arg harg =>
    refine .bind (rangeOf_clean (hargs arg (List.mem_of_getElem? harg))) fun _ _ => trivial
  case h_2 => trivial

theorem pairs_clean (hargs : ∀ a ∈ args, a.Clean) : FailsCleanly (pairs ctx args) := by
  fun_induction pairs ctx args with
  | case1 range criterion rest ih =>
    have hpair : ∀ a ∈ [range, criterion], a.Clean := by
      intro a ha
      refine hargs a ?_
      rcases List.mem_pair.mp ha with rfl | rfl <;> simp
    refine .bind (rangeOf_clean (hargs range List.mem_cons_self)) fun _ _ => ?_
    refine .bind (valueArg_clean hs hpair 1) fun _ _ => ?_
    exact .bind (ih fun a ha => hargs a (by simp [ha])) fun _ _ => trivial
  | case2 => trivial

theorem sumIf_clean (hargs : ∀ a ∈ args, a.Clean) : Gives Value.Clean (sumIf ctx args) := by
  refine .bind (single_clean hs hargs) fun p _ => ?_
  refine .bind (matched_clean hs _ _) fun vs hvs => ?_
  exact .bind (tally_clean 0.0 0 hvs) fun _ _ => Value.clean_number _

theorem countIf_clean (hargs : ∀ a ∈ args, a.Clean) : Gives Value.Clean (countIf ctx args) := by
  refine .bind (single_clean hs hargs) fun p _ => ?_
  exact .bind (matched_clean hs _ _) fun vs hvs => Value.clean_number _

theorem averageIf_clean (hargs : ∀ a ∈ args, a.Clean) : Gives Value.Clean (averageIf ctx args) := by
  refine .bind (single_clean hs hargs) fun p _ => ?_
  refine .bind (matched_clean hs _ _) fun vs hvs => ?_
  refine .bind (tally_clean 0.0 0 hvs) fun q _ => ?_
  dsimp only
  split
  · exact (by decide : Fault.divideByZero ∈ Fault.spelled)
  · exact Value.clean_number _

theorem sumIfs_clean (hargs : ∀ a ∈ args, a.Clean) : Gives Value.Clean (sumIfs ctx args) := by
  unfold sumIfs
  split
  · exact (by decide : Fault.value ∈ Fault.spelled)
  · refine .bind (rangeArg_clean hargs 0) fun target _ => ?_
    refine .bind (pairs_clean hs fun a ha => hargs a (List.mem_of_mem_tail ha)) fun conditions _ => ?_
    refine .bind (matched_clean hs _ _) fun vs hvs => ?_
    exact .bind (tally_clean 0.0 0 hvs) fun _ _ => Value.clean_number _

end Conditional

/-! ### All functions -/

namespace Builtin

variable (hs : ctx.source.Clean) (hargs : ∀ a ∈ args, a.Clean)
include hs hargs

theorem round_clean (mode : Float → Float) : Gives Value.Clean (Arithmetic.round mode ctx args) :=
  .bind (numberArg_clean hs hargs 0) fun _ _ =>
    .bind (numberArgD_clean hs hargs 1 0.0) fun _ _ => Value.finite_clean _

theorem mod_clean : Gives Value.Clean (Arithmetic.mod ctx args) := by
  refine .bind (numberArg_clean hs hargs 0) fun n _ => ?_
  refine .bind (numberArg_clean hs hargs 1) fun d _ => ?_
  split
  · exact (by decide : Fault.divideByZero ∈ Fault.spelled)
  · exact Value.finite_clean _

theorem sqrt_clean : Gives Value.Clean (Arithmetic.sqrt ctx args) := by
  refine .bind (numberArg_clean hs hargs 0) fun x _ => ?_
  split
  · exact (by decide : Fault.num ∈ Fault.spelled)
  · exact Value.finite_clean _

theorem power_clean : Gives Value.Clean (Arithmetic.power ctx args) := by
  refine .bind (valueArg_clean hs hargs 0) fun base hbase => ?_
  refine .bind (valueArg_clean hs hargs 1) fun exponent hexponent => ?_
  have hpower := Value.power_clean hbase hexponent
  split
  case h_1 f hf => exact Value.clean_error.mp (hf ▸ hpower)
  case h_2 => exact hpower

theorem mapText_clean {f : String → Value} (hf : ∀ s, (f s).Clean) :
    Gives Value.Clean (TextFunction.mapText f ctx args) :=
  .bind (textArg_clean hs hargs 0) fun s _ => hf s

theorem mid_clean : Gives Value.Clean (TextFunction.mid ctx args) :=
  .bind (textArg_clean hs hargs 0) fun _ _ => .bind (positionArg_clean hs hargs 1) fun _ _ =>
    .bind (countArg_clean hs hargs 2 0.0) fun _ _ => Value.clean_text _

theorem ofParts_clean : Gives Value.Clean (DateFunction.ofParts ctx args) := by
  refine .bind (numberArg_clean hs hargs 0) fun year _ => ?_
  refine .bind (numberArg_clean hs hargs 1) fun month _ => ?_
  refine .bind (numberArg_clean hs hargs 2) fun day _ => ?_
  split
  · exact Value.clean_of_fault? rfl
  · exact (by decide : Fault.num ∈ Fault.spelled)

theorem part_clean (pick : Date → Nat) : Gives Value.Clean (DateFunction.part pick ctx args) := by
  refine .bind (numberArg_clean hs hargs 0) fun x _ => ?_
  split
  · exact Value.clean_number _
  · exact (by decide : Fault.num ∈ Fault.spelled)

/-- **A function of clean operands gives a clean value or fails with a fault that can be spelled
out.** -/
theorem apply_clean (body : Builtin) : Gives Value.Clean (body.apply ctx args) := by
  have htext := textArg_clean hs hargs 0
  have hcount := countArg_clean hs hargs 1 1.0
  cases body with
  | sum => exact .bind (Aggregate.numbers_clean hs hargs) fun _ _ => Value.clean_number _
  | product => exact Aggregate.product_clean hs hargs
  | average => exact Aggregate.average_clean hs hargs
  | count => exact Value.clean_number _
  | counta => exact Value.clean_number _
  | max => exact Aggregate.best_clean hs hargs _
  | min => exact Aggregate.best_clean hs hargs _
  | sumif => exact Conditional.sumIf_clean hs hargs
  | sumifs => exact Conditional.sumIfs_clean hs hargs
  | countif => exact Conditional.countIf_clean hs hargs
  | averageif => exact Conditional.averageIf_clean hs hargs
  | abs => exact .bind (numberArg_clean hs hargs 0) fun _ _ => Value.finite_clean _
  | round => exact round_clean hs hargs _
  | roundup => exact round_clean hs hargs _
  | rounddown => exact round_clean hs hargs _
  | int => exact .bind (numberArg_clean hs hargs 0) fun _ _ => Value.finite_clean _
  | mod => exact mod_clean hs hargs
  | power => exact power_clean hs hargs
  | sqrt => exact sqrt_clean hs hargs
  | and => exact .bind (Aggregate.logicals_clean hs hargs) fun _ _ => Value.clean_boolean _
  | or => exact .bind (Aggregate.logicals_clean hs hargs) fun _ _ => Value.clean_boolean _
  | not => exact .bind (boolArg_clean hs hargs 0) fun _ _ => Value.clean_boolean _
  | concat => exact Aggregate.join_clean hs hargs
  | concatenate =>
    exact .bind (.mapM fun i _ => textArg_clean hs hargs i) fun _ _ => Value.clean_text _
  | len => exact mapText_clean hs hargs fun _ => Value.clean_number _
  | left => exact .bind htext fun _ _ => .bind hcount fun _ _ => Value.clean_text _
  | right => exact .bind htext fun _ _ => .bind hcount fun _ _ => Value.clean_text _
  | mid => exact mid_clean hs hargs
  | upper => exact mapText_clean hs hargs fun _ => Value.clean_text _
  | lower => exact mapText_clean hs hargs fun _ => Value.clean_text _
  | trim => exact mapText_clean hs hargs fun _ => Value.clean_text _
  | vlookup => exact Lookup.vertical_clean hs hargs
  | hlookup => exact Lookup.horizontal_clean hs hargs
  | index => exact Lookup.index_clean hs hargs
  | lookupMatch => exact Lookup.place_clean hs hargs
  | date => exact ofParts_clean hs hargs
  | year => exact part_clean hs hargs _
  | month => exact part_clean hs hargs _
  | day => exact part_clean hs hargs _
  | isblank => exact Value.clean_boolean _
  | iserror => exact Value.clean_boolean _
  | isnumber => exact Value.clean_boolean _
  | istext => exact Value.clean_boolean _

end Builtin

/-! ### Evaluation -/

namespace Engine

theorem clean_ofTarget (t : Target) : (Operand.ofTarget t).Clean := by
  cases t <;> trivial

theorem applyTo_clean (hs : ctx.source.Clean) (hargs : ∀ a ∈ args, a.Clean) (f : FunctionSpec)
    (body : Builtin) : (f.applyTo body ctx args).Clean := by
  unfold FunctionSpec.applyTo
  split
  case h_1 fault hfault =>
    -- the first operand that is a fault
    split at hfault
    · cases hfault
    · obtain ⟨a, ha, hf⟩ := List.exists_of_findSome?_eq_some hfault
      cases a with
      | value v => exact Value.clean_error.mpr (hargs _ ha fault hf)
      | _ => cases hf
  case h_2 => exact (Builtin.apply_clean hs hargs body).clean

theorem clean_of_isConstant {v : Value} (h : v.IsConstant) : v.Clean := by
  cases v with
  | error f => exact Value.clean_error.mpr h
  | _ => exact Value.clean_of_fault? rfl

theorem clean_of_isLiteral {v : Value} (h : v.IsLiteral) : v.Clean := by
  cases v with
  | number x => exact Value.clean_number x
  | error f => exact Value.clean_error.mpr h
  | _ => exact Value.clean_of_fault? rfl

theorem hasDynamicArg_eq_false {args : List Expr} :
    Expr.hasDynamicArg args = false ↔ ∀ a ∈ args, a.hasDynamic = false := by
  induction args with
  | nil => simp [Expr.hasDynamicArg]
  | cons a rest ih => simp [Expr.hasDynamicArg, ih]

theorem operandAt_eq {functions : Registry} (args : List Expr) (k : Nat) :
    operandAt functions ctx args k = ((args[k]?).map (operand functions ctx)).getD (.value .empty) := by
  induction args generalizing k with
  | nil => rfl
  | cons a rest ih =>
    cases k with
    | zero => rfl
    | succ k => exact ih k

/-- The branch that a conditional takes is clean. -/
theorem branch_clean {functions : Registry} {args : List Expr} {k : Nat} {absent : Value}
    {a : Operand} (habsent : absent.Clean) (hat : (operandAt functions ctx args k).Clean)
    (ha : a = match args[k]? with
      | none => .value absent
      | some e => if e.isOmitted then .value (.number 0.0) else operandAt functions ctx args k) :
    a.Clean := by
  subst ha
  split
  · exact habsent
  · split
    · exact Value.clean_number _
    · exact hat

/-- A call of a function that is not dynamic hands on or computes something clean. -/
theorem operand_call_clean {functions : Registry} (hs : ctx.source.Clean) {name : String}
    {args : List Expr} (hargs : ∀ a ∈ args, (operand functions ctx a).Clean)
    (hkind : ∀ f, functions.find? name = some f → f.kind ≠ .dynamic) :
    (operand functions ctx (.call name args)).Clean := by
  have hat (k : Nat) : (operandAt functions ctx args k).Clean := by
    rw [operandAt_eq]
    cases ha : args[k]? with
    | none => exact Value.clean_empty
    | some a => exact hargs a (List.mem_of_getElem? ha)
  rw [operand]
  split
  case h_1 => exact Value.clean_error.mpr (by decide)
  case h_2 f hf =>
    split
    case isTrue => exact Value.clean_error.mpr (by decide)
    case isFalse =>
      split
      case h_1 hdynamic => exact absurd hdynamic (hkind f hf)
      case h_2 body _ =>
        refine applyTo_clean hs (fun a ha => ?_) f body
        rw [operands_eq_map] at ha
        obtain ⟨e, he, rfl⟩ := List.mem_map.mp ha
        exact hargs e he
      case h_3 =>
        have hfirst := scalar_clean hs (hat 0)
        have hbool := Value.toBool_clean hfirst
        dsimp only
        split
        · split
          · exact branch_clean (Value.clean_boolean false) (hat 1) rfl
          · exact branch_clean (Value.clean_boolean false) (hat 2) rfl
          case h_3 fault hfault =>
            rw [hfault] at hbool
            exact Value.clean_error.mpr hbool
        · split
          · split
            · exact branch_clean (Value.clean_boolean false) (hat 1) rfl
            · exact hfirst
          · exact Value.clean_error.mpr (by decide)

/-- **A readable formula without references that are only known once computed has a clean
operand.** -/
theorem operand_clean {fctx : FormulaContext} (hs : ctx.source.Clean) {e : Expr}
    (he : e.Readable fctx) (hstatic : e.hasDynamic = false) :
    (operand fctx.functions ctx e).Clean := by
  induction he with
  | literal hv => exact clean_of_isLiteral hv
  | array hrows => exact fun row hrow v hv => clean_of_isConstant (hrows.constant row hrow v hv)
  | named => exact clean_ofTarget _
  | address => exact clean_ofTarget _
  | unary op he ih =>
    rw [operand]
    exact Value.unary_clean op (scalar_clean hs (ih hstatic))
  | binary op ha hb iha ihb =>
    rw [Expr.hasDynamic, Bool.or_eq_false_iff] at hstatic
    rw [operand]
    exact Value.binary_clean _ op (scalar_clean hs (iha hstatic.1)) (scalar_clean hs (ihb hstatic.2))
  | dynamic => cases hstatic
  | call hname hargs hsole hknown ih =>
    refine operand_call_clean hs (fun a ha => ?_) fun f hf => (hknown f hf).2
    rw [Expr.hasDynamic, hasDynamicArg_eq_false] at hstatic
    cases homitted : a.isOmitted with
    | false => exact ih a ha homitted (hstatic a ha)
    | true =>
      obtain rfl := Expr.eq_omitted homitted
      exact Value.clean_empty

/-- **Such a formula over clean cells has a clean value.** -/
theorem clean_evaluate {engine : Engine} {sheet source : String} {f : Formula}
    (h : engine.compile source sheet = .ok f) (hstatic : f.unsupported = []) {s : CellSource}
    (hs : s.Clean) : (engine.evaluate f.expr s).Clean := by
  obtain ⟨hreadable, hdynamic⟩ := Formula.readable_parse h
  have hclean := operand_clean (show CellSource.Clean (EvalContext.mk s engine.options).source from hs) hreadable
    (Bool.eq_false_iff.mpr fun hdyn => hdynamic hdyn hstatic)
  exact topLeft_clean hs hclean

end Engine

end Recalc
