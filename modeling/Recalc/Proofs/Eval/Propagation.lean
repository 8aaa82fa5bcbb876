/-
Recalc/Proofs/Eval/Propagation.lean

Faults are passed on.  Some functions are made to deal with faults: they test for them,
count around them, or look at a part of their arguments only.  Any other function, and
every operator, fails if one of its arguments holds a fault anywhere.  So a formula of
these alone has a fault as its value as soon as one of its constants is a fault, or one of
the cells that it refers to:

    e.Faulty entry → ∃ f, evaluate e source = .error f.

Design.  An operand is faulty if a fault is among what it stands for.  Functions read
their arguments in two ways: as single values, of which several cells are none, or as
all the values there are.  Both ways meet the fault, read cell by cell or not.
-/
import Recalc.Proofs.Eval.Faults
import Recalc.Proofs.Eval.Threshold

namespace Recalc

/-! ### Faulty formulas -/

namespace Expr

/-- The names of the functions that need not fail on a fault. -/
def forgiving : List String :=
  ["IF", "IFERROR", "ISBLANK", "ISERROR", "ISNUMBER", "ISTEXT", "COUNT", "COUNTA", "SUMIF",
    "SUMIFS", "COUNTIF", "AVERAGEIF", "VLOOKUP", "HLOOKUP", "INDEX", "MATCH"]

/-- The formula computes something: it is more than a reference, a literal or an array. -/
def isComputation : Expr → Bool
  | .reference _ => false
  | .literal _ => false
  | .array _ => false
  | _ => true

/-- A constant of the formula is a fault, or a cell that it refers to holds one. -/
def Faulty (entry : Coordinate → Option Value) (e : Expr) : Prop :=
  (∃ v ∈ e.constants, v.isError = true) ∨ ∃ r ∈ e.references, r.target.toRange.Ordered ∧
    ∃ c f, r.target.contains c = true ∧ entry c = some (.error f)

variable {entry : Coordinate → Option Value}

/-- A fault of an argument list is one of its arguments'. -/
theorem exists_faulty_of_args {e : Expr} {args : List Expr}
    (hconstants : e.constants = constantsOfArgs args)
    (hreferences : e.references = referencesOfArgs args) (h : e.Faulty entry) :
    ∃ a ∈ args, a.Faulty entry := by
  rcases h with ⟨v, hv, herror⟩ | ⟨r, hr, hfault⟩
  · rw [hconstants] at hv
    obtain ⟨a, ha, hv⟩ := mem_constantsOfArgs.mp hv
    exact ⟨a, ha, .inl ⟨v, hv, herror⟩⟩
  · rw [hreferences] at hr
    obtain ⟨a, ha, hr⟩ := mem_referencesOfArgs.mp hr
    exact ⟨a, ha, .inr ⟨r, hr, hfault⟩⟩

theorem faulty_or_faulty {op : BinaryOp} {a b : Expr} (h : (Expr.binary op a b).Faulty entry) :
    a.Faulty entry ∨ b.Faulty entry := by
  rcases h with ⟨v, hv, herror⟩ | ⟨r, hr, hfault⟩
  · rw [constants] at hv
    exact (List.mem_append.mp hv).imp (fun hv => .inl ⟨v, hv, herror⟩)
      fun hv => .inl ⟨v, hv, herror⟩
  · rw [references] at hr
    exact (List.mem_append.mp hr).imp (fun hr => .inr ⟨r, hr, hfault⟩)
      fun hr => .inr ⟨r, hr, hfault⟩

end Expr

theorem Value.exists_of_isError {v : Value} (h : v.isError = true) : ∃ f, v = .error f := by
  cases v with
  | error f => exact ⟨f, rfl⟩
  | _ => cases h

/-! ### Computations that fail -/

/-- The computation fails. -/
def Fails {α : Type} (x : Except Fault α) : Prop := ∃ f, x = .error f

namespace Fails

variable {α β : Type} {x : Except Fault α} {f : α → Except Fault β}

theorem error (e : Fault) : Fails (.error e : Except Fault α) := ⟨e, rfl⟩

theorem bind (h : Fails x) : Fails (x >>= f) := by
  obtain ⟨e, rfl⟩ := h
  exact ⟨e, rfl⟩

/-- What comes second fails, whatever the first gives. -/
theorem bind_right (h : ∀ a, Fails (f a)) : Fails (x >>= f) := by
  cases x with
  | error e => exact error e
  | ok a => exact h a

theorem map {g : α → β} (h : Fails x) : Fails (x.map g) := by
  obtain ⟨e, rfl⟩ := h
  exact ⟨e, rfl⟩

theorem mapM {l : List α} {a : α} (ha : a ∈ l) (h : Fails (f a)) : Fails (l.mapM f) := by
  induction l with
  | nil => cases ha
  | cons b rest ih =>
    rw [List.mapM_cons]
    rcases List.mem_cons.mp ha with rfl | ha
    · exact h.bind
    · exact bind_right fun _ => (ih ha).bind

theorem isError {x : Except Fault Value} (h : Fails x) : (Value.ofExcept x).isError = true := by
  obtain ⟨e, rfl⟩ := h
  rfl

end Fails

/-! ### Faulty operands -/

/-- A fault is among what the operand stands for. -/
def Operand.Faulty (entry : Coordinate → Option Value) : Operand → Prop
  | .value v => v.isError = true
  | .cell c => ∃ f, entry c = some (.error f)
  | .range r => r.Ordered ∧ ∃ c f, r.contains c = true ∧ entry c = some (.error f)
  | .array rows => ∃ v ∈ rows.flatten, v.isError = true

theorem Operand.faulty_ofTarget {entry : Coordinate → Option Value} {t : Target} {c : Coordinate}
    {f : Fault} (ht : t.toRange.Ordered) (hc : t.contains c = true)
    (hf : entry c = some (.error f)) : (Operand.ofTarget t).Faulty entry := by
  cases t with
  | cell d =>
    obtain rfl : d = c := eq_of_beq hc
    exact ⟨f, hf⟩
  | range r => exact ⟨ht, c, f, hc, hf⟩

variable {ctx : EvalContext} {entry : Coordinate → Option Value} {a : Operand}
  {args : List Operand}

theorem CellSource.HasEntries.value_of_error {s : CellSource} (h : s.HasEntries entry)
    {c : Coordinate} {f : Fault} (hc : entry c = some (.error f)) : s.value c = .error f := by
  rw [h.value, hc]
  rfl

/-- The only cell of a range is its first. -/
theorem CellRange.eq_first_of_size {r : CellRange} {c : Coordinate} (hsize : r.size = 1)
    (hc : r.contains c = true) : c = r.first := by
  have hrows : r.rows = 1 := Nat.eq_one_of_mul_eq_one_right hsize
  have hcolumns : r.columns = 1 := Nat.eq_one_of_mul_eq_one_left hsize
  obtain ⟨hsheet, hrow, hcolumn⟩ := contains_iff.mp hc
  rw [rows] at hrows
  rw [columns] at hcolumns
  obtain ⟨sheet, column, row⟩ := c
  dsimp only at hsheet hrow hcolumn
  obtain ⟨⟨sheet', column', row'⟩, last⟩ := r
  dsimp only at *
  obtain rfl : column = column' := by omega
  obtain rfl : row = row' := by omega
  rw [hsheet]

namespace EvalContext

/-- **A faulty operand is a fault as a single value.**  Several cells or elements are one anyway. -/
theorem isError_scalar (h : ctx.source.HasEntries entry) (ha : a.Faulty entry) :
    (ctx.scalar a).isError = true := by
  unfold scalar
  split
  case h_1 v => exact ha
  case h_2 c =>
    obtain ⟨f, hf⟩ := ha
    rw [h.value_of_error hf]
    rfl
  case h_3 r =>
    obtain ⟨-, c, f, hc, hf⟩ := ha
    split
    case isTrue hsize =>
      rw [← CellRange.eq_first_of_size hsize hc, h.value_of_error hf]
      rfl
    case isFalse => rfl
  case h_4 v =>
    obtain ⟨w, hw, herror⟩ := ha
    obtain rfl : w = v := by simpa using hw
    exact herror
  case h_5 => rfl

/-- **All values of a faulty operand include a fault**, whether its cells are walked or listed. -/
theorem exists_error_mem_values (h : ctx.source.HasEntries entry) (ha : a.Faulty entry) :
    ∃ f, Value.error f ∈ ctx.values a := by
  cases a with
  | value v =>
    obtain ⟨f, rfl⟩ := Value.exists_of_isError ha
    exact ⟨f, List.mem_singleton_self _⟩
  | cell c =>
    obtain ⟨f, hf⟩ := ha
    exact ⟨f, List.mem_singleton.mpr (h.value_of_error hf).symm⟩
  | array rows =>
    obtain ⟨v, hv, herror⟩ := ha
    obtain ⟨f, rfl⟩ := Value.exists_of_isError herror
    exact ⟨f, hv⟩
  | range r =>
    obtain ⟨hr, c, f, hc, hf⟩ := ha
    refine ⟨f, List.mem_map.mpr ⟨(c, .error f), ?_, rfl⟩⟩
    unfold cells
    split
    · exact (h.mem r c _).mpr ⟨hc, hf⟩
    · refine List.mem_map.mpr ⟨c, (CellRange.mem_cells_iff hr).mpr hc, ?_⟩
      rw [h.value_of_error hf]

/-! ### Single arguments -/

/-- An argument that is there fails as a value. -/
def FailsAt (ctx : EvalContext) (args : List Operand) (i : Nat) : Prop :=
  i < args.length ∧ Fails (ctx.valueArg args i)

theorem failsAt_of_faulty (h : ctx.source.HasEntries entry) {i : Nat} (hi : args[i]? = some a)
    (ha : a.Faulty entry) : ctx.FailsAt args i := by
  refine ⟨(List.getElem?_eq_some_iff.mp hi).1, ?_⟩
  obtain ⟨f, hf⟩ := Value.exists_of_isError (isError_scalar h ha)
  refine ⟨f, ?_⟩
  rw [valueArg, hi, Option.map_some, Option.getD_some, hf]

namespace FailsAt

variable {i : Nat}

theorem numberArg (h : ctx.FailsAt args i) : Fails (ctx.numberArg args i) := h.2.bind

theorem numberArgD (h : ctx.FailsAt args i) (default : Float) :
    Fails (ctx.numberArgD args i default) := by
  rw [EvalContext.numberArgD, if_pos h.1]
  exact h.numberArg

theorem textArg (h : ctx.FailsAt args i) : Fails (ctx.textArg args i) := h.2.bind

theorem boolArg (h : ctx.FailsAt args i) : Fails (ctx.boolArg args i) := h.2.bind

theorem positionArg (h : ctx.FailsAt args i) : Fails (ctx.positionArg args i) := h.numberArg.bind

theorem countArg (h : ctx.FailsAt args i) (default : Float) : Fails (ctx.countArg args i default) :=
  (h.numberArgD default).bind

end FailsAt

end EvalContext

/-! ### All arguments -/

namespace Aggregate

theorem numbersAmong_fails {vs : List Value} {f : Fault} (h : .error f ∈ vs) :
    Fails (numbersAmong vs) := by
  fun_induction numbersAmong vs with
  | case1 => cases h
  | case2 x rest ih => exact (ih (List.mem_of_ne_of_mem Value.noConfusion h)).map
  | case3 x rest ih => exact (ih (List.mem_of_ne_of_mem Value.noConfusion h)).map
  | case4 g rest => exact .error g
  | case5 v rest _ _ hv ih => exact ih (List.mem_of_ne_of_mem (fun heq => hv f heq.symm) h)

theorem logicalsAmong_fails {vs : List Value} {f : Fault} (h : .error f ∈ vs) :
    Fails (logicalsAmong vs) := by
  fun_induction logicalsAmong vs with
  | case1 => cases h
  | case2 b rest ih => exact (ih (List.mem_of_ne_of_mem Value.noConfusion h)).map
  | case3 x rest ih => exact (ih (List.mem_of_ne_of_mem Value.noConfusion h)).map
  | case4 x rest ih => exact (ih (List.mem_of_ne_of_mem Value.noConfusion h)).map
  | case5 g rest => exact .error g
  | case6 v rest _ _ _ hv ih => exact ih (List.mem_of_ne_of_mem (fun heq => hv f heq.symm) h)

variable (h : ctx.source.HasEntries entry) (ha : a.Faulty entry)
include h ha

theorem numbersOf_fails : Fails (numbersOf ctx a) := by
  unfold numbersOf
  split
  case h_1 => cases ha
  case h_2 v _ =>
    obtain ⟨f, rfl⟩ := Value.exists_of_isError ha
    exact (Fails.error f).map
  case h_3 =>
    obtain ⟨f, hf⟩ := EvalContext.exists_error_mem_values h ha
    exact numbersAmong_fails hf

theorem logicalsOf_fails : Fails (logicalsOf ctx a) := by
  unfold logicalsOf
  split
  case h_1 => cases ha
  case h_2 v _ =>
    obtain ⟨f, rfl⟩ := Value.exists_of_isError ha
    exact (Fails.error f).map
  case h_3 =>
    obtain ⟨f, hf⟩ := EvalContext.exists_error_mem_values h ha
    exact logicalsAmong_fails hf

variable (hmem : a ∈ args)
include hmem

theorem numbers_fails : Fails (numbers ctx args) := (Fails.mapM hmem (numbersOf_fails h ha)).map

theorem logicals_fails : Fails (logicals ctx args) := (Fails.mapM hmem (logicalsOf_fails h ha)).bind

theorem join_fails : Fails (join ctx args) := by
  obtain ⟨f, hf⟩ := EvalContext.exists_error_mem_values h ha
  exact (Fails.mapM (List.mem_flatMap.mpr ⟨a, hmem, hf⟩) (.error f)).bind

end Aggregate

/-! ### Functions -/

namespace Builtin

/-- How many arguments the function reads as single values, if it reads all it takes so. -/
def singles? : Builtin → Option Nat
  | .abs | .int | .sqrt | .not | .len | .upper | .lower | .trim | .year | .month | .day => some 1
  | .round | .roundup | .rounddown | .mod | .power | .left | .right => some 2
  | .mid | .date => some 3
  | _ => none

/-- The function reads every value of all its arguments. -/
def readsAll : Builtin → Bool
  | .sum | .product | .average | .max | .min | .and | .or | .concat | .concatenate => true
  | _ => false

theorem round_fails (mode : Float → Float) {i : Nat} (h : ctx.FailsAt args i) (hi : i < 2) :
    Fails (Arithmetic.round mode ctx args) := by
  match i, hi with
  | 0, _ => exact h.numberArg.bind
  | 1, _ => exact .bind_right fun _ => (h.numberArgD _).bind

/-- **A function of single values fails if one of them does.** -/
theorem apply_fails_of_singles {body : Builtin} {n i : Nat} (hbody : body.singles? = some n)
    (hi : i < n) (h : ctx.FailsAt args i) : Fails (body.apply ctx args) := by
  cases body
  case abs | int | len | upper | lower | trim | sqrt | not | year | month | day =>
    obtain rfl := Option.some.inj hbody
    obtain rfl := Nat.lt_one_iff.mp hi
    first | exact h.numberArg.bind | exact h.textArg.bind | exact h.boolArg.bind
  case round | roundup | rounddown =>
    obtain rfl := Option.some.inj hbody
    exact round_fails _ h hi
  -- whether a value in front of the failing one fails as well does not matter
  case mod =>
    obtain rfl := Option.some.inj hbody
    match i, hi with
    | 0, _ => exact h.numberArg.bind
    | 1, _ => exact .bind_right fun _ => h.numberArg.bind
  case power =>
    obtain rfl := Option.some.inj hbody
    match i, hi with
    | 0, _ => exact h.2.bind
    | 1, _ => exact .bind_right fun _ => h.2.bind
  case left | right =>
    obtain rfl := Option.some.inj hbody
    match i, hi with
    | 0, _ => exact h.textArg.bind
    | 1, _ => exact .bind_right fun _ => (h.countArg _).bind
  case mid =>
    obtain rfl := Option.some.inj hbody
    match i, hi with
    | 0, _ => exact h.textArg.bind
    | 1, _ => exact .bind_right fun _ => h.positionArg.bind
    | 2, _ => exact .bind_right fun _ => .bind_right fun _ => (h.countArg _).bind
  case date =>
    obtain rfl := Option.some.inj hbody
    match i, hi with
    | 0, _ => exact h.numberArg.bind
    | 1, _ => exact .bind_right fun _ => h.numberArg.bind
    | 2, _ => exact .bind_right fun _ => .bind_right fun _ => h.numberArg.bind
  all_goals cases hbody

/-- **A function of all values fails if one of them is a fault.** -/
theorem apply_fails_of_readsAll {body : Builtin} (hbody : body.readsAll = true)
    (h : ctx.source.HasEntries entry) (ha : a.Faulty entry) (hmem : a ∈ args) :
    Fails (body.apply ctx args) := by
  cases body
  case sum | product | average | max | min => exact (Aggregate.numbers_fails h ha hmem).bind
  case and | or => exact (Aggregate.logicals_fails h ha hmem).bind
  case concat => exact Aggregate.join_fails h ha hmem
  case concatenate =>
    obtain ⟨i, hi⟩ := List.mem_iff_getElem?.mp hmem
    have hfails := EvalContext.failsAt_of_faulty h hi ha
    exact (Fails.mapM (List.mem_range.mpr hfails.1) hfails.textArg).bind
  all_goals cases hbody

end Builtin

namespace FunctionSpec

/-- The function reads all the arguments that it takes, or computes nothing. -/
def isStrict (f : FunctionSpec) : Bool :=
  match f.kind with
  | .eager body =>
    body.readsAll || (match body.singles?, f.maxArgs with
      | some n, some most => decide (most ≤ n)
      | _, _ => false)
  | .conditional => false
  | .dynamic => true

theorem isStrict_of_mem_builtins :
    ∀ f ∈ builtins, Text.upperAscii f.name ∉ Expr.forgiving → f.isStrict = true := by
  decide

end FunctionSpec

/-! ### Formulas -/

namespace Engine

/-- A call of a strict function with a faulty argument is a fault. -/
theorem exists_fault_of_args {name : String} {args : List Expr}
    (hname : Text.upperAscii name ∉ Expr.forgiving) (h : ctx.source.HasEntries entry) {e : Expr}
    (he : e ∈ args) (hfaulty : (operand .builtin ctx e).Faulty entry) :
    ∃ f, operand .builtin ctx (.call name args) = .fault f := by
  rw [operand]
  split
  case h_1 => exact ⟨_, rfl⟩
  case h_2 f hf =>
    obtain ⟨hmem, heq⟩ := Registry.mem_of_find?_builtin hf
    have hstrict := FunctionSpec.isStrict_of_mem_builtins f hmem (by rwa [heq])
    split
    case isTrue => exact ⟨_, rfl⟩
    case isFalse harity =>
      unfold FunctionSpec.isStrict at hstrict
      split
      case h_1 => exact ⟨_, rfl⟩
      case h_3 hkind =>
        rw [hkind] at hstrict
        cases hstrict
      case h_2 body hkind =>
        rw [hkind] at hstrict
        have harg : operand .builtin ctx e ∈ operands .builtin ctx args := by
          rw [operands_eq_map]
          exact List.mem_map_of_mem he
        have hfails : Fails (body.apply ctx (operands .builtin ctx args)) := by
          -- a strict function reads whole arguments, or each one as a single value
          rcases Bool.or_eq_true_iff.mp hstrict with hall | hsingles
          · exact Builtin.apply_fails_of_readsAll hall h hfaulty harg
          · split at hsingles
            case h_2 => cases hsingles
            case h_1 n most hn hmost =>
              -- the call is fine, so the argument is among those read
              obtain ⟨i, hi⟩ := List.mem_iff_getElem?.mp harg
              have hat := EvalContext.failsAt_of_faulty h hi hfaulty
              have hle := FunctionSpec.le_of_arityFault? hmost (Bool.not_eq_true _ ▸ harity)
              have hlength : i < args.length := by simpa [operands_eq_map] using hat.1
              have hlt : i < n := by
                have := of_decide_eq_true hsingles
                omega
              exact Builtin.apply_fails_of_singles hn hlt hat
        rw [FunctionSpec.applyTo]
        split
        case h_1 g _ => exact ⟨g, rfl⟩
        case h_2 =>
          obtain ⟨g, hg⟩ := hfails
          rw [hg]
          exact ⟨g, rfl⟩

theorem isError_unary (op : UnaryOp) {v : Value} (h : v.isError = true) :
    (Value.unary op v).isError = true := by
  obtain ⟨f, rfl⟩ := Value.exists_of_isError h
  cases op <;> rfl

theorem isError_binary (tolerance : Float) (op : BinaryOp) {v w : Value}
    (h : v.isError = true ∨ w.isError = true) : (Value.binary tolerance op v w).isError = true := by
  have hfault : (v.fault?.or w.fault?).isSome = true := by
    rw [Option.isSome_or, Bool.or_eq_true]
    exact h
  unfold Value.binary
  split
  case h_1 => rfl
  case h_2 hnone =>
    rw [hnone] at hfault
    cases hfault

/-- What a faulty formula must have as its operand: a faulty one, and if it computes, the fault
itself. -/
def Passes (entry : Coordinate → Option Value) (ctx : EvalContext) (e : Expr) : Prop :=
  (operand .builtin ctx e).Faulty entry ∧
    (e.isComputation = true → ∃ f, operand .builtin ctx e = .fault f)

theorem Passes.of_fault {e : Expr} (h : ∃ f, operand .builtin ctx e = .fault f) :
    Passes entry ctx e := by
  refine ⟨?_, fun _ => h⟩
  obtain ⟨f, hf⟩ := h
  rw [hf]
  rfl

/-- An operator is applied to values, and gives one. -/
theorem Passes.of_isError {e : Expr} {v : Value} (he : operand .builtin ctx e = .value v)
    (hv : v.isError = true) : Passes entry ctx e := by
  obtain ⟨f, rfl⟩ := Value.exists_of_isError hv
  exact .of_fault ⟨f, he⟩

mutual

/-- **A faulty formula of strict functions passes the fault on.** -/
theorem passes_of_faulty (h : ctx.source.HasEntries entry) : ∀ e : Expr,
    (∀ name ∈ e.calls, name ∉ Expr.forgiving) → e.Faulty entry → Passes entry ctx e
  | .literal v, _, hfaulty => by
    refine ⟨?_, fun hcomputation => nomatch hcomputation⟩
    rcases hfaulty with ⟨w, hw, herror⟩ | ⟨r, hr, -⟩
    · exact List.mem_singleton.mp hw ▸ herror
    · cases hr
  | .array rows, _, hfaulty => by
    refine ⟨?_, fun hcomputation => nomatch hcomputation⟩
    rcases hfaulty with hconstant | ⟨r, hr, -⟩
    · exact hconstant
    · cases hr
  | .reference r, _, hfaulty => by
    refine ⟨?_, fun hcomputation => nomatch hcomputation⟩
    rcases hfaulty with ⟨v, hv, -⟩ | ⟨r', hr, hordered, c, f, hc, hf⟩
    · cases hv
    · obtain rfl := List.mem_singleton.mp hr
      exact Operand.faulty_ofTarget hordered hc hf
  | .dynamic _ _, _, _ => .of_fault ⟨_, rfl⟩
  | .unary op e, hcalls, hfaulty => by
    have he := passes_of_faulty h e hcalls hfaulty
    exact .of_isError (by rw [operand]) (isError_unary op (EvalContext.isError_scalar h he.1))
  | .binary op a b, hcalls, hfaulty => by
    rw [Expr.calls] at hcalls
    refine .of_isError (by rw [operand]) (isError_binary _ op ?_)
    rcases Expr.faulty_or_faulty hfaulty with ha | hb
    · have hleft := passes_of_faulty h a (fun n hn => hcalls n (List.mem_append_left _ hn)) ha
      exact .inl (EvalContext.isError_scalar h hleft.1)
    · have hright := passes_of_faulty h b (fun n hn => hcalls n (List.mem_append_right _ hn)) hb
      exact .inr (EvalContext.isError_scalar h hright.1)
  | .call name args, hcalls, hfaulty => by
    rw [Expr.calls] at hcalls
    obtain ⟨a, ha, hargument⟩ := Expr.exists_faulty_of_args rfl rfl hfaulty
    have hpasses := passes_of_faulty_arg h args (fun n hn => hcalls n (List.mem_cons_of_mem _ hn))
      a ha hargument
    exact .of_fault (exists_fault_of_args (hcalls _ List.mem_cons_self) h ha hpasses.1)

theorem passes_of_faulty_arg (h : ctx.source.HasEntries entry) : ∀ args : List Expr,
    (∀ name ∈ Expr.callsOfArgs args, name ∉ Expr.forgiving) → ∀ a ∈ args, a.Faulty entry →
    Passes entry ctx a
  | [], _, a, ha, _ => by cases ha
  | arg :: args, hcalls, a, ha, hfaulty => by
    rw [Expr.callsOfArgs] at hcalls
    rcases List.mem_cons.mp ha with heq | ha
    · rw [heq] at hfaulty ⊢
      exact passes_of_faulty h arg (fun n hn => hcalls n (List.mem_append_left _ hn)) hfaulty
    · exact passes_of_faulty_arg h args (fun n hn => hcalls n (List.mem_append_right _ hn)) a ha
        hfaulty

end

end Engine

end Recalc
