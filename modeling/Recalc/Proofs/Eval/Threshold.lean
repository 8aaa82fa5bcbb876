/-
Recalc/Proofs/Eval/Threshold.lean

Large ranges.  A range with more cells than the threshold is read through the cells that
the source has, any other one cell by cell, blanks included.  A formula that searches no
range has the same value either way:

    evaluate (o.withThreshold n) e m.source = evaluate (o.withThreshold k) e m.source.

Design.  Both ways list the cells that are not blank, and list them in the same order
(`filled_cells`).  So a reader of values does not depend on the threshold as long as it
notices no blanks (`Notices`), and no aggregate does; a table is read by place, and a
place where nothing was put is blank.
-/
import Recalc.Proofs.Eval.Footprint

namespace Recalc

/-- The options with another threshold. -/
def EvalOptions.withThreshold (o : EvalOptions) (n : Nat) : EvalOptions :=
  { o with lazyRangeThreshold := n }

/-- The operand is no range, or one with its corners in order. -/
def Operand.Ordered (a : Operand) : Prop := a.Within fun _ => True

/-- The value is not blank. -/
def Value.isFilled (v : Value) : Bool := !v.isEmpty

/-! ### Formulas that search no range -/

namespace Expr

mutual

/-- The functions that a formula calls, in upper case. -/
def calls : Expr → List String
  | .call name args => Text.upperAscii name :: callsOfArgs args
  | .dynamic _ args => callsOfArgs args
  | .binary _ left right => calls left ++ calls right
  | .unary _ operand => calls operand
  | .reference _ => []
  | .literal _ => []
  | .array _ => []

/-- The functions that an argument list calls, in upper case. -/
def callsOfArgs : List Expr → List String
  | [] => []
  | arg :: args => calls arg ++ callsOfArgs args

end

/-- The names of the functions that search a range. -/
def searching : List String :=
  ["SUMIF", "SUMIFS", "COUNTIF", "AVERAGEIF", "VLOOKUP", "HLOOKUP", "MATCH"]

/-- All ranges in the formula are well-formed, and none of them is searched. -/
structure Unsearched (e : Expr) : Prop where
  wellFormed : e.WellFormed
  calls : ∀ name ∈ e.calls, name ∉ searching

theorem mem_callsOfArgs {args : List Expr} {name : String} :
    name ∈ callsOfArgs args ↔ ∃ a ∈ args, name ∈ a.calls := by
  induction args with
  | nil => simp [callsOfArgs]
  | cons a rest ih => simp [callsOfArgs, ih]

theorem Unsearched.args {name : String} {args : List Expr} (h : (Expr.call name args).Unsearched) :
    ∀ a ∈ args, a.Unsearched := by
  intro a ha
  constructor
  · intro r hr
    exact h.wellFormed r (by rw [references]; exact mem_referencesOfArgs.mpr ⟨a, ha, hr⟩)
  · intro f hf
    apply h.calls f
    rw [Expr.calls]
    exact List.mem_cons_of_mem _ (mem_callsOfArgs.mpr ⟨a, ha, hf⟩)

theorem Unsearched.left {op : BinaryOp} {a b : Expr} (h : (Expr.binary op a b).Unsearched) :
    a.Unsearched where
  wellFormed r hr := h.wellFormed r (by simp [references, hr])
  calls f hf := h.calls f (by simp [Expr.calls, hf])

theorem Unsearched.right {op : BinaryOp} {a b : Expr} (h : (Expr.binary op a b).Unsearched) :
    b.Unsearched where
  wellFormed r hr := h.wellFormed r (by simp [references, hr])
  calls f hf := h.calls f (by simp [Expr.calls, hf])

theorem Unsearched.operand {op : UnaryOp} {a : Expr} (h : (Expr.unary op a).Unsearched) :
    a.Unsearched where
  wellFormed r hr := h.wellFormed r (by rwa [references])
  calls f hf := h.calls f (by rwa [Expr.calls])

end Expr

/-! ### Readers of values -/

/-- A reader of values does not notice the values without a property. -/
def Notices {α : Type} (p : Value → Bool) (read : List Value → α) : Prop :=
  ∀ vs, read (vs.filter p) = read vs

/-- Values that change nothing in front of others are not noticed. -/
theorem Notices.of_cons {α : Type} {p : Value → Bool} {read : List Value → α}
    (hskip : ∀ v vs, p v = false → read (v :: vs) = read vs)
    (hcons : ∀ v vs ws, read vs = read ws → read (v :: vs) = read (v :: ws)) :
    Notices p read := by
  intro vs
  induction vs with
  | nil => rfl
  | cons v vs ih =>
    cases hv : p v with
    | false => rw [List.filter_cons_of_neg (by simp [hv]), hskip v vs hv, ih]
    | true => rw [List.filter_cons_of_pos hv, hcons v _ _ ih]

theorem Notices.bind {α β : Type} {p : Value → Bool} {read : List Value → Except Fault α}
    (h : Notices p read) (f : α → Except Fault β) : Notices p fun vs => read vs >>= f :=
  fun vs => congrArg (· >>= f) (h vs)

theorem Value.eq_empty_of_isFilled {v : Value} (h : v.isFilled = false) : v = .empty := by
  cases v with
  | empty => rfl
  | _ => cases h

namespace Aggregate

theorem notices_numbersAmong : Notices Value.isFilled numbersAmong := by
  apply Notices.of_cons
  · intro v vs hv
    rw [Value.eq_empty_of_isFilled hv]
    rfl
  · intro v vs ws h
    cases v <;> simp [numbersAmong, h]

theorem notices_logicalsAmong : Notices Value.isFilled logicalsAmong := by
  apply Notices.of_cons
  · intro v vs hv
    rw [Value.eq_empty_of_isFilled hv]
    rfl
  · intro v vs ws h
    cases v <;> simp [logicalsAmong, h]

theorem notices_countP {p : Value → Bool} (hp : p .empty = false) :
    Notices Value.isFilled (List.countP p) := by
  apply Notices.of_cons
  · intro v vs hv
    rw [Value.eq_empty_of_isFilled hv, List.countP_cons_of_neg (by simp [hp])]
  · intro v vs ws h
    rw [List.countP_cons, List.countP_cons, h]

/-- The text of a blank is empty. -/
theorem notices_join :
    Notices Value.isFilled fun vs => (vs.mapM Value.toText).map String.join := by
  have hcons : ∀ v vs, ((v :: vs).mapM Value.toText).map String.join =
      v.toText.bind fun s => ((vs.mapM Value.toText).map String.join).map (s ++ ·) := by
    intro v vs
    rw [List.mapM_cons]
    cases v.toText with
    | error f => rfl
    | ok s =>
      cases vs.mapM Value.toText with
      | error f => rfl
      | ok ss => exact congrArg Except.ok String.join_cons
  apply Notices.of_cons
  · intro v vs hv
    rw [Value.eq_empty_of_isFilled hv, hcons]
    cases (vs.mapM Value.toText).map String.join with
    | error f => rfl
    | ok joined => exact congrArg Except.ok String.empty_append
  · intro v vs ws h
    rw [hcons, hcons, h]

end Aggregate

variable {s : CellSource} {entry : Coordinate → Option Value} {o : EvalOptions} {n k : Nat}
  {args : List Operand}

/-! ### Values of ranges -/

namespace EvalContext

/-- **The cells that are not blank**, by walking the range. -/
theorem filled_cells (h : s.HasEntries entry) {r : CellRange} (hr : r.Ordered) (o : EvalOptions) :
    (cells ⟨s, o⟩ r).filter (·.2.isFilled) =
      (r.cells.map fun c => (c, s.value c)).filter (·.2.isFilled) := by
  rw [cells]
  split
  · -- a cell without an entry is blank
    show (s.boundIn r).filter _ = _
    rw [h.boundIn_eq_filter hr, List.filter_filter]
    apply List.filter_congr
    intro e he
    obtain ⟨c, -, rfl⟩ := List.mem_map.mp he
    cases hc : entry c with
    | none => simp [h.value_of_none hc, Value.isFilled, Value.isEmpty]
    | some v => simp
  · rfl

theorem value_of_mem_cells (h : s.HasEntries entry) {r : CellRange} {e : Coordinate × Value}
    (he : e ∈ cells ⟨s, o⟩ r) : e.2 = s.value e.1 := by
  rw [cells] at he
  split at he
  · rw [h.value, ((h.mem r e.1 e.2).mp he).2]
    rfl
  · obtain ⟨c, -, rfl⟩ := List.mem_map.mp he
    rfl

/-- A cell of a range that is not listed is blank. -/
theorem value_of_not_mem_cells (h : s.HasEntries entry) {r : CellRange} (hr : r.Ordered)
    {c : Coordinate} (hc : r.contains c = true) (hnot : c ∉ (cells ⟨s, o⟩ r).map Prod.fst) :
    s.value c = .empty := by
  apply Value.eq_empty_of_isFilled
  apply Bool.eq_false_iff.mpr
  intro hfilled
  have hwalk : (c, s.value c) ∈ (r.cells.map fun c => (c, s.value c)).filter (·.2.isFilled) :=
    List.mem_filter.mpr ⟨List.mem_map.mpr ⟨c, (CellRange.mem_cells_iff hr).mpr hc, rfl⟩, hfilled⟩
  rw [← filled_cells h hr o] at hwalk
  exact hnot (List.mem_map.mpr ⟨_, List.mem_of_mem_filter hwalk, rfl⟩)

theorem filled_values (h : s.HasEntries entry) {a : Operand} (ha : a.Ordered) :
    (values ⟨s, o.withThreshold n⟩ a).filter Value.isFilled =
      (values ⟨s, o.withThreshold k⟩ a).filter Value.isFilled := by
  cases a with
  | value v => rfl
  | cell c => rfl
  | array rows => rfl
  | range r =>
    have hsnd : (fun e : Coordinate × Value => e.2.isFilled) = Value.isFilled ∘ Prod.snd := rfl
    rw [values, values, List.filter_map, List.filter_map, ← hsnd, filled_cells h ha.1,
      filled_cells h ha.1]

/-- A reader that notices no blanks reads the values of an operand alike. -/
theorem read_values (h : s.HasEntries entry) {a : Operand} (ha : a.Ordered) {α : Type}
    {read : List Value → α} (hread : Notices Value.isFilled read) :
    read (values ⟨s, o.withThreshold n⟩ a) = read (values ⟨s, o.withThreshold k⟩ a) := by
  rw [← hread, filled_values h ha, hread]

theorem read_flatMap_values (h : s.HasEntries entry) (hargs : ∀ a ∈ args, a.Ordered) {α : Type}
    {read : List Value → α} (hread : Notices Value.isFilled read) :
    read (args.flatMap (values ⟨s, o.withThreshold n⟩)) =
      read (args.flatMap (values ⟨s, o.withThreshold k⟩)) := by
  rw [← hread, List.filter_flatMap, List.flatMap_congr fun a ha => filled_values h (hargs a ha),
    ← List.filter_flatMap, hread]

end EvalContext

open EvalContext

/-! ### Aggregates -/

namespace Aggregate

theorem numbersOf_threshold (h : s.HasEntries entry) {a : Operand} (ha : a.Ordered) :
    numbersOf ⟨s, o.withThreshold n⟩ a = numbersOf ⟨s, o.withThreshold k⟩ a := by
  cases a with
  | value v => cases v <;> rfl
  | cell c => rfl
  | array rows => rfl
  | range r => exact read_values h ha notices_numbersAmong

theorem logicalsOf_threshold (h : s.HasEntries entry) {a : Operand} (ha : a.Ordered) :
    logicalsOf ⟨s, o.withThreshold n⟩ a = logicalsOf ⟨s, o.withThreshold k⟩ a := by
  cases a with
  | value v => cases v <;> rfl
  | cell c => rfl
  | array rows => rfl
  | range r => exact read_values h ha notices_logicalsAmong

theorem countOf_threshold (h : s.HasEntries entry) {a : Operand} (ha : a.Ordered) :
    countOf ⟨s, o.withThreshold n⟩ a = countOf ⟨s, o.withThreshold k⟩ a := by
  cases a with
  | value v => cases v <;> rfl
  | cell c => rfl
  | array rows => rfl
  | range r => exact read_values h ha (notices_countP rfl)

theorem numbers_threshold (h : s.HasEntries entry) (hargs : ∀ a ∈ args, a.Ordered) :
    numbers ⟨s, o.withThreshold n⟩ args = numbers ⟨s, o.withThreshold k⟩ args := by
  rw [numbers, numbers, mapM_congr fun a ha => numbersOf_threshold h (hargs a ha)]

theorem logicals_threshold (h : s.HasEntries entry) (hargs : ∀ a ∈ args, a.Ordered) :
    logicals ⟨s, o.withThreshold n⟩ args = logicals ⟨s, o.withThreshold k⟩ args := by
  rw [logicals, logicals, mapM_congr fun a ha => logicalsOf_threshold h (hargs a ha)]

theorem count_threshold (h : s.HasEntries entry) (hargs : ∀ a ∈ args, a.Ordered) :
    count ⟨s, o.withThreshold n⟩ args = count ⟨s, o.withThreshold k⟩ args := by
  rw [count, count, List.map_congr_left fun a ha => countOf_threshold h (hargs a ha)]

theorem countFilled_threshold (h : s.HasEntries entry) (hargs : ∀ a ∈ args, a.Ordered) :
    countFilled ⟨s, o.withThreshold n⟩ args = countFilled ⟨s, o.withThreshold k⟩ args := by
  have hread := read_flatMap_values (o := o) (n := n) (k := k) h hargs
    (notices_countP (p := fun v => !v.isEmpty) rfl)
  rw [countFilled, countFilled, hread]

theorem join_threshold (h : s.HasEntries entry) (hargs : ∀ a ∈ args, a.Ordered) :
    join ⟨s, o.withThreshold n⟩ args = join ⟨s, o.withThreshold k⟩ args := by
  have hjoin (ctx : EvalContext) : join ctx args =
      (((args.flatMap ctx.values).mapM Value.toText).map String.join).map Value.text := by
    rw [join]
    cases (args.flatMap ctx.values).mapM Value.toText <;> rfl
  have hread := read_flatMap_values (o := o) (n := n) (k := k) h hargs notices_join
  rw [hjoin, hjoin, hread]

end Aggregate

/-! ### Tables -/

namespace Table

/-- Tables of one height and one width with the same values. -/
structure Agree (t t' : Table) : Prop where
  height : t.height = t'.height
  width : t.width = t'.width
  get : ∀ i j, i < t.height → j < t.width → t.get i j = t'.get i j

theorem Agree.refl (t : Table) : t.Agree t := ⟨rfl, rfl, fun _ _ _ _ => rfl⟩

/-- Blanks behind an array are as good as nothing. -/
theorem getD_append_replicate {α : Type} (xs : Array α) (k i : Nat) (blank : α) :
    (xs ++ Array.replicate k blank)[i]?.getD blank = xs[i]?.getD blank := by
  rw [Array.getElem?_append, Array.getElem?_replicate]
  split
  · rfl
  · rename_i hi
    rw [Array.getElem?_eq_none (Nat.le_of_not_lt hi)]
    split <;> rfl

theorem get_eq (t : Table) (i j : Nat) : t.get i j = (t.rows[i]?.getD #[])[j]?.getD .empty := by
  rw [get]
  cases t.rows[i]? <;> rfl

theorem getD_put (rows : Array (Array Value)) (row column i : Nat) (v : Value) :
    (put rows row column v)[i]?.getD #[] =
      if i = row then
        ((rows[row]?.getD #[]) ++ Array.replicate (column + 1 - (rows[row]?.getD #[]).size)
          Value.empty).setIfInBounds column v
      else rows[i]?.getD #[] := by
  rw [put, Array.getElem?_modify]
  by_cases hi : i = row
  · subst hi
    -- the row is there once the table has been extended
    have hsome : (rows ++ Array.replicate (i + 1 - rows.size) #[])[i]? =
        some (rows[i]?.getD #[]) := by
      rw [← getD_append_replicate rows (i + 1 - rows.size) i #[],
        Array.getElem?_eq_getElem (by simp; omega)]
      rfl
    rw [if_pos rfl, if_pos rfl, hsome]
    rfl
  · rw [if_neg (Ne.symm hi), if_neg hi, getD_append_replicate]

/-- The value put at a place is found there, and other places are as before. -/
theorem get_put (height width : Nat) (rows : Array (Array Value)) (row column i j : Nat)
    (v : Value) :
    get ⟨height, width, put rows row column v⟩ i j =
      if i = row ∧ j = column then v else get ⟨height, width, rows⟩ i j := by
  rw [get_eq, get_eq, getD_put]
  by_cases hi : i = row
  · subst hi
    rw [if_pos rfl, Array.getElem?_setIfInBounds]
    by_cases hj : column = j
    · subst hj
      rw [if_pos rfl, if_pos (by simp; omega), if_pos ⟨rfl, rfl⟩]
      rfl
    · rw [if_neg hj, if_neg (fun h => hj h.2.symm), getD_append_replicate]
  · rw [if_neg hi, if_neg fun h => hi h.1]

/-- Put a cell of a range at its place. -/
def place (r : CellRange) (rows : Array (Array Value)) (cell : Coordinate × Value) :
    Array (Array Value) :=
  match r.offset? cell.1 with
  | some (row, column) => put rows row column cell.2
  | none => rows

theorem ofOperand_range (ctx : EvalContext) (r : CellRange) :
    ofOperand ctx (.range r) = ⟨r.rows, r.columns, (ctx.cells r).foldl (place r) #[]⟩ := rfl

theorem get_place {r : CellRange} {e : Coordinate × Value} {i j : Nat}
    (hc : r.contains (CellRange.shift r.first i j) = true) (rows : Array (Array Value)) :
    get ⟨r.rows, r.columns, place r rows e⟩ i j =
      if CellRange.shift r.first i j = e.1 then e.2 else get ⟨r.rows, r.columns, rows⟩ i j := by
  have hoffset : r.offset? e.1 = some (i, j) ↔ CellRange.shift r.first i j = e.1 := by
    rw [CellRange.offset?_eq_some_iff]
    constructor
    · exact fun h => h.2.symm
    · exact fun h => ⟨h ▸ hc, h.symm⟩
  rw [place]
  cases hplace : r.offset? e.1 with
  | none =>
    rw [if_neg]
    intro heq
    rw [hoffset.mpr heq] at hplace
    cases hplace
  | some offset =>
    obtain ⟨row, column⟩ := offset
    show get ⟨_, _, put rows row column e.2⟩ i j = _
    rw [get_put]
    refine if_congr ?_ rfl rfl
    rw [← hoffset, hplace, Option.some.injEq, Prod.mk.injEq, eq_comm, @eq_comm _ j]

/-- Cells that were put are found at their places. -/
theorem get_foldl_place {r : CellRange} {cells : List (Coordinate × Value)}
    (hvalue : ∀ e ∈ cells, e.2 = s.value e.1) {i j : Nat}
    (hc : r.contains (CellRange.shift r.first i j) = true) (rows : Array (Array Value)) :
    get ⟨r.rows, r.columns, cells.foldl (place r) rows⟩ i j =
      if CellRange.shift r.first i j ∈ cells.map Prod.fst then
        s.value (CellRange.shift r.first i j)
      else get ⟨r.rows, r.columns, rows⟩ i j := by
  induction cells generalizing rows with
  | nil => rfl
  | cons e cells ih =>
    rw [List.foldl_cons, ih (fun e he => hvalue e (List.mem_cons_of_mem _ he)), get_place hc,
      List.map_cons]
    by_cases hmem : CellRange.shift r.first i j ∈ cells.map Prod.fst
    · rw [if_pos hmem, if_pos (List.mem_cons_of_mem _ hmem)]
    · rw [if_neg hmem]
      by_cases heq : CellRange.shift r.first i j = e.1
      · rw [if_pos heq, if_pos (heq ▸ List.mem_cons_self), heq]
        exact hvalue e List.mem_cons_self
      · rw [if_neg heq, if_neg]
        exact fun h => (List.mem_cons.mp h).elim heq hmem

/-- **A table of a range has the values of its cells**, whichever of them were put. -/
theorem get_ofOperand_range (h : s.HasEntries entry) {r : CellRange} (hr : r.Ordered)
    (o : EvalOptions) {i j : Nat} (hi : i < r.rows) (hj : j < r.columns) :
    (ofOperand ⟨s, o⟩ (.range r)).get i j = s.value (CellRange.shift r.first i j) := by
  have hc := CellRange.contains_shift hr hi hj
  rw [ofOperand_range, get_foldl_place (fun e he => value_of_mem_cells h he) hc]
  split
  · rfl
  · rename_i hnone
    rw [value_of_not_mem_cells h hr hc hnone]
    rfl

theorem ofOperand_threshold (h : s.HasEntries entry) {a : Operand} (ha : a.Ordered) :
    (ofOperand ⟨s, o.withThreshold n⟩ a).Agree (ofOperand ⟨s, o.withThreshold k⟩ a) := by
  cases a with
  | value v => exact .refl _
  | cell c => exact .refl _
  | array rows => exact .refl _
  | range r =>
    refine ⟨rfl, rfl, ?_⟩
    intro i j hi hj
    rw [get_ofOperand_range h ha.1 _ hi hj, get_ofOperand_range h ha.1 _ hi hj]

end Table

namespace Lookup

theorem tableArg_threshold (h : s.HasEntries entry) (hargs : ∀ a ∈ args, a.Ordered) (i : Nat) :
    (tableArg ⟨s, o.withThreshold n⟩ args i).Agree (tableArg ⟨s, o.withThreshold k⟩ args i) := by
  rw [tableArg, tableArg]
  cases ha : args[i]? with
  | none => exact .refl _
  | some a => exact Table.ofOperand_threshold h (hargs a (List.mem_of_getElem? ha))

/-- A place in a table is looked up only if the table has it. -/
theorem index_threshold (h : s.HasEntries entry) (hargs : ∀ a ∈ args, a.Ordered) :
    index ⟨s, o.withThreshold n⟩ args = index ⟨s, o.withThreshold k⟩ args := by
  obtain ⟨hheight, hwidth, hget⟩ := tableArg_threshold (o := o) (n := n) (k := k) h hargs 0
  have hindices : indices (tableArg ⟨s, o.withThreshold n⟩ args 0) =
      indices (tableArg ⟨s, o.withThreshold k⟩ args 0) := by
    funext alone first second
    rw [indices, indices, hheight, hwidth]
  rw [index, index, hindices, hheight, hwidth]
  refine bind_congr fun first => bind_congr fun second => if_congr Iff.rfl rfl ?_
  obtain ⟨row, column⟩ := indices (tableArg ⟨s, o.withThreshold k⟩ args 0) (args.length == 2)
    (Binary64.clampNat (Binary64.trunc first)) (Binary64.clampNat (Binary64.trunc second))
  dsimp only
  refine if_ctx_congr Iff.rfl (fun _ => rfl) fun hpos => ?_
  refine if_ctx_congr Iff.rfl (fun _ => rfl) fun hin => ?_
  rw [hget (row - 1) (column - 1) (by omega) (by omega)]

end Lookup

/-! ### All functions -/

/-- The functions that search a range for some of its cells. -/
def Builtin.searching : List Builtin :=
  [.sumif, .sumifs, .countif, .averageif, .vlookup, .hlookup, .lookupMatch]

theorem Builtin.apply_threshold (h : s.HasEntries entry) (hargs : ∀ a ∈ args, a.Ordered)
    {body : Builtin} (hbody : body ∉ Builtin.searching) :
    body.apply ⟨s, o.withThreshold n⟩ args = body.apply ⟨s, o.withThreshold k⟩ args := by
  cases body
  case sum => simp only [apply, Aggregate.sum, Aggregate.numbers_threshold h hargs (k := k)]
  case product =>
    simp only [apply, Aggregate.product, Aggregate.numbers_threshold h hargs (k := k)]
  case average =>
    simp only [apply, Aggregate.average, Aggregate.numbers_threshold h hargs (k := k)]
  case max => simp only [apply, Aggregate.best, Aggregate.numbers_threshold h hargs (k := k)]
  case min => simp only [apply, Aggregate.best, Aggregate.numbers_threshold h hargs (k := k)]
  case and => simp only [apply, Aggregate.all, Aggregate.logicals_threshold h hargs (k := k)]
  case or => simp only [apply, Aggregate.any, Aggregate.logicals_threshold h hargs (k := k)]
  case count => exact congrArg Except.ok (Aggregate.count_threshold h hargs)
  case counta => exact congrArg Except.ok (Aggregate.countFilled_threshold h hargs)
  case concat => exact Aggregate.join_threshold h hargs
  case index => exact Lookup.index_threshold h hargs
  case sumif | sumifs | countif | averageif | vlookup | hlookup | lookupMatch =>
    exact absurd (by decide) hbody
  -- all others take single values
  all_goals rfl

/-! ### Formulas -/

namespace Engine

theorem operand_ordered {functions : Registry} {ctx : EvalContext} {e : Expr}
    (h : e.WellFormed) : (operand functions ctx e).Ordered :=
  (operand_isOf e).within h fun _ _ _ _ => trivial

/-- The functions that search a range are those of the names. -/
theorem searching_of_mem_builtins : ∀ f ∈ FunctionSpec.builtins, ∀ body ∈ Builtin.searching,
    f.kind = .eager body → Text.upperAscii f.name ∈ Expr.searching := by
  decide

/-- A call whose arguments evaluate alike evaluates alike. -/
theorem operand_call_threshold (h : s.HasEntries entry) {name : String} {args : List Expr}
    (he : (Expr.call name args).Unsearched)
    (hall : operands .builtin ⟨s, o.withThreshold n⟩ args =
      operands .builtin ⟨s, o.withThreshold k⟩ args)
    (hat : ∀ i, operandAt .builtin ⟨s, o.withThreshold n⟩ args i =
      operandAt .builtin ⟨s, o.withThreshold k⟩ args i) :
    operand .builtin ⟨s, o.withThreshold n⟩ (.call name args) =
      operand .builtin ⟨s, o.withThreshold k⟩ (.call name args) := by
  have hscalar : scalar ⟨s, o.withThreshold n⟩ = scalar ⟨s, o.withThreshold k⟩ := rfl
  simp only [operand, hat, hscalar, hall]
  cases hfind : Registry.builtin.find? name with
  | none => rfl
  | some f =>
    dsimp only
    split
    case isTrue => rfl
    case isFalse =>
      cases hkind : f.kind with
      | dynamic => rfl
      | conditional => rfl
      | eager body =>
        obtain ⟨hmem, hname⟩ := Registry.mem_of_find?_builtin hfind
        have hbody : body ∉ Builtin.searching := by
          intro hbody
          have hsearch := searching_of_mem_builtins f hmem body hbody hkind
          rw [hname] at hsearch
          exact he.calls _ (by rw [Expr.calls]; exact List.mem_cons_self) hsearch
        have hordered : ∀ a ∈ operands .builtin ⟨s, o.withThreshold k⟩ args, a.Ordered := by
          intro a ha
          rw [operands_eq_map] at ha
          obtain ⟨e, hmem, rfl⟩ := List.mem_map.mp ha
          exact operand_ordered (he.args e hmem).wellFormed
        dsimp only
        rw [FunctionSpec.applyTo, FunctionSpec.applyTo, Builtin.apply_threshold h hordered hbody]

mutual

/-- **A formula that searches no range evaluates alike at every threshold.** -/
theorem operand_threshold (h : s.HasEntries entry) : ∀ e : Expr, e.Unsearched →
    operand .builtin ⟨s, o.withThreshold n⟩ e = operand .builtin ⟨s, o.withThreshold k⟩ e
  | .literal _, _ => rfl
  | .array _, _ => rfl
  | .reference _, _ => rfl
  | .dynamic _ _, _ => rfl
  | .unary op e, he => by
    rw [operand, operand, operand_threshold h e he.operand]
    rfl
  | .binary op a b, he => by
    rw [operand, operand, operand_threshold h a he.left, operand_threshold h b he.right]
    rfl
  | .call name args, he =>
    operand_call_threshold h he (operands_threshold h args he.args)
      (operandAt_threshold h args he.args)

theorem operands_threshold (h : s.HasEntries entry) : ∀ args : List Expr,
    (∀ a ∈ args, a.Unsearched) →
    operands .builtin ⟨s, o.withThreshold n⟩ args = operands .builtin ⟨s, o.withThreshold k⟩ args
  | [], _ => rfl
  | arg :: args, hargs => by
    rw [operands, operands, operand_threshold h arg (hargs arg List.mem_cons_self),
      operands_threshold h args fun a ha => hargs a (List.mem_cons_of_mem _ ha)]

theorem operandAt_threshold (h : s.HasEntries entry) : ∀ args : List Expr,
    (∀ a ∈ args, a.Unsearched) → ∀ i,
    operandAt .builtin ⟨s, o.withThreshold n⟩ args i =
      operandAt .builtin ⟨s, o.withThreshold k⟩ args i
  | [], _, _ => rfl
  | arg :: _, hargs, 0 => operand_threshold h arg (hargs arg List.mem_cons_self)
  | _ :: args, hargs, i + 1 =>
    operandAt_threshold h args (fun a ha => hargs a (List.mem_cons_of_mem _ ha)) i

end

/-- **The threshold does not matter to a formula that searches no range.** -/
theorem evaluate_threshold (names : NameTable) (options : EvalOptions) (m : CellMap) (n k : Nat)
    {e : Expr} (he : e.Unsearched) :
    (Engine.mk names .builtin (options.withThreshold n)).evaluate e m.source =
      (Engine.mk names .builtin (options.withThreshold k)).evaluate e m.source := by
  rw [evaluate, evaluate]
  dsimp only
  rw [operand_threshold m.hasEntries e he]
  rfl

/-- The sum of three cells and of one of them again: `SUM(A1:A3, INDEX(A1:A3, 2))`. -/
def indexedSum : Expr :=
  let column : Expr := .reference ⟨.range ⟨⟨"S", 1, 1⟩, ⟨"S", 1, 3⟩⟩, none⟩
  .call "SUM" [column, .call "INDEX" [column, .literal (.number 2.0)]]

theorem unsearched_indexedSum : indexedSum.Unsearched where
  wellFormed r hr := by
    simp only [indexedSum, Expr.references, Expr.referencesOfArgs, List.append_nil,
      List.singleton_append, List.mem_cons, List.not_mem_nil, or_false, or_self] at hr
    subst hr
    exact ⟨rfl, by decide, by decide⟩
  calls := by decide

/-- A number, a cell that is there and blank, and no third cell. -/
def sparseCells : CellMap := .ofList [(⟨"S", 1, 1⟩, .number 1.0), (⟨"S", 1, 2⟩, .empty)]

theorem evaluate_indexedSum : indexedSum.Unsearched ∧
    (Engine.mk plain.names .builtin (EvalOptions.standard.withThreshold 0)).evaluate indexedSum
        sparseCells.source =
      (Engine.mk plain.names .builtin (EvalOptions.standard.withThreshold 4096)).evaluate indexedSum
        sparseCells.source :=
  ⟨unsearched_indexedSum, evaluate_threshold _ _ _ 0 4096 unsearched_indexedSum⟩

end Engine

end Recalc
