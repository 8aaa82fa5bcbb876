/-
Recalc/Proofs/Eval/Values.lean

Where values come from.  An operand stands for values that it brings along, or for cells of
the source.  So a property of both that blanks and value faults have as well is one of
whatever is read from operands: single values, all values, tables, and the cells that
criteria select.
-/
import Recalc.Eval.Engine

namespace Recalc

/-- All values of the source have the property. -/
structure CellSource.All (P : Value → Prop) (s : CellSource) : Prop where
  value : ∀ c, P (s.value c)
  boundIn : ∀ r, ∀ p ∈ s.boundIn r, P p.2

/-- The values that the operand brings along have the property. -/
def Operand.All (P : Value → Prop) : Operand → Prop
  | .value v => P v
  | .array rows => ∀ row ∈ rows, ∀ v ∈ row, P v
  | .cell _ => True
  | .range _ => True

/-- All values of the table have the property. -/
def Table.All (P : Value → Prop) (t : Table) : Prop := ∀ row ∈ t.rows, ∀ v ∈ row, P v

theorem Operand.all_ofTarget {P : Value → Prop} (t : Target) : (Operand.ofTarget t).All P := by
  cases t <;> trivial

variable {P : Value → Prop} {ctx : EvalContext} {a : Operand} {args : List Operand}

/-! ### Values -/

namespace EvalContext

theorem all_cells (hs : ctx.source.All P) (r : CellRange) : ∀ p ∈ ctx.cells r, P p.2 := by
  unfold cells
  split
  · exact hs.boundIn r
  · intro p hp
    obtain ⟨c, -, rfl⟩ := List.mem_map.mp hp
    exact hs.value c

theorem all_values (hs : ctx.source.All P) (ha : a.All P) : ∀ v ∈ ctx.values a, P v := by
  cases a with
  | value v => exact fun w hw => List.mem_singleton.mp hw ▸ ha
  | cell c => exact fun w hw => List.mem_singleton.mp hw ▸ hs.value c
  | range r =>
    intro w hw
    obtain ⟨p, hp, rfl⟩ := List.mem_map.mp hw
    exact all_cells hs r p hp
  | array rows =>
    intro w hw
    obtain ⟨row, hrow, hmem⟩ := List.mem_flatten.mp hw
    exact ha row hrow w hmem

variable (hfault : P (.error .value))
include hfault

theorem all_scalar (hs : ctx.source.All P) (ha : a.All P) : P (ctx.scalar a) := by
  unfold scalar
  split
  case h_1 v => exact ha
  case h_2 c => exact hs.value c
  case h_3 r =>
    split
    · exact hs.value _
    · exact hfault
  case h_4 v => exact ha [v] List.mem_cons_self v List.mem_cons_self
  case h_5 => exact hfault

theorem all_topLeft (hs : ctx.source.All P) (ha : a.All P) : P (ctx.topLeft a) := by
  unfold topLeft
  split
  case h_1 v => exact ha
  case h_2 c => exact hs.value c
  case h_3 r => exact hs.value _
  case h_4 v row rows => exact ha _ List.mem_cons_self v List.mem_cons_self
  case h_5 => exact hfault

theorem all_scalarArg (hempty : P .empty) (hs : ctx.source.All P) (hargs : ∀ a ∈ args, a.All P)
    (i : Nat) : P ((args[i]?.map ctx.scalar).getD .empty) := by
  cases ha : args[i]? with
  | none => exact hempty
  | some a => exact all_scalar hfault hs (hargs a (List.mem_of_getElem? ha))

end EvalContext

/-! ### Tables -/

namespace Table

variable (hempty : P .empty)

theorem all_single {v : Value} (hv : P v) : (single v).All P := by
  intro row hrow w hw
  obtain rfl := Array.mem_singleton.mp hrow
  exact Array.mem_singleton.mp hw ▸ hv

include hempty

theorem all_put {rows : Array (Array Value)} (h : ∀ row ∈ rows, ∀ v ∈ row, P v)
    (row column : Nat) {v : Value} (hv : P v) : ∀ r ∈ put rows row column v, ∀ w ∈ r, P w := by
  -- the rows there are, and blank ones
  have hrows : ∀ r ∈ rows ++ Array.replicate (row + 1 - rows.size) #[], ∀ w ∈ r, P w := by
    intro r hr w hw
    rcases Array.mem_append.mp hr with hr | hr
    · exact h r hr w hw
    · rw [Array.eq_of_mem_replicate hr] at hw
      cases Array.not_mem_empty _ hw
  unfold put
  intro r hr w hw
  obtain ⟨i, hi, rfl⟩ := Array.mem_iff_getElem.mp hr
  rw [Array.getElem_modify] at hw
  split at hw
  · rcases Array.mem_or_eq_of_mem_setIfInBounds hw with hw | rfl
    · rcases Array.mem_append.mp hw with hw | hw
      · exact hrows _ (Array.getElem_mem _) w hw
      · exact Array.eq_of_mem_replicate hw ▸ hempty
    · exact hv
  · exact hrows _ (Array.getElem_mem _) w hw

theorem all_ofOperand (hs : ctx.source.All P) (ha : a.All P) : (ofOperand ctx a).All P := by
  cases a with
  | value v => exact all_single ha
  | cell c => exact all_single (hs.value c)
  | array rows =>
    intro row hrow v hv
    have hmem : row ∈ rows.map List.toArray := by simpa [ofOperand] using hrow
    obtain ⟨cells, hcells, rfl⟩ := List.mem_map.mp hmem
    exact ha cells hcells v (List.mem_toArray.mp hv)
  | range r =>
    -- each cell read is put at its place in what is there already
    have hplaced {place : Array (Array Value) → Coordinate × Value → Array (Array Value)}
        (hplace : ∀ rows p, (∀ row ∈ rows, ∀ v ∈ row, P v) → P p.2 →
          ∀ row ∈ place rows p, ∀ v ∈ row, P v)
        {ps : List (Coordinate × Value)} (hps : ∀ p ∈ ps, P p.2) {rows : Array (Array Value)}
        (hrows : ∀ row ∈ rows, ∀ v ∈ row, P v) :
        ∀ row ∈ ps.foldl place rows, ∀ v ∈ row, P v := by
      induction ps generalizing rows with
      | nil => exact hrows
      | cons p ps ih =>
        exact ih (fun p hp => hps p (List.mem_cons_of_mem _ hp))
          (hplace rows p hrows (hps p List.mem_cons_self))
    refine hplaced (fun rows p hrows hp => ?_) (EvalContext.all_cells hs r) (by simp)
    split
    · exact all_put hempty hrows _ _ hp
    · exact hrows

theorem all_get {t : Table} (h : t.All P) (row column : Nat) : P (t.get row column) := by
  unfold get
  cases hrow : t.rows[row]? with
  | none => exact hempty
  | some cells =>
    rw [Option.bind_some]
    cases hcell : cells[column]? with
    | none => exact hempty
    | some v => exact h cells (Array.mem_of_getElem? hrow) v (Array.mem_of_getElem? hcell)

theorem all_tableArg (hs : ctx.source.All P) (hargs : ∀ a ∈ args, a.All P) (i : Nat) :
    (Lookup.tableArg ctx args i).All P := by
  unfold Lookup.tableArg
  split
  case h_1 a ha => exact all_ofOperand hempty hs (hargs a (List.mem_of_getElem? ha))
  case h_2 => exact all_single hempty

end Table

/-! ### Criteria -/

/-- What is selected are values of cells. -/
theorem Conditional.all_matchAt (hs : ctx.source.All P) {lead : Condition}
    {others : List Condition} {target : CellRange} {cells : List (Coordinate × Value)} :
    ∀ v ∈ cells.filterMap (matchAt ctx lead others target), P v := by
  intro v hv
  obtain ⟨cell, -, hcell⟩ := List.mem_filterMap.mp hv
  unfold matchAt at hcell
  split at hcell
  · split at hcell
    · split at hcell
      · exact Option.some.inj hcell ▸ hs.value _
      · cases hcell
    · cases hcell
  · cases hcell

end Recalc
