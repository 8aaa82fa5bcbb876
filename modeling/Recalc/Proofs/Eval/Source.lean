/-
Recalc/Proofs/Eval/Source.lean

Sources that agree on some cells.  A source is asked for the value of a cell and for the
cells of a range.  Two maps, or two bindings, that have the same entries for the cells of
a set `P` answer both questions alike, as long as the cell or the whole range is in `P`:

    (∀ c, P c → b.get? c = b'.get? c) → b.source.AgreeOn P b'.source.

Design.  The cells of a range are a list, but an ordered one without repeated cells, so
it is known from its members; agreement therefore needs entries only and no order.  For
the same reason the cells that a source has in a range are the cells of the range, walked
row by row, without those that have no entry (`HasEntries.boundIn_eq_filter`).
-/
import Recalc.Eval.Binding
import Recalc.Proofs.Cell.Range
import Mathlib.Data.List.Perm.Basic

namespace Recalc

/-- The sources answer alike about the cells of a set. -/
structure CellSource.AgreeOn (P : Coordinate → Prop) (s t : CellSource) : Prop where
  value : ∀ c, P c → s.value c = t.value c
  boundIn : ∀ r : CellRange, (∀ c, r.contains c = true → P c) → s.boundIn r = t.boundIn r

/-! ### Maps -/

namespace CellMap

variable {m m' : CellMap} {c : Coordinate} {v : Value}

/-- Entries that stand in the order of their cells are known from their members. -/
theorem eq_of_mem_iff {l l' : List (Coordinate × Value)}
    (h : l.Pairwise fun a b => compare a.1 b.1 = .lt)
    (h' : l'.Pairwise fun a b => compare a.1 b.1 = .lt) (hmem : ∀ e, e ∈ l ↔ e ∈ l') :
    l = l' := by
  have irrefl (a b : Coordinate × Value) (hab : compare a.1 b.1 = .lt) : a ≠ b := by
    rintro rfl
    exact Std.OrientedCmp.not_lt_of_lt hab hab
  refine List.Perm.eq_of_pairwise (fun a b _ _ hab hba => ?_) h h' ?_
  · exact absurd hba (Std.OrientedCmp.not_lt_of_lt hab)
  · exact (List.perm_ext_iff_of_nodup (h.imp (irrefl _ _)) (h'.imp (irrefl _ _))).mpr hmem

theorem pairwise_boundIn (m : CellMap) (r : CellRange) :
    (m.boundIn r).Pairwise fun a b => compare a.1 b.1 = .lt := r.pairwise_entries m

theorem mem_boundIn {r : CellRange} :
    (c, v) ∈ m.boundIn r ↔ r.contains c = true ∧ m[c]? = some v := CellRange.mem_entries

/-- Maps with the same entries in a set agree there. -/
theorem agreeOn {P : Coordinate → Prop} (h : ∀ c, P c → m[c]? = m'[c]?) :
    m.source.AgreeOn P m'.source where
  value c hc := by
    show m[c]?.getD .empty = m'[c]?.getD .empty
    rw [h c hc]
  boundIn r hr := by
    refine eq_of_mem_iff (m.pairwise_boundIn r) (m'.pairwise_boundIn r) fun ⟨c, v⟩ => ?_
    refine mem_boundIn.trans (Iff.trans ?_ mem_boundIn.symm)
    exact and_congr_right fun hc => by rw [h c (hr c hc)]

/-! ### Maps of lists -/

/-- An entry for another cell leaves the lookup as it is. -/
theorem getElem?_insert_of_ne {d : Coordinate} (h : d ≠ c) (v : Value) :
    (m.insert d v)[c]? = m[c]? := by
  rw [Std.TreeMap.getElem?_insert, if_neg]
  exact fun heq => h (Std.LawfulEqCmp.compare_eq_iff_eq.mp heq)

/-- Entries for other cells leave the lookup as it is. -/
theorem getElem?_foldl_insert_of_not_mem {l : List (Coordinate × Value)}
    (h : ∀ v, (c, v) ∉ l) (m : CellMap) :
    (l.foldl (fun m (c, v) => m.insert c v) m)[c]? = m[c]? := by
  induction l generalizing m with
  | nil => rfl
  | cons e rest ih =>
    obtain ⟨d, w⟩ := e
    rw [List.foldl_cons, ih fun v hv => h v (List.mem_cons_of_mem _ hv)]
    refine getElem?_insert_of_ne (fun hd => h w ?_) w
    rw [← hd]
    exact List.mem_cons_self

/-- The only value that a list has for a cell is the one found. -/
theorem getElem?_foldl_insert_of_mem {l : List (Coordinate × Value)} (hmem : (c, v) ∈ l)
    (hunique : ∀ w, (c, w) ∈ l → w = v) (m : CellMap) :
    (l.foldl (fun m (c, v) => m.insert c v) m)[c]? = some v := by
  induction l generalizing m with
  | nil => exact absurd hmem List.not_mem_nil
  | cons e rest ih =>
    rw [List.foldl_cons]
    by_cases hrest : ∃ w, (c, w) ∈ rest
    · obtain ⟨w, hw⟩ := hrest
      obtain rfl := hunique w (List.mem_cons_of_mem _ hw)
      exact ih hw (fun w hw => hunique w (List.mem_cons_of_mem _ hw)) _
    · -- the last entry for the cell is the first of the list
      rw [getElem?_foldl_insert_of_not_mem fun w hw => hrest ⟨w, hw⟩]
      rcases List.mem_cons.mp hmem with rfl | hmem
      · exact Std.TreeMap.getElem?_insert_self
      · exact absurd ⟨v, hmem⟩ hrest

/-- **A list laid over a map**: its entry for a cell is found, and else that of the map. -/
theorem getElem?_foldl_insert {l : List (Coordinate × Value)} {entry : Option Value}
    (h : ∀ v, (c, v) ∈ l ↔ entry = some v) (m : CellMap) :
    (l.foldl (fun m (c, v) => m.insert c v) m)[c]? = entry.or m[c]? := by
  cases entry with
  | none =>
    rw [Option.none_or]
    exact getElem?_foldl_insert_of_not_mem (fun v hv => absurd ((h v).mp hv) (by simp)) m
  | some v =>
    rw [Option.some_or]
    exact getElem?_foldl_insert_of_mem ((h v).mpr rfl)
      (fun w hw => (Option.some.inj ((h w).mp hw)).symm) m

end CellMap

/-! ### Bindings -/

namespace Binding

variable {b b' : Binding} {c : Coordinate} {v : Value}

/-- The entry for a cell, of the upper layer if it has one. -/
def get? (b : Binding) (c : Coordinate) : Option Value := b.own[c]?.or b.constants[c]?

theorem value_eq (b : Binding) (c : Coordinate) : b.value c = (b.get? c).getD .empty := rfl

/-- The list of the cells in a range is the layers' entries, those of the upper layer last. -/
theorem getElem?_layers (b : Binding) (r : CellRange) (c : Coordinate) :
    (CellMap.ofList (b.constants.boundIn r ++ b.own.boundIn r))[c]? =
      if r.contains c = true then b.get? c else none := by
  have layer (m : CellMap) (v : Value) :
      (c, v) ∈ m.boundIn r ↔ (if r.contains c = true then m[c]? else none) = some v := by
    rw [CellMap.mem_boundIn]
    split <;> simp [*]
  rw [CellMap.ofList, List.foldl_append, CellMap.getElem?_foldl_insert (layer b.own),
    CellMap.getElem?_foldl_insert (layer b.constants), Std.TreeMap.getElem?_emptyc, Option.or_none]
  split
  · rfl
  · rfl

theorem pairwise_boundIn (b : Binding) (r : CellRange) :
    (b.boundIn r).Pairwise fun a b => compare a.1 b.1 = .lt :=
  Std.TreeMap.ordered_keys_toList

/-- **The cells that a binding has in a range.** -/
theorem mem_boundIn {r : CellRange} :
    (c, v) ∈ b.boundIn r ↔ r.contains c = true ∧ b.get? c = some v := by
  rw [boundIn, Std.TreeMap.mem_toList_iff_getElem?_eq_some, getElem?_layers]
  split <;> simp [*]

/-- **Bindings with the same entries in a set agree there.** -/
theorem agreeOn {P : Coordinate → Prop} (h : ∀ c, P c → b.get? c = b'.get? c) :
    b.source.AgreeOn P b'.source where
  value c hc := by
    show b.value c = b'.value c
    rw [value_eq, value_eq, h c hc]
  boundIn r hr := by
    refine CellMap.eq_of_mem_iff (b.pairwise_boundIn r) (b'.pairwise_boundIn r) fun ⟨c, v⟩ => ?_
    refine mem_boundIn.trans (Iff.trans ?_ mem_boundIn.symm)
    exact and_congr_right fun hc => by rw [h c (hr c hc)]

end Binding

/-! ### Entries -/

/-- The source answers both questions from entries for some cells. -/
structure CellSource.HasEntries (s : CellSource) (entry : Coordinate → Option Value) : Prop where
  value : ∀ c, s.value c = (entry c).getD .empty
  ordered : ∀ r, (s.boundIn r).Pairwise fun a b => compare a.1 b.1 = .lt
  mem : ∀ r c v, (c, v) ∈ s.boundIn r ↔ r.contains c = true ∧ entry c = some v

theorem CellMap.hasEntries (m : CellMap) : m.source.HasEntries fun c => m[c]? where
  value _ := rfl
  ordered := m.pairwise_boundIn
  mem _ _ _ := mem_boundIn

theorem Binding.hasEntries (b : Binding) : b.source.HasEntries b.get? where
  value := b.value_eq
  ordered := b.pairwise_boundIn
  mem _ _ _ := mem_boundIn

namespace CellSource.HasEntries

variable {s : CellSource} {entry : Coordinate → Option Value} {r : CellRange}

theorem value_of_none (h : s.HasEntries entry) {c : Coordinate} (hc : entry c = none) :
    s.value c = .empty := by
  rw [h.value, hc]
  rfl

/-- The cells that a source has in a range, by walking the range. -/
theorem boundIn_eq_filter (h : s.HasEntries entry) (hr : r.Ordered) :
    s.boundIn r = (r.cells.map fun c => (c, s.value c)).filter fun e => (entry e.1).isSome := by
  have hwalk : (r.cells.map fun c => (c, s.value c)).Pairwise fun a b => compare a.1 b.1 = .lt :=
    List.pairwise_map.mpr r.pairwise_cells
  apply CellMap.eq_of_mem_iff (h.ordered r) (hwalk.filter _)
  rintro ⟨c, v⟩
  simp only [h.mem, List.mem_filter, List.mem_map, CellRange.mem_cells_iff hr, Prod.mk.injEq,
    h.value, Option.isSome_iff_exists]
  constructor
  · rintro ⟨hc, hv⟩
    exact ⟨⟨c, hc, rfl, by rw [hv]; rfl⟩, v, hv⟩
  · rintro ⟨⟨d, hd, rfl, rfl⟩, v, hv⟩
    exact ⟨hd, by rw [hv]; rfl⟩

end CellSource.HasEntries

/-! ### Lists of bound cells -/

/-- The list of a range is that of the bound cells in it: in order, each with its value, no other
cells and none left out. -/
structure CellSource.Lists (s : CellSource) (bound : Coordinate → Prop) (r : CellRange) : Prop where
  ordered : (s.boundIn r).Pairwise fun a b => compare a.1 b.1 = .lt
  mem : ∀ c v, (c, v) ∈ s.boundIn r ↔ r.contains c = true ∧ bound c ∧ s.value c = v

theorem CellSource.HasEntries.lists {s : CellSource} {entry : Coordinate → Option Value}
    {bound : Coordinate → Prop} (h : s.HasEntries entry)
    (hbound : ∀ c, bound c ↔ (entry c).isSome = true) (r : CellRange) : s.Lists bound r where
  ordered := h.ordered r
  mem c v := by
    rw [h.mem, h.value, hbound]
    refine and_congr_right fun _ => ?_
    cases entry c <;> simp

/-- **Both kinds of sources list the bound cells of a range**: a map those that it has, a binding
those of either layer, with the value of the upper layer where that has one. -/
theorem lists_boundIn (r : CellRange) :
    (∀ m : CellMap, m.source.Lists (· ∈ m) r) ∧
    ∀ b : Binding, b.source.Lists (fun c => c ∈ b.own ∨ c ∈ b.constants) r ∧
      (∀ c ∈ b.own, b.value c = b.own.value c) ∧
      ∀ c, c ∉ b.own → b.value c = b.constants.value c := by
  refine ⟨fun m => m.hasEntries.lists (fun c => ?_) r,
    fun b => ⟨b.hasEntries.lists (fun c => ?_) r, ?_, ?_⟩⟩
  · exact Std.TreeMap.isSome_getElem?_iff_mem.symm
  · rw [Binding.get?, Option.isSome_or, Bool.or_eq_true, Std.TreeMap.isSome_getElem?_iff_mem,
      Std.TreeMap.isSome_getElem?_iff_mem]
  · intro c hc
    obtain ⟨v, hv⟩ := Option.isSome_iff_exists.mp (Std.TreeMap.isSome_getElem?_iff_mem.mpr hc)
    rw [Binding.value, CellMap.value, hv, Option.some_or]
  · intro c hc
    rw [Binding.value, CellMap.value, Std.TreeMap.getElem?_eq_none hc, Option.none_or]

end Recalc
