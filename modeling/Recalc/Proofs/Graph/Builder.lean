/-
Recalc/Proofs/Graph/Builder.lean

Cells by number and by coordinate.  A builder that was filled by `add` is `Indexed`: its
index gives a coordinate the number `i` exactly if the `i`-th cell has that coordinate.
So coordinates are distinct, and an edge leads from `u` to `v` exactly if the formula of
`v` refers to the coordinate of `u`:

    (∃ e ∈ b.edges, e.source = u ∧ e.target = v) ↔ b.Refers u v      (exists_edge_iff).

Referred cells that are added on the way keep the builder indexed and stand behind the
given ones (`Indexed.withImplicit`, `withImplicit_extends`).
-/
import Recalc.Graph.Build
import Recalc.Proofs.Cell.Range
import Std.Data.TreeMap.Lemmas
import Mathlib.Data.List.Basic

namespace Recalc.GraphBuilder

variable {b : GraphBuilder} {u v i : Nat}

/-- The index is the inverse of the coordinates. -/
def Indexed (b : GraphBuilder) : Prop :=
  ∀ c i, b.index[c]? = some i ↔ b.cells[i]?.map GraphCell.coordinate = some c

/-! ### Adding cells -/

theorem indexed_empty : empty.Indexed := by
  intro c i
  simp [empty]

theorem Indexed.push (h : b.Indexed) {cell : GraphCell}
    (hnew : b.index.contains cell.coordinate = false) : (b.push cell).Indexed := by
  intro c i
  have hnone := Std.TreeMap.getElem?_eq_none_of_contains_eq_false hnew
  simp only [GraphBuilder.push, Std.TreeMap.getElem?_insert, Std.LawfulEqCmp.compare_eq_iff_eq,
    Array.getElem?_push]
  by_cases hi : i = b.cells.size
  · subst hi
    by_cases hc : cell.coordinate = c
    · simp [hc]
    · have hout : b.index[c]? ≠ some b.cells.size := by
        rw [Ne, h c]
        simp
      simp [hc, hout]
  · by_cases hc : cell.coordinate = c
    · subst hc
      have hout := h cell.coordinate i
      rw [hnone] at hout
      simp only [if_true, if_neg hi, Option.some.injEq]
      constructor
      · intro heq
        exact absurd heq.symm hi
      · intro heq
        exact absurd (hout.mpr heq) (by simp)
    · simp only [if_neg hc, if_neg hi]
      exact h c i

theorem push_of_add {cell : GraphCell} {b' : GraphBuilder} (h : b.add cell = .ok b') :
    b.index.contains cell.coordinate = false ∧ b' = b.push cell := by
  unfold add at h
  split at h
  · cases h
  · rename_i hnew
    exact ⟨Bool.eq_false_iff.mpr hnew, (Except.ok.inj h).symm⟩

/-- **A filled builder is indexed**, and holds the given cells in order. -/
theorem indexed_of_foldlM {cells : List GraphCell} {b b' : GraphBuilder} (hb : b.Indexed)
    (h : cells.foldlM add b = .ok b') :
    b'.Indexed ∧ b'.cells = b.cells ++ cells.toArray := by
  induction cells generalizing b with
  | nil =>
      obtain rfl := Except.ok.inj h
      exact ⟨hb, by simp⟩
  | cons cell cells ih =>
      rw [List.foldlM_cons] at h
      cases hadd : b.add cell with
      | error e =>
          rw [hadd] at h
          cases h
      | ok b₁ =>
          rw [hadd] at h
          obtain ⟨hnew, rfl⟩ := push_of_add hadd
          obtain ⟨hidx, hcells⟩ := ih (hb.push hnew) h
          refine ⟨hidx, ?_⟩
          rw [hcells, GraphBuilder.push]
          simp

/-! ### Referred cells -/

theorem Indexed.pushImplicit (h : b.Indexed) (r : Reference) : (b.pushImplicit r).Indexed := by
  unfold GraphBuilder.pushImplicit
  split
  · split
    · exact h
    · rename_i c _ hnew
      exact h.push (Bool.eq_false_iff.mpr hnew)
  · exact h

/-- The builder has the cells of another one, and behind them cells without a formula. -/
def Extends (b' b : GraphBuilder) : Prop :=
  ∃ more : Array GraphCell, b'.cells = b.cells ++ more ∧
    ∀ cell ∈ more, cell.expr = none ∧ cell.failed = false ∧ cell.iteration = none

theorem pushImplicit_extends (b : GraphBuilder) (r : Reference) : (b.pushImplicit r).Extends b := by
  have hself : b.Extends b := ⟨#[], by simp, by simp⟩
  unfold GraphBuilder.pushImplicit
  split
  · split
    · exact hself
    · rename_i c _ _
      exact ⟨#[.input c], by simp [GraphBuilder.push], by simp [GraphCell.input]⟩
  · exact hself

theorem Extends.trans {b b' b'' : GraphBuilder} (h' : b''.Extends b') (h : b'.Extends b) :
    b''.Extends b := by
  obtain ⟨more, hcells, hmore⟩ := h
  obtain ⟨more', hcells', hmore'⟩ := h'
  refine ⟨more ++ more', by rw [hcells', hcells, Array.append_assoc], fun cell hc => ?_⟩
  rcases Array.mem_append.mp hc with hc | hc
  · exact hmore cell hc
  · exact hmore' cell hc

theorem foldl_pushImplicit (h : b.Indexed) (rs : List Reference) :
    (rs.foldl GraphBuilder.pushImplicit b).Indexed ∧
      (rs.foldl GraphBuilder.pushImplicit b).Extends b := by
  induction rs generalizing b with
  | nil => exact ⟨h, #[], by simp, by simp⟩
  | cons r rs ih =>
      obtain ⟨hidx, hext⟩ := ih (h.pushImplicit r)
      exact ⟨hidx, hext.trans (pushImplicit_extends b r)⟩

theorem Indexed.withImplicit (h : b.Indexed) : b.withImplicit.Indexed :=
  (foldl_pushImplicit h _).1

theorem withImplicit_extends (h : b.Indexed) : b.withImplicit.Extends b :=
  (foldl_pushImplicit h _).2

/-! ### Edges -/

theorem mem_targeted (h : b.Indexed) {t : Target} :
    u ∈ b.targeted t ↔ ∃ cell, b.cells[u]? = some cell ∧ t.contains cell.coordinate = true := by
  have hcell : ∀ c, b.index[c]? = some u ↔
      ∃ cell, b.cells[u]? = some cell ∧ cell.coordinate = c := by
    intro c
    rw [h c u, Option.map_eq_some_iff]
  cases t with
  | cell c =>
      simp only [targeted, Option.mem_toList, hcell, Target.contains, beq_iff_eq]
      exact exists_congr fun cell => and_congr_right fun _ => eq_comm
  | range r =>
      simp only [targeted, List.mem_map, Prod.exists, exists_eq_right, Target.contains]
      constructor
      · rintro ⟨c, hmem⟩
        obtain ⟨hc, hget⟩ := CellRange.mem_entries.mp hmem
        obtain ⟨cell, hu, rfl⟩ := (hcell c).mp hget
        exact ⟨cell, hu, hc⟩
      · rintro ⟨cell, hu, hc⟩
        exact ⟨cell.coordinate, CellRange.mem_entries.mpr ⟨hc, (hcell _).mpr ⟨cell, hu, rfl⟩⟩⟩

theorem exists_mem_firstLinks {seen : List Nat} {links : List (Nat × EdgeKind)} :
    (∃ kind, (u, kind) ∈ firstLinks seen links) ↔ u ∉ seen ∧ ∃ kind, (u, kind) ∈ links := by
  induction links generalizing seen with
  | nil => simp [firstLinks]
  | cons link links ih =>
      obtain ⟨w, k⟩ := link
      unfold firstLinks
      by_cases hw : w ∈ seen
      · simp only [List.contains_eq_mem, hw, decide_true, if_true, ih, List.mem_cons,
          Prod.mk.injEq]
        refine and_congr_right fun hu => exists_congr fun kind => ?_
        constructor
        · exact .inr
        · rintro (⟨rfl, -⟩ | hmem)
          · exact absurd hw hu
          · exact hmem
      · simp only [List.contains_eq_mem, hw, decide_false, Bool.false_eq_true, if_false,
          List.mem_cons, Prod.mk.injEq, exists_or, ih, not_or]
        by_cases huw : u = w
        · subst huw
          simp [hw]
        · simp [huw]

/-- The formula of cell `v` refers to the coordinate of cell `u`. -/
def Refers (b : GraphBuilder) (u v : Nat) : Prop :=
  ∃ source target, b.cells[u]? = some source ∧ b.cells[v]? = some target ∧
    ∃ r ∈ target.references, r.target.contains source.coordinate = true

theorem exists_mem_edgesTo (h : b.Indexed) {cell : GraphCell} {id : Nat} :
    (∃ e ∈ b.edgesTo cell id, e.source = u ∧ e.target = v) ↔
      v = id ∧ ∃ source, b.cells[u]? = some source ∧
        ∃ r ∈ cell.references, r.target.contains source.coordinate = true := by
  have hlinks : (∃ e ∈ b.edgesTo cell id, e.source = u ∧ e.target = v) ↔
      v = id ∧ ∃ kind, (u, kind) ∈ firstLinks [] (cell.references.flatMap fun r =>
        (b.targeted r.target).map (·, EdgeKind.ofReference r cell.coordinate.sheet)) := by
    simp only [edgesTo, List.mem_map]
    constructor
    · rintro ⟨e, ⟨⟨w, k⟩, hmem, rfl⟩, rfl, rfl⟩
      exact ⟨rfl, k, hmem⟩
    · rintro ⟨rfl, k, hmem⟩
      exact ⟨_, ⟨(u, k), hmem, rfl⟩, rfl, rfl⟩
  rw [hlinks, exists_mem_firstLinks]
  simp only [List.not_mem_nil, not_false_eq_true, true_and, List.mem_flatMap, List.mem_map,
    Prod.mk.injEq]
  refine and_congr_right fun _ => ?_
  constructor
  · rintro ⟨kind, r, hr, w, hw, rfl, -⟩
    obtain ⟨source, hsource, hcontains⟩ := (mem_targeted h).mp hw
    exact ⟨source, hsource, r, hr, hcontains⟩
  · rintro ⟨source, hsource, r, hr, hcontains⟩
    exact ⟨_, r, hr, u, (mem_targeted h).mpr ⟨source, hsource, hcontains⟩, rfl, rfl⟩

/-- **Edges are references.** -/
theorem exists_edge_iff (h : b.Indexed) :
    (∃ e ∈ b.edges, e.source = u ∧ e.target = v) ↔ b.Refers u v := by
  have hmem : (∃ e ∈ b.edges, e.source = u ∧ e.target = v) ↔
      ∃ cell id, b.cells[id]? = some cell ∧ ∃ e ∈ b.edgesTo cell id,
        e.source = u ∧ e.target = v := by
    simp only [edges, List.mem_flatMap]
    constructor
    · rintro ⟨e, ⟨⟨cell, id⟩, hcell, he⟩, hends⟩
      rw [List.mem_zipIdx_iff_getElem?] at hcell
      exact ⟨cell, id, by simpa using hcell, e, he, hends⟩
    · rintro ⟨cell, id, hcell, e, he, hends⟩
      refine ⟨e, ⟨(cell, id), ?_, he⟩, hends⟩
      rw [List.mem_zipIdx_iff_getElem?]
      simpa using hcell
  rw [hmem]
  simp only [exists_mem_edgesTo h, Refers]
  constructor
  · rintro ⟨cell, id, hcell, rfl, source, hsource, hr⟩
    exact ⟨source, cell, hsource, hcell, hr⟩
  · rintro ⟨source, cell, hsource, hcell, hr⟩
    exact ⟨cell, v, hcell, rfl, source, hsource, hr⟩

end Recalc.GraphBuilder
