/-
Recalc/Proofs/Graph/Peel.lean

Peeling takes exactly the numbers whose predecessors are all taken,

    v ∈ a.peel ↔ v < a.size ∧ ∀ u, a.Adj u v → u ∈ a.peel      (mem_peel_iff),

each once (`nodup_peel`) and behind its predecessors (`peel_ordered`).  So nothing on a
cycle is taken, and everything is taken if there is no cycle.

Design.  `a.pending taken v` counts the edges to `v` from numbers not taken yet; this is
what the degrees keep.  The invariant `Peeling` says so, and that taken and queued
numbers are those with no pending edge.  `Peeling.step` keeps it while one number is
taken, and `Peeling.run` follows the queue to its end; the fuel suffices because taken
and queued numbers are distinct.
-/
import Recalc.Graph.Peel
import Recalc.Proofs.Graph.Reach
import Mathlib.Data.Fintype.Order
import Mathlib.Data.List.Perm.Subperm
import Mathlib.Order.WellFounded

open Relation

namespace Recalc.Adjacency

variable {a : Adjacency} {u v w : Nat}

/-- The number of edges to `v` from numbers not taken yet. -/
def pending (a : Adjacency) (taken : List Nat) (v : Nat) : Nat :=
  a.pairs.countP fun p => p.2 == v && !taken.contains p.1

/-! ### Pending edges -/

theorem pending_eq_zero_iff {taken : List Nat} :
    a.pending taken v = 0 ↔ ∀ u, a.Adj u v → u ∈ taken := by
  simp only [pending, List.countP_eq_zero]
  constructor
  · intro h u hu
    have hp := h (u, v) (mem_pairs.mpr hu)
    simpa using hp
  · rintro h ⟨x, y⟩ hp
    have hx := h x
    simp only [Bool.and_eq_true, beq_iff_eq, Bool.not_eq_true', List.contains_eq_mem,
      decide_eq_false_iff_not, not_and, not_not]
    rintro rfl
    exact hx (mem_pairs.mp hp)

/-- The edges from one number to another. -/
theorem countP_pairs (a : Adjacency) (u v : Nat) :
    a.pairs.countP (fun p => p.2 == v && p.1 == u) = (a.next u).count v := by
  have row : ∀ w, ((a.next w).map fun x => (w, x)).countP (fun p => p.2 == v && p.1 == u)
      = if w = u then (a.next u).count v else 0 := by
    intro w
    rw [List.countP_map]
    by_cases hw : w = u
    · subst hw
      simp [Function.comp_def, List.count_eq_countP]
    · simp [Function.comp_def, hw]
  have rows : ∀ n, ((List.range n).flatMap fun w => (a.next w).map fun x => (w, x)).countP
      (fun p => p.2 == v && p.1 == u) = if u < n then (a.next u).count v else 0 := by
    intro n
    induction n with
    | zero => simp
    | succ n ih =>
        rw [List.range_succ, List.flatMap_append, List.countP_append, ih, List.flatMap_singleton,
          row]
        by_cases hn : n = u
        · simp [hn]
        · have hiff : u < n + 1 ↔ u < n := by omega
          simp [hn, hiff]
  rw [pairs, rows]
  by_cases hu : u < a.size
  · rw [if_pos hu]
  · rw [if_neg hu, next_of_size_le (Nat.le_of_not_lt hu)]
    rfl

/-- Taking a number frees the edges from it. -/
theorem pending_append_singleton {taken : List Nat} (hu : u ∉ taken) (v : Nat) :
    a.pending taken v = a.pending (taken ++ [u]) v + (a.next u).count v := by
  rw [← countP_pairs, pending, pending]
  generalize a.pairs = pairs
  induction pairs with
  | nil => rfl
  | cons p pairs ih =>
      obtain ⟨x, y⟩ := p
      simp only [List.countP_cons, ih]
      by_cases hy : y = v <;> by_cases hx : x = u <;> by_cases ht : x ∈ taken <;>
        simp_all <;> omega

/-! ### Degrees -/

theorem getElem?_foldl_bump (ws : List Nat) (d : Array Nat) (v : Nat) :
    (ws.foldl (fun d v => d.modify v (· + 1)) d)[v]? = d[v]?.map (· + ws.count v) := by
  induction ws generalizing d with
  | nil => simp
  | cons w ws ih =>
      rw [List.foldl_cons, ih, Array.getElem?_modify]
      by_cases hw : w = v
      · subst hw
        simp [Function.comp_def, Nat.add_comm, Nat.add_left_comm]
      · simp [hw]

theorem getElem?_foldl_degrees (rows : List (List Nat)) (d : Array Nat) (v : Nat) :
    (rows.foldl (fun d next => next.foldl (fun d v => d.modify v (· + 1)) d) d)[v]?
      = d[v]?.map (· + rows.flatten.count v) := by
  induction rows generalizing d with
  | nil => simp
  | cons row rows ih =>
      rw [List.foldl_cons, ih, getElem?_foldl_bump]
      simp [Function.comp_def, Nat.add_assoc]

/-- The targets of all edges, in edge order. -/
theorem map_snd_pairs (a : Adjacency) : a.pairs.map Prod.snd = a.toList.flatten := by
  have rows : (List.range a.size).map a.next = a.toList := by
    apply List.ext_getElem (by simp)
    intro i hi _
    have hsize : i < a.size := by simpa using hi
    simp [next, hsize]
  rw [pairs, List.map_flatMap, ← rows, List.flatMap_def]
  congr 1
  refine List.map_congr_left fun w _ => ?_
  rw [List.map_map]
  exact List.map_id _

theorem getElem?_inDegrees (hv : v < a.size) : a.inDegrees[v]? = some (a.pending [] v) := by
  have hcount : a.pending [] v = a.toList.flatten.count v := by
    rw [← map_snd_pairs, List.count_eq_countP, List.countP_map, pending]
    simp [Function.comp_def]
  rw [inDegrees, ← Array.foldl_toList, getElem?_foldl_degrees, hcount]
  simp [hv]

theorem size_inDegrees (a : Adjacency) : a.inDegrees.size = a.size := by
  have bump : ∀ (ws : List Nat) (d : Array Nat),
      (ws.foldl (fun d v => d.modify v (· + 1)) d).size = d.size := by
    intro ws
    induction ws with
    | nil => intro d; rfl
    | cons w ws ih => intro d; rw [List.foldl_cons, ih, Array.size_modify]
  have rows : ∀ (rows : List (List Nat)) (d : Array Nat),
      (rows.foldl (fun d next => next.foldl (fun d v => d.modify v (· + 1)) d) d).size
        = d.size := by
    intro rows
    induction rows with
    | nil => intro d; rfl
    | cons row rows ih => intro d; rw [List.foldl_cons, ih, bump]
  rw [inDegrees, ← Array.foldl_toList, rows, Array.size_replicate]

/-! ### Taking edges away -/

/-- One edge taken away. -/
theorem getElem?_relax (d : Array Nat) (ready : List Nat) (w v : Nat) :
    (relax (d, ready) w).1[v]? = d[v]?.map (· - [w].count v) := by
  have hrelax : (relax (d, ready) w).1 = d.setIfInBounds w (d[w]?.getD 0 - 1) := rfl
  rw [hrelax, Array.getElem?_setIfInBounds]
  by_cases hwv : w = v
  · subst hwv
    by_cases hw : w < d.size
    · simp [hw]
    · simp [hw]
  · rw [if_neg hwv, List.count_singleton, if_neg (by simpa using hwv)]
    simp

theorem size_foldl_relax (ws : List Nat) (d : Array Nat) (ready : List Nat) :
    (ws.foldl relax (d, ready)).1.size = d.size := by
  induction ws generalizing d ready with
  | nil => rfl
  | cons w ws ih =>
      rw [List.foldl_cons]
      exact (ih _ _).trans Array.size_setIfInBounds

/-- The edges from one number taken away, one after the other. -/
theorem getElem?_foldl_relax (ws : List Nat) (d : Array Nat) (ready : List Nat) (v : Nat) :
    (ws.foldl relax (d, ready)).1[v]? = d[v]?.map (· - ws.count v) := by
  induction ws generalizing d ready with
  | nil => simp
  | cons w ws ih =>
      have hstep := ih (relax (d, ready) w).1 (relax (d, ready) w).2
      rw [getElem?_relax, Option.map_map] at hstep
      rw [List.foldl_cons, ← List.singleton_append, List.count_append]
      refine hstep.trans (congrArg (d[v]?.map ·) ?_)
      funext k
      exact Nat.sub_sub k _ _

/-- A degree never drops below zero, and what reaches zero is ready, once, at its last edge. -/
theorem exists_ready_foldl_relax (ws : List Nat) (d : Array Nat) (ready : List Nat)
    (hle : ∀ w ∈ ws, ws.count w ≤ d[w]?.getD 0) :
    ∃ new, (ws.foldl relax (d, ready)).2 = ready ++ new ∧ new.Nodup ∧
      ∀ v, v ∈ new ↔ v ∈ ws ∧ d[v]?.getD 0 = ws.count v := by
  induction ws generalizing d ready with
  | nil => exact ⟨[], by simp, List.nodup_nil, by simp⟩
  | cons w ws ih =>
      have hw : ws.count w + 1 ≤ d[w]?.getD 0 := by
        simpa using hle w List.mem_cons_self
      have hdeg (v : Nat) :
          (relax (d, ready) w).1[v]?.getD 0 = d[v]?.getD 0 - [w].count v := by
        rw [getElem?_relax]
        cases d[v]? with
        | none => simp
        | some k => rfl
      have hsplit (v : Nat) : (w :: ws).count v = [w].count v + ws.count v := by
        rw [← List.singleton_append, List.count_append]
      have hself : [w].count w = 1 := List.count_singleton_self
      have hle' : ∀ x ∈ ws, ws.count x ≤ (relax (d, ready) w).1[x]?.getD 0 := by
        intro x hx
        have hcount := hle x (List.mem_cons_of_mem _ hx)
        rw [hsplit] at hcount
        rw [hdeg]
        omega
      obtain ⟨new, hnew, hnodup, hmem⟩ := ih (relax (d, ready) w).1 (relax (d, ready) w).2 hle'
      have hother {v : Nat} (hv : v ≠ w) :
          v ∈ new ↔ v ∈ w :: ws ∧ d[v]?.getD 0 = (w :: ws).count v := by
        have hnone : [w].count v = 0 := List.count_eq_zero.mpr (by simpa using hv)
        rw [hmem, hdeg, hsplit, hnone, Nat.sub_zero, Nat.zero_add, List.mem_cons, or_iff_right hv]
      have hready : (relax (d, ready) w).2 =
          if d[w]?.getD 0 - 1 = 0 then ready ++ [w] else ready := rfl
      by_cases hzero : d[w]?.getD 0 - 1 = 0
      · -- the last edge to `w`
        have hcount : ws.count w = 0 := by omega
        have hnot : w ∉ ws := List.count_eq_zero.mp hcount
        refine ⟨w :: new, ?_, ?_, fun v => ?_⟩
        · rw [List.foldl_cons]
          refine hnew.trans ?_
          rw [hready, if_pos hzero, List.append_assoc, List.singleton_append]
        · exact List.nodup_cons.mpr ⟨fun h => hnot ((hmem w).mp h).1, hnodup⟩
        · by_cases hv : v = w
          · rw [hv, hsplit, hself]
            exact iff_of_true List.mem_cons_self ⟨List.mem_cons_self, by omega⟩
          · rw [← hother hv, List.mem_cons, or_iff_right hv]
      · -- more edges to `w` are to come
        refine ⟨new, ?_, hnodup, fun v => ?_⟩
        · rw [List.foldl_cons]
          refine hnew.trans ?_
          rw [hready, if_neg hzero]
        · by_cases hv : v = w
          · rw [hv, hmem, hdeg, hsplit, hself]
            constructor
            · rintro ⟨-, heq⟩
              exact ⟨List.mem_cons_self, by omega⟩
            · rintro ⟨-, heq⟩
              exact ⟨List.count_pos_iff.mp (by omega), by omega⟩
          · exact hother hv

/-! ### The invariant -/

/-- A state of the peeling: what is taken, the degrees and the queue. -/
structure Peeling (a : Adjacency) (taken : List Nat) (degrees : Array Nat) (queue : List Nat) :
    Prop where
  size : degrees.size = a.size
  degree : ∀ v < a.size, degrees[v]? = some (a.pending taken v)
  nodup : (taken ++ queue).Nodup
  mem_iff : ∀ v, v ∈ taken ++ queue ↔ v < a.size ∧ a.pending taken v = 0
  ordered : ∀ {l₁ v l₂}, taken = l₁ ++ v :: l₂ → ∀ u, a.Adj u v → u ∈ l₁

theorem Peeling.getD_degrees {taken queue : List Nat} {degrees : Array Nat}
    (h : Peeling a taken degrees queue) {w : Nat} (hw : w < a.size) :
    degrees[w]?.getD 0 = a.pending taken w := by
  rw [h.degree w hw]
  rfl

theorem Peeling.init (a : Adjacency) :
    Peeling a [] a.inDegrees ((List.range a.size).filter fun v => a.inDegrees[v]? == some 0) where
  size := size_inDegrees a
  degree _ hv := getElem?_inDegrees hv
  nodup := List.nodup_range.filter _
  mem_iff v := by
    simp only [List.nil_append, List.mem_filter, List.mem_range]
    refine and_congr_right fun hv => ?_
    rw [getElem?_inDegrees hv]
    simp
  ordered h := by simp at h

/-- What is put behind the queue has its last pending edge from the number taken. -/
theorem Peeling.mem_ready_iff (hclosed : a.Closed) {taken queue : List Nat} {degrees : Array Nat}
    (h : Peeling a taken degrees (v :: queue)) (hv : v ∉ taken) {new : List Nat}
    (hmem : ∀ w, w ∈ new ↔ w ∈ a.next v ∧ degrees[w]?.getD 0 = (a.next v).count w) (w : Nat) :
    w ∈ new ↔ w < a.size ∧ a.pending taken w ≠ 0 ∧ a.pending (taken ++ [v]) w = 0 := by
  have hpend := pending_append_singleton (a := a) hv w
  rw [hmem]
  constructor
  · rintro ⟨hw, heq⟩
    have hpos := List.count_pos_iff.mpr hw
    rw [h.getD_degrees (hclosed hw)] at heq
    exact ⟨hclosed hw, by omega, by omega⟩
  · rintro ⟨hw, hne, hzero⟩
    rw [h.getD_degrees hw]
    exact ⟨List.count_pos_iff.mp (by omega), by omega⟩

/-- Taking the first of the queue. -/
theorem Peeling.step (hclosed : a.Closed) {taken queue : List Nat} {degrees : Array Nat}
    (h : Peeling a taken degrees (v :: queue)) :
    Peeling a (taken ++ [v]) ((a.next v).foldl relax (degrees, [])).1
      (queue ++ ((a.next v).foldl relax (degrees, [])).2) := by
  have hv : v ∉ taken := fun hmem =>
    List.disjoint_of_nodup_append h.nodup hmem List.mem_cons_self
  have hpend := pending_append_singleton (a := a) hv
  have hle : ∀ w ∈ a.next v, (a.next v).count w ≤ degrees[w]?.getD 0 := by
    intro w hw
    rw [h.getD_degrees (hclosed hw), hpend w]
    exact Nat.le_add_left _ _
  obtain ⟨new, hnew, hnodup, hmem⟩ := exists_ready_foldl_relax (a.next v) degrees [] hle
  rw [List.nil_append] at hnew
  have hready := h.mem_ready_iff hclosed hv hmem
  refine ⟨(size_foldl_relax _ _ _).trans h.size, ?_, ?_, ?_, ?_⟩
  · intro w hw
    rw [getElem?_foldl_relax, h.degree w hw, Option.map_some, hpend w, Nat.add_sub_cancel]
  · rw [hnew, List.append_assoc, List.singleton_append, ← List.cons_append, ← List.append_assoc]
    refine List.Nodup.append h.nodup hnodup fun w hold hw => ?_
    exact ((hready w).mp hw).2.1 ((h.mem_iff w).mp hold).2
  · intro w
    have hsplit : w ∈ taken ++ [v] ++ (queue ++ ((a.next v).foldl relax (degrees, [])).2) ↔
        w ∈ taken ++ v :: queue ∨ w ∈ new := by
      rw [hnew]
      simp [or_assoc]
    rw [hsplit, h.mem_iff, hready]
    have := hpend w
    constructor
    · rintro (⟨hw, hzero⟩ | ⟨hw, -, hzero⟩)
      · exact ⟨hw, by omega⟩
      · exact ⟨hw, hzero⟩
    · rintro ⟨hw, hzero⟩
      by_cases hold : a.pending taken w = 0
      · exact .inl ⟨hw, hold⟩
      · exact .inr ⟨hw, hold, hzero⟩
  · intro l₁ w l₂ heq u hadj
    rcases List.eq_nil_or_concat l₂ with rfl | ⟨l₂', z, rfl⟩
    · -- the number just taken: its edges were all from taken numbers
      obtain ⟨rfl, hw⟩ := List.append_inj' heq rfl
      obtain rfl : v = w := by simpa using hw
      have hzero := ((h.mem_iff v).mp (by simp)).2
      exact pending_eq_zero_iff.mp hzero u hadj
    · have heq' : taken ++ [v] = (l₁ ++ w :: l₂') ++ [z] := by simpa using heq
      exact h.ordered (List.append_inj' heq' rfl).1 u hadj

/-- Following the queue to its end. -/
theorem Peeling.run (hclosed : a.Closed) {fuel : Nat} {taken queue : List Nat}
    {degrees : Array Nat} (h : Peeling a taken degrees queue)
    (hfuel : a.size ≤ fuel + taken.length) :
    ∃ degrees', Peeling a (taken ++ peelFrom a fuel degrees queue) degrees' [] := by
  induction fuel generalizing taken queue degrees with
  | zero =>
      -- all numbers are taken, so none can be queued
      have hsub : taken ++ queue ⊆ List.range a.size := by
        intro w hw
        exact List.mem_range.mpr ((h.mem_iff w).mp hw).1
      have hlen := (h.nodup.subperm hsub).length_le
      rw [List.length_append, List.length_range] at hlen
      obtain rfl : queue = [] := List.length_eq_zero_iff.mp (by omega)
      exact ⟨degrees, by simpa [peelFrom] using h⟩
  | succ fuel ih =>
      cases queue with
      | nil => exact ⟨degrees, by simpa [peelFrom] using h⟩
      | cons v queue =>
          obtain ⟨degrees', hend⟩ := ih (h.step hclosed) (by simp; omega)
          refine ⟨degrees', ?_⟩
          rw [List.append_assoc] at hend
          exact hend

/-! ### What is taken -/

theorem peeling_peel (hclosed : a.Closed) : ∃ degrees, Peeling a a.peel degrees [] :=
  (Peeling.init a).run hclosed (by simp)

theorem nodup_peel (hclosed : a.Closed) : a.peel.Nodup := by
  obtain ⟨degrees, h⟩ := peeling_peel hclosed
  simpa using h.nodup

/-- **Peeling takes what has all its predecessors taken.** -/
theorem mem_peel_iff (hclosed : a.Closed) :
    v ∈ a.peel ↔ v < a.size ∧ ∀ u, a.Adj u v → u ∈ a.peel := by
  obtain ⟨degrees, h⟩ := peeling_peel hclosed
  rw [← pending_eq_zero_iff, ← h.mem_iff, List.append_nil]

theorem peel_ordered (hclosed : a.Closed) {l₁ l₂ : List Nat} (h : a.peel = l₁ ++ v :: l₂)
    (hadj : a.Adj u v) : u ∈ l₁ := by
  obtain ⟨degrees, hp⟩ := peeling_peel hclosed
  exact hp.ordered h u hadj

/-- What leads to a taken number is taken before it. -/
theorem peel_ordered_of_transGen (hclosed : a.Closed) {l₁ l₂ : List Nat}
    (h : a.peel = l₁ ++ v :: l₂) (hpath : TransGen a.Adj u v) : u ∈ l₁ := by
  induction hpath generalizing l₁ l₂ with
  | single hadj => exact peel_ordered hclosed h hadj
  | tail _ hadj ih =>
      obtain ⟨m₁, m₂, rfl⟩ := List.append_of_mem (peel_ordered hclosed h hadj)
      rw [List.append_assoc, List.cons_append] at h
      exact List.mem_append_left _ (ih h)

/-- Nothing on a cycle is taken. -/
theorem not_mem_peel_of_cycle (hclosed : a.Closed) (hcycle : TransGen a.Adj v v) :
    v ∉ a.peel := by
  intro hv
  obtain ⟨l₁, l₂, h⟩ := List.append_of_mem hv
  have hbefore := peel_ordered_of_transGen hclosed h hcycle
  have hnodup := nodup_peel hclosed
  rw [h] at hnodup
  exact List.disjoint_of_nodup_append hnodup hbefore List.mem_cons_self

/-- Everything is taken if there is no cycle. -/
theorem mem_peel_of_acyclic (hclosed : a.Closed) (hacyclic : ∀ v, ¬ TransGen a.Adj v v)
    (hv : v < a.size) : v ∈ a.peel := by
  let before (x y : Fin a.size) : Prop := TransGen a.Adj x y
  have : IsTrans (Fin a.size) before := ⟨fun _ _ _ hxy hyz => TransGen.trans hxy hyz⟩
  have : Std.Irrefl before := ⟨fun x h => hacyclic x h⟩
  have hwf : WellFounded before := Finite.wellFounded_of_trans_of_irrefl _
  have key : ∀ x : Fin a.size, (x : Nat) ∈ a.peel := by
    intro x
    induction x using hwf.induction with
    | _ x ih =>
        refine (mem_peel_iff hclosed).mpr ⟨x.isLt, fun u hu => ?_⟩
        exact ih ⟨u, hu.lt_size⟩ (TransGen.single hu)
  exact key ⟨v, hv⟩

end Recalc.Adjacency
