/-
Recalc/Proofs/Graph/Cycles.lean

The cycles of a built graph are the classes of mutual reach that some edge stays in.  Two
different cells are on one listed cycle exactly if each reaches the other, a cell is on
one exactly if it reaches itself along an edge, and the graph is acyclic exactly if no
cell does.  A listed cycle has its members once and by coordinate, and may be repeated
exactly if all of them may, within the strictest limits of all (`exactCycles_build`).

Design.  The listed cycles are the groups with an edge inside, so all of the first part
follows from what groups are.  The second part is about one list of cells that is sorted
by coordinate and folded.
-/
import Recalc.Proofs.Graph.Schedule
import Recalc.Proofs.Number.Order

open Relation

namespace Recalc

/-- The limits are as strict as the strictest of some: each is the least there is. -/
structure Iteration.IsStrictest (limits : Iteration) (all : List Iteration) : Prop where
  maxIterations_mem : limits.maxIterations ∈ all.map Iteration.maxIterations
  maxIterations_le : ∀ l ∈ all, limits.maxIterations ≤ l.maxIterations
  threshold : Binary64.IsSmallest limits.threshold (all.map Iteration.threshold)

/-- What the listed cycles of a graph owe its edges and cells. -/
structure Graph.ExactCycles (g : Graph) : Prop where
  /-- Different cells are on one cycle exactly if each reaches the other. -/
  same_iff : ∀ u v, u ≠ v → ((∃ k, g.cycleOf? u = some k ∧ g.cycleOf? v = some k) ↔
    ReflTransGen g.Adj u v ∧ ReflTransGen g.Adj v u)
  /-- A cell is on a cycle exactly if it reaches itself. -/
  on_iff : ∀ u, (g.cycleOf? u).isSome = true ↔ TransGen g.Adj u u
  acyclic_iff : g.isAcyclic = true ↔ ∀ u, ¬ TransGen g.Adj u u
  /-- Members are cells of the graph, each listed once, by coordinate. -/
  members : ∀ r ∈ g.cycles, r.members.Nodup ∧ (∀ v ∈ r.members, v < g.nodes.size) ∧
    r.cycle = (g.nodesOf r.members).map Node.coordinate ∧
    r.cycle.Pairwise (fun c d => compare c d = .lt)
  /-- A cycle may be repeated exactly if every member may. -/
  iterative_iff : ∀ r ∈ g.cycles, r.iteration.isSome = true ↔
    ∀ n ∈ g.nodesOf r.members, n.cell.iteration.isSome = true
  /-- The limits of a cycle are the strictest of its members. -/
  strictest : ∀ r ∈ g.cycles, ∀ limits, r.iteration = some limits →
    limits.IsStrictest ((g.nodesOf r.members).filterMap fun n => n.cell.iteration)

/-! ### Strictest limits -/

namespace Iteration

theorem isStrictest_singleton (l : Iteration) : l.IsStrictest [l] where
  maxIterations_mem := List.mem_cons_self
  maxIterations_le l' hl' := by rw [List.mem_singleton.mp hl']
  threshold := Binary64.isSmallest_singleton l.threshold

theorem IsStrictest.append_singleton {limits : Iteration} {all : List Iteration}
    (h : limits.IsStrictest all) (l : Iteration) :
    (limits.strictest l).IsStrictest (all ++ [l]) := by
  have hmax : (limits.strictest l).maxIterations = min limits.maxIterations l.maxIterations := rfl
  refine ⟨?_, ?_, ?_⟩
  · rw [hmax, List.map_append]
    rcases Nat.le_total limits.maxIterations l.maxIterations with hle | hle
    · rw [Nat.min_eq_left hle]
      exact List.mem_append_left _ h.maxIterations_mem
    · rw [Nat.min_eq_right hle]
      exact List.mem_append_right _ List.mem_cons_self
  · intro l' hl'
    rw [hmax]
    rcases List.mem_append.mp hl' with hold | hnew
    · exact (Nat.min_le_left _ _).trans (h.maxIterations_le l' hold)
    · rw [List.mem_singleton.mp hnew]
      exact Nat.min_le_right _ _
  · rw [List.map_append]
    exact h.threshold.append_singleton l.threshold

theorem IsStrictest.foldl {limits : Iteration} {all : List Iteration}
    (h : limits.IsStrictest all) (more : List Iteration) :
    (more.foldl strictest limits).IsStrictest (all ++ more) := by
  induction more generalizing limits all with
  | nil => simpa using h
  | cons l more ih =>
      have hnext := ih (h.append_singleton l)
      rw [List.append_assoc, List.singleton_append] at hnext
      exact hnext

end Iteration

/-! ### Coordinates in order -/

namespace Coordinate

/-- Sorting by a coordinate gives the coordinates in order. -/
theorem pairwise_mergeSort {α : Type} (place : α → Coordinate) (l : List α) :
    (l.mergeSort fun x y => (place x).le (place y)).Pairwise
      fun x y => (place x).le (place y) = true := by
  refine List.pairwise_mergeSort ?_ ?_ _
  · intro x y z hxy hyz
    exact Std.TransCmp.isLE_trans hxy hyz
  · intro x y
    simp only [le, Bool.or_eq_true]
    rcases h : compare (place x) (place y) with - | - | -
    · exact .inl rfl
    · exact .inl rfl
    · exact .inr (by rw [Std.OrientedCmp.lt_of_gt h]; rfl)

theorem pairwise_le_sort (cs : List Coordinate) : (sort cs).Pairwise fun c d => c.le d = true :=
  pairwise_mergeSort id cs

theorem compare_eq_lt_of_le_of_ne {c d : Coordinate} (hle : c.le d = true) (hne : c ≠ d) :
    compare c d = .lt := by
  rcases h : compare c d with - | - | -
  · rfl
  · exact absurd (Std.LawfulEqOrd.compare_eq_iff_eq.mp h) hne
  · rw [le, h] at hle
    cases hle

theorem eq_of_le_of_le {c d : Coordinate} (hle : c.le d = true) (hge : d.le c = true) : c = d := by
  by_contra hne
  rw [le, Std.OrientedCmp.gt_of_lt (compare_eq_lt_of_le_of_ne hle hne)] at hge
  cases hge

/-- Lists of the same coordinates in order are equal. -/
theorem eq_of_perm_of_pairwise_le {cs ds : List Coordinate} (hperm : cs.Perm ds)
    (hcs : cs.Pairwise fun c d => c.le d = true) (hds : ds.Pairwise fun c d => c.le d = true) :
    cs = ds :=
  hperm.eq_of_pairwise (fun _ _ _ _ => eq_of_le_of_le) hcs hds

end Coordinate

namespace GraphBuilder

open Adjacency

variable {b : GraphBuilder} {u v k : Nat}

/-! ### Cells on cycles -/

/-- The groups with an edge inside. -/
def cycleGroups (b : GraphBuilder) : List (List Nat) :=
  b.groups.filter (Plan.isCycle b.build.dependents)

theorem nodup_flatten_cycleGroups (h : b.Indexed) : b.cycleGroups.flatten.Nodup :=
  (nodup_flatten_groups_build h).sublist List.filter_sublist.flatten

theorem getElem?_cycles_build (h : b.Indexed) (k : Nat) :
    b.build.cycles[k]? = b.cycleGroups[k]?.map (circularRef b.withImplicit.cells) := by
  rw [cycles_build h, List.getElem?_map]
  rfl

theorem members_circularRef_perm (h : b.Indexed) {g : List Nat} (hg : g ∈ b.cycleGroups) :
    (circularRef b.withImplicit.cells g).members.Perm g := by
  refine members_circularRef fun id hid => ?_
  rw [← size_nodes_build]
  exact lt_of_mem_group h (List.mem_of_mem_filter hg) hid

theorem cycleOf?_build_iff (h : b.Indexed) :
    b.build.cycleOf? v = some k ↔ ∃ g, b.cycleGroups[k]? = some g ∧ v ∈ g := by
  have hcontains : ∀ {j : Nat} {r : CircularRef}, b.build.cycles[j]? = some r →
      (r.members.contains v = true ↔ ∃ g, b.cycleGroups[j]? = some g ∧ v ∈ g) := by
    intro j r hr
    rw [getElem?_cycles_build h] at hr
    obtain ⟨g, hg, rfl⟩ := Option.map_eq_some_iff.mp hr
    rw [hg, List.contains_iff_mem, (members_circularRef_perm h (List.mem_of_getElem? hg)).mem_iff]
    simp
  rw [Graph.cycleOf?, List.findIdx?_eq_some_iff_getElem]
  constructor
  · rintro ⟨hk, hv, -⟩
    exact (hcontains (List.getElem?_eq_getElem hk)).mp hv
  · rintro ⟨g, hg, hvg⟩
    have hk : k < b.build.cycles.length := by
      rw [cycles_build h, List.length_map]
      exact (List.getElem?_eq_some_iff.mp hg).1
    refine ⟨hk, (hcontains (List.getElem?_eq_getElem hk)).mpr ⟨g, hg, hvg⟩, ?_⟩
    -- an earlier cycle with the cell would be this one
    intro j hjk hv
    have hj : j < b.build.cycles.length := Nat.lt_trans hjk hk
    obtain ⟨g', hg', hvg'⟩ := (hcontains (List.getElem?_eq_getElem hj)).mp hv
    exact absurd (Plan.index_unique (nodup_flatten_cycleGroups h) hg' hg hvg' hvg)
      (Nat.ne_of_lt hjk)

theorem mutual_iff_of_mem_group (h : b.Indexed) {g : List Nat} (hg : g ∈ b.groups) (hu : u ∈ g) :
    v ∈ g ↔ ReflTransGen b.build.Adj u v ∧ ReflTransGen b.build.Adj v u := by
  rw [Plan.mem_group_iff (closed_dependents_build h) hg hu, Mutual, adj_dependents_build_eq h]

/-- The members of a step are those that lead to each other. -/
theorem mem_members_iff_mutual (h : b.Indexed) {step : Step} (hstep : step ∈ b.build.schedule)
    (hu : u ∈ b.build.members step) :
    v ∈ b.build.members step ↔ ReflTransGen b.build.Adj u v ∧ ReflTransGen b.build.Adj v u := by
  rw [(members_build_perm h step).mem_iff] at hu ⊢
  exact mutual_iff_of_mem_group h (members_mem_groups h hstep) hu

theorem isCycle_iff_of_mem_group (h : b.Indexed) {g : List Nat} (hg : g ∈ b.groups)
    (hv : v ∈ g) : Plan.isCycle b.build.dependents g = true ↔ TransGen b.build.Adj v v := by
  rw [Plan.isCycle_iff (closed_dependents_build h) hg hv, adj_dependents_build_eq h]

/-- A cell that reaches itself is in a group with an edge inside. -/
theorem exists_cycleGroup (h : b.Indexed) (hv : TransGen b.build.Adj v v) :
    ∃ (k : Nat) (g : List Nat), b.cycleGroups[k]? = some g ∧ v ∈ g := by
  obtain ⟨w, hvw, -⟩ := TransGen.head'_iff.mp hv
  obtain ⟨g, hg, hvg⟩ := List.mem_flatten.mp
    ((mem_flatten_groups_build h).mpr (adj_lt_size h hvw).1)
  have hcycle : g ∈ b.cycleGroups :=
    List.mem_filter.mpr ⟨hg, (isCycle_iff_of_mem_group h hg hvg).mpr hv⟩
  obtain ⟨k, hk⟩ := List.mem_iff_getElem?.mp hcycle
  exact ⟨k, g, hk, hvg⟩

theorem transGen_of_mem_cycleGroups (h : b.Indexed) {g : List Nat} (hg : g ∈ b.cycleGroups)
    (hv : v ∈ g) : TransGen b.build.Adj v v := by
  obtain ⟨hgroup, hcycle⟩ := List.mem_filter.mp hg
  exact (isCycle_iff_of_mem_group h hgroup hv).mp hcycle

theorem isSome_cycleOf?_build_iff (h : b.Indexed) :
    (b.build.cycleOf? v).isSome = true ↔ TransGen b.build.Adj v v := by
  rw [Option.isSome_iff_exists]
  constructor
  · rintro ⟨k, hk⟩
    obtain ⟨g, hg, hvg⟩ := (cycleOf?_build_iff h).mp hk
    exact transGen_of_mem_cycleGroups h (List.mem_of_getElem? hg) hvg
  · intro hv
    obtain ⟨k, g, hg, hvg⟩ := exists_cycleGroup h hv
    exact ⟨k, (cycleOf?_build_iff h).mpr ⟨g, hg, hvg⟩⟩

theorem same_cycle_iff (h : b.Indexed) (hne : u ≠ v) :
    (∃ k, b.build.cycleOf? u = some k ∧ b.build.cycleOf? v = some k) ↔
      ReflTransGen b.build.Adj u v ∧ ReflTransGen b.build.Adj v u := by
  simp only [cycleOf?_build_iff h]
  constructor
  · rintro ⟨k, ⟨g, hg, hu⟩, g', hg', hv⟩
    obtain rfl := Option.some.inj (hg.symm.trans hg')
    exact (mutual_iff_of_mem_group h (List.mem_of_mem_filter (List.mem_of_getElem? hg)) hu).mp hv
  · rintro ⟨huv, hvu⟩
    have hcycle : TransGen b.build.Adj u u := by
      rcases reflTransGen_iff_eq_or_transGen.mp huv with heq | hpath
      · exact absurd heq.symm hne
      · exact hpath.trans_left hvu
    obtain ⟨k, g, hg, hu⟩ := exists_cycleGroup h hcycle
    have hgroup := List.mem_of_mem_filter (List.mem_of_getElem? hg)
    exact ⟨k, ⟨g, hg, hu⟩, g, hg, (mutual_iff_of_mem_group h hgroup hu).mpr ⟨huv, hvu⟩⟩

theorem isAcyclic_build_iff (h : b.Indexed) :
    b.build.isAcyclic = true ↔ ∀ v, ¬ TransGen b.build.Adj v v := by
  have hempty : b.build.isAcyclic = true ↔ b.cycleGroups = [] := by
    rw [Graph.isAcyclic, List.isEmpty_iff, cycles_build h, List.map_eq_nil_iff]
    rfl
  rw [hempty]
  constructor
  · intro hnil v hv
    obtain ⟨k, g, hg, -⟩ := exists_cycleGroup h hv
    rw [hnil] at hg
    simp at hg
  · intro hacyclic
    refine List.eq_nil_iff_forall_not_mem.mpr fun g hg => ?_
    have hne := Plan.ne_nil_of_mem_groups (closed_dependents_build h) (List.mem_of_mem_filter hg)
    obtain ⟨v, hv⟩ := List.exists_mem_of_ne_nil g hne
    exact hacyclic v (transGen_of_mem_cycleGroups h hg hv)

/-! ### Members in order -/

section Members

variable {cells : Array GraphCell} {ms : List Nat}

/-- Some cells with their numbers, by coordinate. -/
def byCoordinate (cells : Array GraphCell) (ms : List Nat) : List (Nat × GraphCell) :=
  (ms.filterMap fun id => cells[id]?.map fun cell => (id, cell)).mergeSort
    fun (_, c) (_, d) => c.coordinate.le d.coordinate

theorem getElem?_of_mem_byCoordinate {p : Nat × GraphCell} (hp : p ∈ byCoordinate cells ms) :
    cells[p.1]? = some p.2 := by
  obtain ⟨id, -, hid⟩ := List.mem_filterMap.mp (List.mem_mergeSort.mp hp)
  obtain ⟨cell, hcell, rfl⟩ := Option.map_eq_some_iff.mp hid
  exact hcell

theorem pairwise_le_byCoordinate (cells : Array GraphCell) (ms : List Nat) :
    (byCoordinate cells ms).Pairwise fun p q => p.2.coordinate.le q.2.coordinate = true :=
  Coordinate.pairwise_mergeSort (fun p : Nat × GraphCell => p.2.coordinate) _

/-- Different members of an indexed builder have different coordinates. -/
theorem pairwise_lt_byCoordinate (hb : b.Indexed) (hnodup : ((byCoordinate b.cells ms).map
    Prod.fst).Nodup) : ((byCoordinate b.cells ms).map fun p => p.2.coordinate).Pairwise
      fun c d => compare c d = .lt := by
  rw [List.pairwise_map]
  rw [List.Nodup, List.pairwise_map] at hnodup
  refine ((pairwise_le_byCoordinate b.cells ms).and hnodup).imp_of_mem ?_
  rintro p q hp hq ⟨hle, hne⟩
  refine Coordinate.compare_eq_lt_of_le_of_ne hle fun heq => hne ?_
  have hindex : ∀ {p}, p ∈ byCoordinate b.cells ms → b.index[p.2.coordinate]? = some p.1 := by
    intro p hp
    rw [hb, getElem?_of_mem_byCoordinate hp]
    rfl
  have hpq := hindex hp
  rw [heq, hindex hq] at hpq
  exact (Option.some.inj hpq).symm

theorem mapM_eq_ite {α β : Type} (f : α → Option β) (l : List α) :
    l.mapM f = if l.all fun x => (f x).isSome then some (l.filterMap f) else none := by
  induction l with
  | nil => rfl
  | cons x l ih =>
      rw [List.mapM_cons, ih]
      cases hx : f x with
      | none => simp [hx]
      | some y => by_cases hl : l.all fun x => (f x).isSome <;> simp [hx, hl]

theorem iteration_circularRef_eq (cells : Array GraphCell) (ms : List Nat) :
    (circularRef cells ms).iteration =
      match (byCoordinate cells ms).mapM fun p => p.2.iteration with
      | some (first :: rest) => some (rest.foldl Iteration.strictest first)
      | _ => none := rfl

/-- The limits of a cycle, read off its members. -/
theorem iteration_circularRef (hne : byCoordinate cells ms ≠ []) :
    ((circularRef cells ms).iteration.isSome = true ↔
      ∀ p ∈ byCoordinate cells ms, p.2.iteration.isSome = true) ∧
    ∀ limits, (circularRef cells ms).iteration = some limits →
      limits.IsStrictest ((byCoordinate cells ms).filterMap fun p => p.2.iteration) := by
  have hiteration := iteration_circularRef_eq cells ms
  rw [mapM_eq_ite] at hiteration
  by_cases hall : (byCoordinate cells ms).all fun p => p.2.iteration.isSome
  · have hsome : ∀ p ∈ byCoordinate cells ms, p.2.iteration.isSome = true :=
      fun p hp => List.all_eq_true.mp hall p hp
    rw [if_pos hall] at hiteration
    cases hlimits : (byCoordinate cells ms).filterMap fun p => p.2.iteration with
    | nil =>
        -- a cycle has a member, and that has limits
        obtain ⟨p, hp⟩ := List.exists_mem_of_ne_nil _ hne
        have hnone := List.filterMap_eq_nil_iff.mp hlimits p hp
        have hp' := hsome p hp
        rw [hnone] at hp'
        cases hp'
    | cons first rest =>
        rw [hlimits] at hiteration
        simp only at hiteration
        rw [hiteration]
        refine ⟨⟨fun _ => hsome, fun _ => rfl⟩, ?_⟩
        rintro limits heq
        obtain rfl := Option.some.inj heq
        exact (Iteration.isStrictest_singleton first).foldl rest
  · rw [if_neg hall] at hiteration
    simp only at hiteration
    rw [hiteration]
    refine ⟨⟨fun h => ?_, fun h => absurd (List.all_eq_true.mpr h) hall⟩, fun limits heq => ?_⟩
    · cases h
    · cases heq

theorem map_cell_nodesOf_build {l : List (Nat × GraphCell)}
    (hl : ∀ p ∈ l, b.withImplicit.cells[p.1]? = some p.2) :
    (b.build.nodesOf (l.map Prod.fst)).map Node.cell = l.map Prod.snd := by
  induction l with
  | nil => rfl
  | cons p l ih =>
      have hcell := hl p List.mem_cons_self
      rw [← map_cell_node?_build] at hcell
      obtain ⟨n, hn, hcell⟩ := Option.map_eq_some_iff.mp hcell
      have hrest := ih fun q hq => hl q (List.mem_cons_of_mem _ hq)
      rw [Graph.nodesOf] at hrest ⊢
      rw [List.map_cons, List.filterMap_cons, hn, List.map_cons, List.map_cons, hcell, hrest]

end Members

/-! ### Listed cycles -/

theorem mem_cycles_build (h : b.Indexed) {r : CircularRef} :
    r ∈ b.build.cycles ↔ ∃ g ∈ b.cycleGroups, circularRef b.withImplicit.cells g = r := by
  rw [cycles_build h]
  exact List.mem_map

theorem nodup_members_circularRef (h : b.Indexed) {g : List Nat} (hg : g ∈ b.cycleGroups) :
    (circularRef b.withImplicit.cells g).members.Nodup := by
  rw [(members_circularRef_perm h hg).nodup_iff]
  exact (List.nodup_flatten.mp (nodup_flatten_groups_build h)).1 g (List.mem_of_mem_filter hg)

theorem byCoordinate_ne_nil (h : b.Indexed) {g : List Nat} (hg : g ∈ b.cycleGroups) :
    byCoordinate b.withImplicit.cells g ≠ [] := by
  intro hnil
  have hperm : ((byCoordinate b.withImplicit.cells g).map Prod.fst).Perm g :=
    members_circularRef_perm h hg
  rw [hnil] at hperm
  exact Plan.ne_nil_of_mem_groups (closed_dependents_build h) (List.mem_of_mem_filter hg)
    hperm.symm.eq_nil

/-- The nodes of a listed cycle are its members in order. -/
theorem map_cell_nodesOf_circularRef (b : GraphBuilder) (g : List Nat) :
    (b.build.nodesOf (circularRef b.withImplicit.cells g).members).map Node.cell
      = (byCoordinate b.withImplicit.cells g).map Prod.snd :=
  map_cell_nodesOf_build fun _ hp => getElem?_of_mem_byCoordinate hp

theorem listed_members (h : b.Indexed) {g : List Nat} (hg : g ∈ b.cycleGroups) :
    (∀ v ∈ (circularRef b.withImplicit.cells g).members, v < b.build.nodes.size) ∧
    (circularRef b.withImplicit.cells g).cycle
      = (b.build.nodesOf (circularRef b.withImplicit.cells g).members).map Node.coordinate ∧
    (circularRef b.withImplicit.cells g).cycle.Pairwise fun c d => compare c d = .lt := by
  refine ⟨fun v hv => ?_, ?_, ?_⟩
  · exact lt_of_mem_group h (List.mem_of_mem_filter hg)
      ((members_circularRef_perm h hg).mem_iff.mp hv)
  · have hcoordinates := congrArg (List.map GraphCell.coordinate)
      (map_cell_nodesOf_circularRef b g)
    rw [List.map_map, List.map_map] at hcoordinates
    exact hcoordinates.symm
  · exact pairwise_lt_byCoordinate h.withImplicit (nodup_members_circularRef h hg)

theorem listed_iterative_iff (h : b.Indexed) {g : List Nat} (hg : g ∈ b.cycleGroups) :
    (circularRef b.withImplicit.cells g).iteration.isSome = true ↔
      ∀ n ∈ b.build.nodesOf (circularRef b.withImplicit.cells g).members,
        n.cell.iteration.isSome = true := by
  have hcells : ∀ P : GraphCell → Prop,
      (∀ n ∈ b.build.nodesOf (circularRef b.withImplicit.cells g).members, P n.cell) ↔
        ∀ p ∈ byCoordinate b.withImplicit.cells g, P p.2 := by
    intro P
    rw [← List.forall_mem_map, map_cell_nodesOf_circularRef, List.forall_mem_map]
  rw [(iteration_circularRef (byCoordinate_ne_nil h hg)).1]
  exact (hcells fun cell => cell.iteration.isSome = true).symm

theorem listed_strictest (h : b.Indexed) {g : List Nat} (hg : g ∈ b.cycleGroups)
    {limits : Iteration}
    (hlimits : (circularRef b.withImplicit.cells g).iteration = some limits) :
    limits.IsStrictest ((b.build.nodesOf (circularRef b.withImplicit.cells g).members).filterMap
      fun n => n.cell.iteration) := by
  have hfilter := congrArg (List.filterMap GraphCell.iteration) (map_cell_nodesOf_circularRef b g)
  rw [List.filterMap_map, List.filterMap_map] at hfilter
  have hstrict := (iteration_circularRef (byCoordinate_ne_nil h hg)).2 limits hlimits
  exact hfilter ▸ hstrict

/-- **The cycles of a built graph are exact**, whatever cells it was built from. -/
theorem exactCycles_build {cells : List GraphCell} (h : cells.foldlM add empty = .ok b) :
    b.build.ExactCycles := by
  have hidx := (indexed_of_foldlM indexed_empty h).1
  refine ⟨fun u v => same_cycle_iff hidx, fun u => isSome_cycleOf?_build_iff hidx,
    isAcyclic_build_iff hidx, fun r hr => ?_, fun r hr => ?_, fun r hr limits hlimits => ?_⟩ <;>
    obtain ⟨g, hg, rfl⟩ := (mem_cycles_build hidx).mp hr
  · exact ⟨nodup_members_circularRef hidx hg, listed_members hidx hg⟩
  · exact listed_iterative_iff hidx hg
  · exact listed_strictest hidx hg hlimits

theorem exactCycles_loopCells :
    ∃ b, loopCells.foldlM add empty = .ok b ∧ b.build.ExactCycles := by
  obtain ⟨b, hb⟩ := exists_foldlM_add_iff.mpr
    (show (loopCells.map GraphCell.coordinate).Nodup by decide)
  exact ⟨b, hb, exactCycles_build hb⟩

end GraphBuilder

end Recalc
