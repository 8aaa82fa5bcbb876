/-
Recalc/Proofs/Graph/Schedule.lean

The schedule of a built graph.  `g.Adj u v` is an edge, and `g.StepOf v i` says that cell
`v` belongs to the `i`-th step.  The steps are the groups of the edge relation: step `i`
has the members of the `i`-th group (`stepOf_iff`).  Hence every cell has exactly one
step, edges lead forward, and every cycle is scheduled once (`wellScheduled_build`).

Design.  A graph lists the members of a cycle by coordinate and a plan by number.  Both
are the same cells (`members_circularRef`), and nothing below depends on their order.
-/
import Recalc.Proofs.Graph.Builder
import Recalc.Proofs.Graph.Plan
import Recalc.Workbook.Report

open Relation

namespace Recalc

namespace Graph

/-- An edge leads from cell `u` to cell `v`. -/
def Adj (g : Graph) (u v : Nat) : Prop := ∃ e ∈ g.edges, e.source = u ∧ e.target = v

/-- The cells of a step. -/
def members (g : Graph) : Step → List Nat
  | .node id => [id]
  | .cycle index => (g.cycles[index]?.map CircularRef.members).getD []

/-- Cell `v` belongs to the `i`-th step. -/
def StepOf (g : Graph) (v i : Nat) : Prop :=
  ∃ step, g.schedule[i]? = some step ∧ v ∈ g.members step

/-- What the schedule of a graph owes its edges. -/
structure WellScheduled (g : Graph) : Prop where
  /-- Every cell belongs to exactly one step, alone or as a member of a listed cycle. -/
  covers : ∀ v < g.nodes.size, ∃! i, g.StepOf v i
  /-- A step lists cells of the graph, each once. -/
  members_nodup : ∀ step ∈ g.schedule, (g.members step).Nodup ∧
    ∀ v ∈ g.members step, v < g.nodes.size
  /-- Every listed cycle is scheduled once, and no other number is. -/
  cycle_once : ∀ k, g.schedule.count (.cycle k) = if k < g.cycles.length then 1 else 0
  /-- An edge between different steps leads forward. -/
  forward : ∀ e ∈ g.edges, ∀ i j, g.StepOf e.source i → g.StepOf e.target j → i ≠ j → i < j
  /-- The topological order lists the single cells of the schedule. -/
  order : g.topologicalOrder = g.schedule.filterMap Step.node?
  /-- A single cell has no edge to itself. -/
  no_self_edge : ∀ v, .node v ∈ g.schedule → ∀ e ∈ g.edges, e.source = v → e.target ≠ v

theorem mem_coordinates {g : Graph} {ids : List Nat} {c : Coordinate} :
    c ∈ g.coordinates ids ↔ ∃ v ∈ ids, ∃ n, g.node? v = some n ∧ n.coordinate = c := by
  simp only [coordinates, nodesOf, List.mem_map, List.mem_filterMap]
  grind

end Graph

namespace GraphBuilder

open Adjacency

variable {b : GraphBuilder} {u v i : Nat}

/-! ### The cells and edges of a built graph -/

theorem size_nodes_build (b : GraphBuilder) : b.build.nodes.size = b.withImplicit.cells.size := by
  simp [build]

theorem map_cell_node?_build (b : GraphBuilder) (id : Nat) :
    (b.build.node? id).map Node.cell = b.withImplicit.cells[id]? := by
  simp [build, Graph.node?, Function.comp_def]

theorem cell_of_node? {n : Node} (hn : b.build.node? v = some n) :
    b.withImplicit.cells[v]? = some n.cell := by
  rw [← map_cell_node?_build, hn]
  rfl

/-- A cell is numbered by its place. -/
theorem id_of_node? {n : Node} (hn : b.build.node? v = some n) : n.id = v := by
  simp only [Graph.node?, build, Array.getElem?_mapIdx, Option.map_eq_some_iff] at hn
  obtain ⟨cell, -, rfl⟩ := hn
  rfl

theorem nodeId?_coordinate {n : Node} (h : b.Indexed) (hn : b.build.node? v = some n) :
    b.build.nodeId? n.coordinate = some v := by
  refine (h.withImplicit n.coordinate v).mpr ?_
  rw [cell_of_node? hn]
  rfl

/-- The number of a coordinate is that of a cell there. -/
theorem exists_node?_of_nodeId? (h : b.Indexed) {c : Coordinate}
    (hid : b.build.nodeId? c = some v) : ∃ n, b.build.node? v = some n ∧ n.coordinate = c := by
  have hcell := (h.withImplicit c v).mp hid
  rw [← map_cell_node?_build, Option.map_map] at hcell
  exact Option.map_eq_some_iff.mp hcell

/-- A coordinate has one number. -/
theorem number_unique (h : b.Indexed) {m n : Node} (hm : b.build.node? u = some m)
    (hn : b.build.node? v = some n) (heq : m.coordinate = n.coordinate) : u = v := by
  have hnumber := nodeId?_coordinate h hm
  rw [heq, nodeId?_coordinate h hn] at hnumber
  exact (Option.some.inj hnumber).symm

theorem nodup_coordinates (h : b.Indexed) {ids : List Nat} (hids : ids.Nodup) :
    (b.build.coordinates ids).Nodup := by
  rw [Graph.coordinates, Graph.nodesOf, List.map_filterMap]
  refine List.Nodup.filterMap (fun v w c hv hw => ?_) hids
  obtain ⟨m, hm, rfl⟩ := Option.map_eq_some_iff.mp hv
  obtain ⟨n, hn, heq⟩ := Option.map_eq_some_iff.mp hw
  exact number_unique h hm hn heq.symm

theorem size_dependents_build (b : GraphBuilder) :
    b.build.dependents.size = b.build.nodes.size := by
  rw [size_nodes_build]
  exact size_ofPairs _ _

theorem adj_build_iff (h : b.Indexed) : b.build.Adj u v ↔ b.withImplicit.Refers u v :=
  exists_edge_iff h.withImplicit

theorem adj_lt_size (h : b.Indexed) (hadj : b.build.Adj u v) :
    u < b.build.nodes.size ∧ v < b.build.nodes.size := by
  obtain ⟨source, target, hu, hv, -⟩ := (adj_build_iff h).mp hadj
  rw [size_nodes_build]
  exact ⟨(Array.getElem?_eq_some_iff.mp hu).1, (Array.getElem?_eq_some_iff.mp hv).1⟩

theorem adj_dependents_build (h : b.Indexed) :
    b.build.dependents.Adj u v ↔ b.build.Adj u v := by
  have hpairs : (u, v) ∈ b.build.edges.map (fun e => (e.source, e.target)) ↔ b.build.Adj u v := by
    simp [Graph.Adj]
  have hdependents : b.build.dependents.Adj u v ↔
      u < b.withImplicit.size ∧ (u, v) ∈ b.build.edges.map fun e => (e.source, e.target) :=
    adj_ofPairs
  rw [hdependents, hpairs]
  refine ⟨fun hadj => hadj.2, fun hadj => ⟨?_, hadj⟩⟩
  have hlt := (adj_lt_size h hadj).1
  rwa [size_nodes_build] at hlt

theorem adj_dependents_build_eq (h : b.Indexed) : b.build.dependents.Adj = b.build.Adj := by
  funext u v
  exact propext (adj_dependents_build h)

theorem closed_dependents_build (h : b.Indexed) : b.build.dependents.Closed := by
  intro u v hadj
  rw [size_dependents_build]
  exact (adj_lt_size h ((adj_dependents_build h).mp hadj)).2

/-- What depends on some cells is what edges lead to from them. -/
theorem mem_forwardReachable (h : b.Indexed) {starts : List Nat} :
    v ∈ b.build.forwardReachable starts ↔ ∃ s ∈ starts, TransGen b.build.Adj s v := by
  rw [Graph.forwardReachable, mem_reachable (closed_dependents_build h), adj_dependents_build_eq h]

/-! ### Members of cycles -/

theorem map_fst_found {cells : Array GraphCell} {ms : List Nat} (hms : ∀ id ∈ ms, id < cells.size) :
    (ms.filterMap fun id => cells[id]?.map fun cell => (id, cell)).map Prod.fst = ms := by
  induction ms with
  | nil => rfl
  | cons id ms ih =>
      have hid : id < cells.size := hms id List.mem_cons_self
      rw [List.filterMap_cons, Array.getElem?_eq_getElem hid]
      simp [ih fun x hx => hms x (List.mem_cons_of_mem _ hx)]

theorem members_circularRef {cells : Array GraphCell} {ms : List Nat}
    (hms : ∀ id ∈ ms, id < cells.size) : (circularRef cells ms).members.Perm ms := by
  have hperm := (List.mergeSort_perm
    (ms.filterMap fun id => cells[id]?.map fun cell => (id, cell))
    fun p q => p.2.coordinate.le q.2.coordinate).map Prod.fst
  rw [map_fst_found hms] at hperm
  exact hperm

/-! ### Steps are groups -/

/-- The groups of the edges of a built graph. -/
def groups (b : GraphBuilder) : List (List Nat) := Plan.groups b.build.dependents

theorem plan_build (h : b.Indexed) :
    Plan.ofAdjacency b.build.dependents = Plan.steps b.build.dependents 0 b.groups :=
  Plan.ofAdjacency_eq_steps (closed_dependents_build h)

theorem schedule_build (h : b.Indexed) :
    b.build.schedule = (Plan.steps b.build.dependents 0 b.groups).schedule := by
  rw [← plan_build h]
  rfl

theorem cycles_build (h : b.Indexed) :
    b.build.cycles = (b.groups.filter (Plan.isCycle b.build.dependents)).map
      (circularRef b.withImplicit.cells) := by
  rw [← Plan.cycles_steps, ← plan_build h]
  rfl

theorem mem_flatten_groups_build (h : b.Indexed) :
    v ∈ b.groups.flatten ↔ v < b.build.nodes.size := by
  rw [groups, Plan.mem_flatten_groups (closed_dependents_build h), size_dependents_build]

theorem lt_of_mem_group (h : b.Indexed) {g : List Nat} (hg : g ∈ b.groups) (hv : v ∈ g) :
    v < b.build.nodes.size :=
  (mem_flatten_groups_build h).mp (List.mem_flatten.mpr ⟨g, hg, hv⟩)

theorem nodup_flatten_groups_build (h : b.Indexed) : b.groups.flatten.Nodup :=
  Plan.nodup_flatten_groups (closed_dependents_build h)

/-- A step of the graph has the members that it has in the plan. -/
theorem members_build_perm (h : b.Indexed) (step : Step) :
    (b.build.members step).Perm ((Plan.ofAdjacency b.build.dependents).members step) := by
  cases step with
  | node id => exact List.Perm.refl _
  | cycle k =>
      simp only [Graph.members, Plan.members, cycles_build h, plan_build h, Plan.cycles_steps,
        List.getElem?_map, Option.map_map]
      cases hk : (b.groups.filter (Plan.isCycle b.build.dependents))[k]? with
      | none => exact List.Perm.refl _
      | some g =>
          have hg := List.mem_of_mem_filter (List.mem_of_getElem? hk)
          refine members_circularRef fun id hid => ?_
          rw [← size_nodes_build]
          exact lt_of_mem_group h hg hid

theorem map_members_plan (h : b.Indexed) :
    b.build.schedule.map (Plan.ofAdjacency b.build.dependents).members = b.groups := by
  have hcycles : (Plan.ofAdjacency b.build.dependents).cycles =
      [] ++ (Plan.steps b.build.dependents 0 b.groups).cycles := by
    rw [plan_build h, List.nil_append]
  rw [schedule_build h]
  exact Plan.map_members_steps rfl hcycles

theorem members_mem_groups (h : b.Indexed) {step : Step}
    (hstep : step ∈ b.build.schedule) :
    (Plan.ofAdjacency b.build.dependents).members step ∈ b.groups := by
  rw [← map_members_plan h]
  exact List.mem_map_of_mem hstep

/-- **Steps are groups.** -/
theorem stepOf_iff (h : b.Indexed) :
    b.build.StepOf v i ↔ ∃ g, b.groups[i]? = some g ∧ v ∈ g := by
  rw [← map_members_plan h]
  simp only [Graph.StepOf, List.getElem?_map, Option.map_eq_some_iff, exists_exists_and_eq_and]
  exact exists_congr fun step => and_congr_right fun _ => (members_build_perm h step).mem_iff

/-! ### Every cell has one step -/

theorem existsUnique_stepOf (h : b.Indexed) (hv : v < b.build.nodes.size) :
    ∃! i, b.build.StepOf v i := by
  obtain ⟨g, hg, hvg⟩ := List.mem_flatten.mp ((mem_flatten_groups_build h).mpr hv)
  obtain ⟨i, hi⟩ := List.mem_iff_getElem?.mp hg
  refine ⟨i, (stepOf_iff h).mpr ⟨g, hi, hvg⟩, fun j hj => ?_⟩
  obtain ⟨g', hj', hvg'⟩ := (stepOf_iff h).mp hj
  exact Plan.index_unique (nodup_flatten_groups_build h) hj' hi hvg' hvg

theorem members_build (h : b.Indexed) {step : Step} (hstep : step ∈ b.build.schedule) :
    (b.build.members step).Nodup ∧ ∀ v ∈ b.build.members step, v < b.build.nodes.size := by
  have hperm := members_build_perm h step
  have hmem := members_mem_groups h hstep
  constructor
  · rw [hperm.nodup_iff]
    exact (List.nodup_flatten.mp (nodup_flatten_groups_build h)).1 _ hmem
  · intro v hv
    exact lt_of_mem_group h hmem (hperm.mem_iff.mp hv)

theorem members_ne_nil (h : b.Indexed) {step : Step}
    (hstep : step ∈ b.build.schedule) :
    b.build.members step ≠ [] := by
  intro hnil
  have hperm := members_build_perm h step
  rw [hnil] at hperm
  exact Plan.ne_nil_of_mem_groups (closed_dependents_build h) (members_mem_groups h hstep)
    hperm.symm.eq_nil

/-- Edges between different steps lead forward. -/
theorem stepOf_lt_of_adj (h : b.Indexed) {j : Nat} (hadj : b.build.Adj u v)
    (hi : b.build.StepOf u i) (hj : b.build.StepOf v j) (hne : i ≠ j) : i < j := by
  obtain ⟨g, hgi, hu⟩ := (stepOf_iff h).mp hi
  obtain ⟨g', hgj, hv⟩ := (stepOf_iff h).mp hj
  have hnodup := nodup_flatten_groups_build h
  obtain ⟨hlt, heq⟩ := List.getElem?_eq_some_iff.mp hgj
  have hsplit : b.groups = b.groups.take j ++ g' :: b.groups.drop (j + 1) := by
    rw [← heq, List.getElem_cons_drop, List.take_append_drop]
  have hadj' := (adj_dependents_build h).mpr hadj
  rcases Plan.groups_ordered (closed_dependents_build h) hsplit hv hadj' with hin | hin
  · exact absurd (Plan.index_unique hnodup hgi hgj hu hin) hne
  · -- the group of `u` is among those before the group of `v`
    obtain ⟨g'', hg'', hu''⟩ := List.mem_flatten.mp hin
    obtain ⟨k, hk⟩ := List.mem_iff_getElem?.mp hg''
    have hkj : k < j := by
      have hk' := (List.getElem?_eq_some_iff.mp hk).1
      rw [List.length_take] at hk'
      omega
    rw [List.getElem?_take_of_lt hkj] at hk
    rw [Plan.index_unique hnodup hgi hk hu hu'']
    exact hkj

/-! ### Every cycle is scheduled once -/

theorem cycleIds_build (h : b.Indexed) :
    b.build.schedule.filterMap Step.cycle? = List.range b.build.cycles.length := by
  rw [schedule_build h, Plan.cycleIds_steps, cycles_build h, Plan.cycles_steps, List.length_map,
    List.range_eq_range']

theorem count_cycle (schedule : List Step) (k : Nat) :
    schedule.count (.cycle k) = (schedule.filterMap Step.cycle?).count k := by
  induction schedule with
  | nil => rfl
  | cons step schedule ih =>
      cases step with
      | node id => rw [List.count_cons_of_ne (by simp), List.filterMap_cons_none rfl, ih]
      | cycle index => simp [Step.cycle?, List.count_cons, ih]

theorem count_cycle_build (h : b.Indexed) (k : Nat) :
    b.build.schedule.count (.cycle k) = if k < b.build.cycles.length then 1 else 0 := by
  rw [count_cycle, cycleIds_build h, List.count_range]

theorem not_adj_self_of_node (h : b.Indexed) (hnode : .node v ∈ b.build.schedule) :
    ¬ b.build.Adj v v := by
  rw [schedule_build h] at hnode
  rw [← adj_dependents_build h]
  exact (Plan.node_mem_steps hnode).2

/-! ### The schedule -/

/-- Cells are accepted exactly if no two have one coordinate. -/
theorem exists_foldlM_add_iff {cells : List GraphCell} :
    (∃ b, cells.foldlM add empty = .ok b) ↔ (cells.map GraphCell.coordinate).Nodup := by
  have key : ∀ {b : GraphBuilder}, (∃ b', cells.foldlM add b = .ok b') ↔
      (cells.map GraphCell.coordinate).Nodup ∧
        ∀ cell ∈ cells, b.index.contains cell.coordinate = false := by
    induction cells with
    | nil => intro b; simp [pure, Except.pure]
    | cons cell cells ih =>
        intro b
        have hfresh : ∀ c, (b.push cell).index.contains c = false ↔
            cell.coordinate ≠ c ∧ b.index.contains c = false := by
          intro c
          simp [GraphBuilder.push, Std.TreeMap.contains_insert]
        rw [List.foldlM_cons]
        by_cases hnew : b.index.contains cell.coordinate
        · simp [add, hnew, bind, Except.bind]
        · have hadd : b.add cell = .ok (b.push cell) := by simp [add, hnew]
          simp only [hadd, bind, Except.bind, ih, hfresh, List.map_cons, List.nodup_cons,
            List.mem_map, List.forall_mem_cons, not_exists, not_and]
          have hself : b.index.contains cell.coordinate = false := Bool.eq_false_iff.mpr hnew
          constructor
          · rintro ⟨hnodup, hall⟩
            exact ⟨⟨fun d hd heq => (hall d hd).1 heq.symm, hnodup⟩, hself,
              fun d hd => (hall d hd).2⟩
          · rintro ⟨⟨hout, hnodup⟩, -, hall⟩
            exact ⟨hnodup, fun d hd => ⟨fun heq => hout d hd heq.symm, hall d hd⟩⟩
  rw [key]
  simp [empty]

/-- **The schedule of a built graph is sound**, whatever cells it was built from. -/
theorem wellScheduled_build {cells : List GraphCell} (h : cells.foldlM add empty = .ok b) :
    b.build.WellScheduled := by
  have hidx := (indexed_of_foldlM indexed_empty h).1
  refine ⟨fun v hv => existsUnique_stepOf hidx hv, fun step => members_build hidx,
    count_cycle_build hidx, ?_, rfl, ?_⟩
  · intro e he i j hi hj hne
    exact stepOf_lt_of_adj hidx ⟨e, he, rfl, rfl⟩ hi hj hne
  · intro v hnode e he hsource htarget
    exact not_adj_self_of_node hidx hnode ⟨e, he, hsource, htarget⟩

/-- An input, a loop of two cells that reads it, a cell behind the loop and an unreadable one. -/
def loopCells : List GraphCell :=
  let place (column : Nat) : Coordinate := ⟨"S", column, 1⟩
  let refer (column : Nat) : Expr := .reference ⟨.cell (place column), none⟩
  [ .input (place 1),
    ⟨place 2, .formula, some (refer 3), false, none⟩,
    ⟨place 3, .formula, some (.binary .add (refer 2) (refer 1)), false, none⟩,
    ⟨place 4, .output, some (refer 3), false, none⟩,
    ⟨place 5, .formula, none, true, none⟩ ]

theorem wellScheduled_loopCells :
    ∃ b, loopCells.foldlM add empty = .ok b ∧ b.build.WellScheduled := by
  obtain ⟨b, hb⟩ := exists_foldlM_add_iff.mpr
    (show (loopCells.map GraphCell.coordinate).Nodup by decide)
  exact ⟨b, hb, wellScheduled_build hb⟩

end GraphBuilder

end Recalc
