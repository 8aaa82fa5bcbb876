/-
Recalc/Proofs/Graph/Partition.lean

The clusters of a built graph are its weak components.  Two cells have one cluster
exactly if edges connect them, whichever way the edges lead,

    node u and node v in one cluster ↔ EqvGen g.Adj u v,

and the inputs, outputs and intermediate cells of all clusters together list every cell
once.  What a cell is listed as depends on its role and on the edges that leave it.

Design.  A cluster takes the steps whose first member it holds.  The members of a step
are connected, so these are the steps that lie in the cluster with all their members.
-/
import Recalc.Proofs.Graph.Clusters
import Recalc.Proofs.Graph.Edges

open Relation

namespace Recalc

/-- The cells of a cluster. -/
def Cluster.cells (c : Cluster) : List Nat := c.inputs ++ c.outputs ++ c.intermediates

theorem Cluster.contains_iff_mem {c : Cluster} {v : Nat} : c.contains v = true ↔ v ∈ c.cells := by
  simp [contains, cells, or_assoc]

/-- What the clusters of a graph owe its nodes, edges and schedule. -/
structure Graph.Clustered (g : Graph) : Prop where
  /-- Cells have one cluster exactly if edges connect them, whichever way they lead. -/
  connected : ∀ u v node node', g.node? u = some node → g.node? v = some node' →
    (node.cluster = node'.cluster ↔ EqvGen g.Adj u v)
  /-- Clusters are numbered by their places. -/
  numbered : ∀ k (c : Cluster), g.clusters[k]? = some c → c.id = k
  /-- A cell is listed in the cluster that its node names, -/
  own : ∀ v node, g.node? v = some node → ∃ c, g.clusters[node.cluster]? = some c ∧ v ∈ c.cells
  /-- and nowhere else, and there once. -/
  once : (g.clusters.flatMap Cluster.cells).Perm (List.range g.nodes.size)
  /-- Cells are listed by their roles; a formula that nothing depends on is an output. -/
  inputs : ∀ c ∈ g.clusters, ∀ v, v ∈ c.inputs ↔
    ∃ node, g.node? v = some node ∧ node.cluster = c.id ∧ node.role = .input
  outputs : ∀ c ∈ g.clusters, ∀ v, v ∈ c.outputs ↔
    ∃ node, g.node? v = some node ∧ node.cluster = c.id ∧
      (node.role = .output ∨ node.role = .formula ∧ ∀ w, ¬ g.Adj v w)
  intermediates : ∀ c ∈ g.clusters, ∀ v, v ∈ c.intermediates ↔
    ∃ node, g.node? v = some node ∧ node.cluster = c.id ∧ node.role = .formula ∧ ∃ w, g.Adj v w
  /-- A cluster has the steps of the schedule that lie in it, in order. -/
  schedule : ∀ c ∈ g.clusters, c.schedule = g.schedule.filter fun step =>
    (g.members step).all c.contains
  /-- Every cycle lies in one cluster. -/
  cycle : ∀ r ∈ g.cycles, ∃! c, c ∈ g.clusters ∧ ∀ v ∈ r.members, v ∈ c.cells

namespace GraphBuilder

variable {b : GraphBuilder} {u v : Nat} {c : Cluster} {node : Node}

/-! ### Connected cells -/

/-- **Cells have one cluster exactly if edges connect them.** -/
theorem clusterOf?_eq_iff (h : b.Indexed) (hu : u < b.build.nodes.size)
    (hv : v < b.build.nodes.size) :
    b.build.clusterOf? u = b.build.clusterOf? v ↔ EqvGen b.build.Adj u v := by
  have hlength := length_classes h
  have hclass : b.classes[u]? = b.classes[v]? ↔ EqvGen b.build.Adj u v := by
    have hadj : (fun x y => (x, y) ∈ b.withImplicit.edges.map fun e => (e.source, e.target)) =
        b.build.Adj := by
      funext x y
      simp only [List.mem_map, Prod.mk.injEq]
      rfl
    rw [size_nodes_build] at hu hv
    rw [← hadj]
    exact DisjointSets.classes_ofPairs (lt_size_of_mem_pairs h) hu hv
  rw [← hclass, clusterOf?_build hu, clusterOf?_build hv,
    List.getElem?_eq_getElem (hlength.symm ▸ hu), List.getElem?_eq_getElem (hlength.symm ▸ hv)]
  rfl

/-! ### The lists of a cluster -/

theorem getElem?_clusters_build {k : Nat} (hk : b.build.clusters[k]? = some c) : c.id = k := by
  rw [clusters_build, List.getElem?_map, Option.map_eq_some_iff] at hk
  obtain ⟨i, hi, rfl⟩ := hk
  exact (List.getElem?_eq_some_iff.mp hi).2 ▸ List.getElem_range _

theorem isEmpty_dependents_iff (hnode : b.build.node? v = some node) :
    node.dependents.isEmpty = true ↔ ∀ w, ¬ b.build.Adj v w := by
  rw [List.isEmpty_iff, List.eq_nil_iff_forall_not_mem]
  exact forall_congr' fun w => not_congr (mem_dependents_iff hnode)

/-- The part of a cell, by its role and the edges that leave it. -/
theorem partOf_build (hnode : b.build.node? v = some node) :
    (partOf node = .inputs ↔ node.role = .input) ∧
      (partOf node = .outputs ↔
        node.role = .output ∨ node.role = .formula ∧ ∀ w, ¬ b.build.Adj v w) ∧
      (partOf node = .intermediates ↔ node.role = .formula ∧ ∃ w, b.build.Adj v w) := by
  have hleaves := isEmpty_dependents_iff hnode
  unfold partOf
  cases node.role with
  | input => simp
  | output => simp
  | formula =>
    by_cases hempty : node.dependents.isEmpty = true
    · simp [hempty, hleaves.mp hempty]
    · have hsome : ∃ w, b.build.Adj v w := by
        rw [hleaves] at hempty
        exact not_forall_not.mp hempty
      simp [hempty, hsome]

/-- The cells of one part of a cluster. -/
theorem mem_parts_iff (hc : c ∈ b.build.clusters) (v : Nat) :
    (v ∈ c.inputs ↔ ∃ node, b.build.node? v = some node ∧ node.cluster = c.id ∧
        partOf node = .inputs) ∧
      (v ∈ c.outputs ↔ ∃ node, b.build.node? v = some node ∧ node.cluster = c.id ∧
        partOf node = .outputs) ∧
      (v ∈ c.intermediates ↔ ∃ node, b.build.node? v = some node ∧ node.cluster = c.id ∧
        partOf node = .intermediates) := by
  rw [eq_cluster_of_mem hc]
  exact ⟨mem_part_iff, mem_part_iff, mem_part_iff⟩

/-- A cell that is no input is among the intermediate cells or the outputs of its cluster. -/
theorem mem_later_iff (hc : c ∈ b.build.clusters) (hnode : b.build.node? v = some node)
    (hrole : node.role ≠ .input) :
    v ∈ c.intermediates ++ c.outputs ↔ node.cluster = c.id := by
  obtain ⟨-, houtputs, hintermediates⟩ := mem_parts_iff hc v
  rw [List.mem_append, houtputs, hintermediates]
  constructor
  · rintro (⟨node', hnode', hcluster, -⟩ | ⟨node', hnode', hcluster, -⟩) <;>
      exact Option.some.inj (hnode.symm.trans hnode') ▸ hcluster
  · intro hcluster
    cases hpart : partOf node with
    | inputs => exact absurd ((partOf_build hnode).1.mp hpart) hrole
    | outputs => exact .inr ⟨node, hnode, hcluster, hpart⟩
    | intermediates => exact .inl ⟨node, hnode, hcluster, hpart⟩

/-! ### Every cell once -/

theorem mem_cells_iff (hc : c ∈ b.build.clusters) :
    v ∈ c.cells ↔ b.build.clusterOf? v = some c.id := by
  rw [← Cluster.contains_iff_mem, contains_iff_clusterOf? hc]

theorem map_id_nodes_build (b : GraphBuilder) :
    b.build.nodes.toList.map Node.id = List.range b.build.nodes.size := by
  apply List.ext_getElem
  · simp
  · intro v hv _
    have hsize : v < b.build.nodes.size := by simpa using hv
    rw [List.getElem_map, List.getElem_range]
    exact id_of_node? (Array.getElem?_eq_getElem hsize)

/-- No two cells of the graph are in one place. -/
theorem nodup_map_coordinate (h : b.Indexed) :
    (b.build.nodes.toList.map Node.coordinate).Nodup := by
  have hnodup := h.withImplicit.nodup_coordinates
  rwa [← map_cell_nodes_build, List.map_map] at hnodup

/-- A part of a cluster lists cells of the graph, in order. -/
theorem nodup_part (b : GraphBuilder) (k : Nat) (p : Part) :
    (((b.build.nodes.toList.filter (·.cluster == k)).filter (partOf · == p)).map Node.id).Nodup := by
  have hnodup : (b.build.nodes.toList.map Node.id).Nodup := by
    rw [map_id_nodes_build]
    exact List.nodup_range
  exact hnodup.sublist ((List.filter_sublist.trans List.filter_sublist).map Node.id)

/-- No cell is listed twice in a cluster. -/
theorem nodup_cells (hc : c ∈ b.build.clusters) : c.cells.Nodup := by
  have hnodup : c.inputs.Nodup ∧ c.outputs.Nodup ∧ c.intermediates.Nodup := by
    rw [eq_cluster_of_mem hc]
    exact ⟨nodup_part b _ _, nodup_part b _ _, nodup_part b _ _⟩
  -- a cell has one node, and a node one part
  have hdisjoint : ∀ v, ¬ (v ∈ c.inputs ∧ v ∈ c.outputs) ∧
      ¬ ((v ∈ c.inputs ∨ v ∈ c.outputs) ∧ v ∈ c.intermediates) := by
    intro v
    obtain ⟨hin, hout, hmid⟩ := mem_parts_iff hc v
    rw [hin, hout, hmid]
    cases b.build.node? v with
    | none => simp
    | some node => cases hpart : partOf node <;> simp [hpart]
  simp only [Cluster.cells, List.nodup_append, List.mem_append]
  refine ⟨⟨hnodup.1, hnodup.2.1, ?_⟩, hnodup.2.2, ?_⟩
  · rintro v hin w hout rfl
    exact (hdisjoint v).1 ⟨hin, hout⟩
  · rintro v hv w hmid rfl
    exact (hdisjoint v).2 ⟨hv, hmid⟩

theorem nodup_ids_clusters (b : GraphBuilder) : (b.build.clusters.map Cluster.id).Nodup := by
  have hrange : b.build.clusters.map Cluster.id =
      List.range ((b.classes.map (· + 1)).foldl max 0) := by
    rw [clusters_build, List.map_map]
    exact List.map_id _
  rw [hrange]
  exact List.nodup_range

/-- No cell is listed in two clusters. -/
theorem nodup_flatMap_cells (b : GraphBuilder) : (b.build.clusters.flatMap Cluster.cells).Nodup := by
  rw [List.nodup_flatMap]
  refine ⟨fun c hc => nodup_cells hc, ?_⟩
  refine (List.pairwise_map.mp (nodup_ids_clusters b)).imp_of_mem ?_
  intro c c' hc hc' hne v hv hv'
  rw [mem_cells_iff hc] at hv
  rw [mem_cells_iff hc', hv, Option.some.injEq] at hv'
  exact hne hv'

theorem flatMap_cells_perm (h : b.Indexed) :
    (b.build.clusters.flatMap Cluster.cells).Perm (List.range b.build.nodes.size) := by
  apply (List.perm_ext_iff_of_nodup (nodup_flatMap_cells b) List.nodup_range).mpr
  intro v
  rw [List.mem_flatMap, List.mem_range]
  constructor
  · rintro ⟨c, hc, hv⟩
    rw [mem_cells_iff hc, Graph.clusterOf?, Option.map_eq_some_iff] at hv
    obtain ⟨node, hnode, -⟩ := hv
    exact (Array.getElem?_eq_some_iff.mp hnode).1
  · intro hv
    obtain ⟨c, ⟨hc, hcontains⟩, -⟩ := existsUnique_cluster h hv
    exact ⟨c, hc, Cluster.contains_iff_mem.mp hcontains⟩

/-! ### Steps and cycles -/

/-- A cluster has the steps that lie in it with all their members. -/
theorem schedule_eq_filter_all (h : b.Indexed) (hc : c ∈ b.build.clusters) :
    c.schedule = b.build.schedule.filter fun step => (b.build.members step).all c.contains := by
  rw [schedule_eq_filter hc]
  apply List.filter_congr
  intro step hstep
  obtain ⟨x, hx⟩ := List.exists_mem_of_ne_nil _ (members_ne_nil h hstep)
  have howner := mem_schedule_iff h hc hx
  rw [schedule_eq_filter hc, List.mem_filter] at howner
  apply Bool.eq_iff_iff.mpr
  rw [List.all_eq_true]
  constructor
  · intro hown v hv
    rw [contains_iff_clusterOf? hc, ← clusterOf?_eq_of_step h hstep hx hv]
    exact (howner.mp ⟨hstep, hown⟩).2
  · intro hall
    exact (howner.mpr ⟨hstep, (contains_iff_clusterOf? hc).mp (hall x hx)⟩).2

/-- **A cycle lies in one cluster.** -/
theorem existsUnique_cluster_of_cycle (h : b.Indexed) {r : CircularRef}
    (hr : r ∈ b.build.cycles) :
    ∃! c, c ∈ b.build.clusters ∧ ∀ v ∈ r.members, v ∈ c.cells := by
  obtain ⟨k, hk⟩ := List.mem_iff_getElem?.mp hr
  have hmembers : b.build.members (.cycle k) = r.members := by simp [Graph.members, hk]
  have hstep : .cycle k ∈ b.build.schedule := by
    apply List.count_pos_iff.mp
    rw [count_cycle_build h, if_pos (List.getElem?_eq_some_iff.mp hk).1]
    exact Nat.one_pos
  -- any member names the cluster
  obtain ⟨x, hx⟩ := List.exists_mem_of_ne_nil _ (members_ne_nil h hstep)
  obtain ⟨c, ⟨hc, hcx⟩, hunique⟩ := existsUnique_cluster h ((members_build h hstep).2 x hx)
  refine ⟨c, ⟨hc, ?_⟩, ?_⟩
  · intro v hv
    rw [← hmembers] at hv
    rw [mem_cells_iff hc, ← clusterOf?_eq_of_step h hstep hx hv]
    exact (contains_iff_clusterOf? hc).mp hcx
  · rintro c' ⟨hc', hall⟩
    exact hunique c' ⟨hc', Cluster.contains_iff_mem.mpr (hall x (hmembers ▸ hx))⟩

/-- **Clusters are the weak components**, whatever cells the graph was built from. -/
theorem clustered_build {cells : List GraphCell} (h : cells.foldlM add empty = .ok b) :
    b.build.Clustered := by
  obtain ⟨hidx, -⟩ := indexed_of_foldlM indexed_empty h
  refine ⟨?connected, fun k c hk => getElem?_clusters_build hk, ?own, flatMap_cells_perm hidx,
    ?inputs, ?outputs, ?intermediates, fun c hc => schedule_eq_filter_all hidx hc,
    fun r hr => existsUnique_cluster_of_cycle hidx hr⟩
  case connected =>
    intro u v node node' hu hv
    rw [← clusterOf?_eq_iff hidx (Array.getElem?_eq_some_iff.mp hu).1
      (Array.getElem?_eq_some_iff.mp hv).1, Graph.clusterOf?, Graph.clusterOf?, hu, hv]
    simp
  case own =>
    intro v node hnode
    obtain ⟨c, ⟨hc, hcontains⟩, -⟩ :=
      existsUnique_cluster hidx (Array.getElem?_eq_some_iff.mp hnode).1
    obtain ⟨k, hk⟩ := List.mem_iff_getElem?.mp hc
    have hcluster : node.cluster = c.id := by
      rw [contains_iff_clusterOf? hc, Graph.clusterOf?, hnode, Option.map_some] at hcontains
      exact Option.some.inj hcontains
    refine ⟨c, ?_, Cluster.contains_iff_mem.mp hcontains⟩
    rw [hcluster, getElem?_clusters_build hk, hk]
  case inputs =>
    intro c hc v
    rw [(mem_parts_iff hc v).1]
    refine exists_congr fun node => and_congr_right fun hnode => and_congr_right fun _ => ?_
    exact (partOf_build hnode).1
  case outputs =>
    intro c hc v
    rw [(mem_parts_iff hc v).2.1]
    refine exists_congr fun node => and_congr_right fun hnode => and_congr_right fun _ => ?_
    exact (partOf_build hnode).2.1
  case intermediates =>
    intro c hc v
    rw [(mem_parts_iff hc v).2.2]
    refine exists_congr fun node => and_congr_right fun hnode => and_congr_right fun _ => ?_
    exact (partOf_build hnode).2.2

theorem clustered_loopCells : ∃ b, loopCells.foldlM add empty = .ok b ∧ b.build.Clustered := by
  obtain ⟨b, hb⟩ := exists_foldlM_add_iff.mpr
    (show (loopCells.map GraphCell.coordinate).Nodup by decide)
  exact ⟨b, hb, clustered_build hb⟩

end GraphBuilder

end Recalc
