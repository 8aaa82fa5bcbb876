/-
Recalc/Proofs/Graph/Clusters.lean

Clusters of a built graph.  An edge joins cells of one cluster, so a step of the schedule
lies in one cluster with all its members, and the schedule of a cluster holds exactly the
steps of the cells that the cluster contains:

    c.contains v = true ↔ ∃ step ∈ c.schedule, v ∈ g.members step.

Design.  A step is handed to the cluster of its first member.  That this is the cluster
of every member is the only place where the classes of united edges are looked into.
-/
import Recalc.Proofs.Graph.Cycles
import Recalc.Proofs.Graph.DisjointSets

open Relation

namespace Recalc

/-- The cluster of a cell. -/
def Graph.clusterOf? (g : Graph) (v : Nat) : Option Nat := (g.node? v).map Node.cluster

namespace GraphBuilder

variable {b : GraphBuilder} {u v : Nat} {c : Cluster} {step : Step}

/-! ### Clusters and edges -/

/-- The classes of the cells that edges connect. -/
def classes (b : GraphBuilder) : List Nat :=
  (DisjointSets.ofPairs b.withImplicit.size
    (b.withImplicit.edges.map fun e => (e.source, e.target))).classes

theorem clusterOf?_build (hv : v < b.build.nodes.size) :
    b.build.clusterOf? v = some (b.classes[v]?.getD 0) := by
  rw [size_nodes_build] at hv
  simp [Graph.clusterOf?, Graph.node?, build, hv]
  rfl

theorem lt_size_of_mem_pairs (h : b.Indexed) :
    ∀ p ∈ b.withImplicit.edges.map (fun e => (e.source, e.target)),
      p.1 < b.withImplicit.size ∧ p.2 < b.withImplicit.size := by
  intro p hp
  obtain ⟨e, he, rfl⟩ := List.mem_map.mp hp
  have hlt := adj_lt_size h (⟨e, he, rfl, rfl⟩ : b.build.Adj e.source e.target)
  rwa [size_nodes_build] at hlt

theorem length_classes (h : b.Indexed) : b.classes.length = b.build.nodes.size := by
  rw [size_nodes_build]
  exact DisjointSets.length_classes_ofPairs (lt_size_of_mem_pairs h)

/-- An edge stays in one cluster. -/
theorem clusterOf?_eq_of_adj (h : b.Indexed) (hadj : b.build.Adj u v) :
    b.build.clusterOf? u = b.build.clusterOf? v := by
  obtain ⟨hu, hv⟩ := adj_lt_size h hadj
  have hclass : b.classes[u]? = b.classes[v]? := by
    refine (DisjointSets.classes_ofPairs (lt_size_of_mem_pairs h) ?_ ?_).mpr (.rel _ _ ?_)
    · rwa [size_nodes_build] at hu
    · rwa [size_nodes_build] at hv
    · obtain ⟨e, he, rfl, rfl⟩ := hadj
      exact List.mem_map.mpr ⟨e, he, rfl⟩
  rw [clusterOf?_build hu, clusterOf?_build hv, hclass]

theorem clusterOf?_eq_of_reaches (h : b.Indexed) (hpath : ReflTransGen b.build.Adj u v) :
    b.build.clusterOf? u = b.build.clusterOf? v := by
  induction hpath with
  | refl => rfl
  | tail _ hadj ih => exact ih.trans (clusterOf?_eq_of_adj h hadj)

/-! ### Clusters and steps -/

/-- All members of a step are in one cluster. -/
theorem clusterOf?_eq_of_step (h : b.Indexed) (hstep : step ∈ b.build.schedule)
    (hu : u ∈ b.build.members step) (hv : v ∈ b.build.members step) :
    b.build.clusterOf? u = b.build.clusterOf? v := by
  rw [(members_build_perm h step).mem_iff] at hu hv
  have hmutual := (mutual_iff_of_mem_group h (members_mem_groups h hstep) hu).mp hv
  exact clusterOf?_eq_of_reaches h hmutual.1

theorem clusters_build (b : GraphBuilder) : b.build.clusters =
    (List.range ((b.classes.map (· + 1)).foldl max 0)).map
      (cluster b.build.nodes (Plan.ofAdjacency b.build.dependents)) := by
  simp only [build, classes]

theorem eq_cluster_of_mem (hc : c ∈ b.build.clusters) :
    c = cluster b.build.nodes (Plan.ofAdjacency b.build.dependents) c.id := by
  rw [clusters_build] at hc
  obtain ⟨id, -, hid⟩ := List.mem_map.mp hc
  have heq : id = c.id := congrArg Cluster.id hid
  rw [← heq, hid]

/-- A cluster takes the steps whose first member it holds. -/
theorem id_cluster (nodes : Array Node) (plan : Plan) (k : Nat) : (cluster nodes plan k).id = k :=
  rfl

theorem schedule_cluster (nodes : Array Node) (plan : Plan) (k : Nat) :
    (cluster nodes plan k).schedule = plan.schedule.filter fun step =>
      ((plan.members step).head?.bind fun v => nodes[v]?.map Node.cluster) == some k :=
  rfl

theorem schedule_eq_filter (hc : c ∈ b.build.clusters) :
    c.schedule = b.build.schedule.filter fun step =>
      ((Plan.ofAdjacency b.build.dependents).members step).head?.bind b.build.clusterOf? ==
        some c.id := by
  have hschedule : b.build.schedule = (Plan.ofAdjacency b.build.dependents).schedule := by
    simp only [build]
  rw [eq_cluster_of_mem hc, hschedule, schedule_cluster, id_cluster]
  rfl

theorem schedule_sublist (hc : c ∈ b.build.clusters) :
    c.schedule.Sublist b.build.schedule := by
  rw [schedule_eq_filter hc]
  exact List.filter_sublist

/-- A cluster has the steps of the schedule whose members are in it. -/
theorem mem_schedule_iff (h : b.Indexed) (hc : c ∈ b.build.clusters)
    (hv : v ∈ b.build.members step) :
    step ∈ c.schedule ↔ step ∈ b.build.schedule ∧ b.build.clusterOf? v = some c.id := by
  rw [schedule_eq_filter hc, List.mem_filter, beq_iff_eq]
  refine and_congr_right fun hstep => ?_
  have hv' := (members_build_perm h step).mem_iff.mp hv
  cases hhead : ((Plan.ofAdjacency b.build.dependents).members step).head? with
  | none =>
    rw [List.head?_eq_none_iff.mp hhead] at hv'
    exact absurd hv' List.not_mem_nil
  | some w =>
    -- the first member stands for all of them
    have hw := (members_build_perm h step).mem_iff.mpr (List.mem_of_mem_head? hhead)
    rw [Option.bind_some, clusterOf?_eq_of_step h hstep hw hv]

/-! ### The cells of a cluster -/

theorem mem_part_iff {p : Part} {id : Nat} :
    v ∈ ((b.build.nodes.toList.filter (·.cluster == id)).filter (partOf · == p)).map Node.id ↔
      ∃ node, b.build.node? v = some node ∧ node.cluster = id ∧ partOf node = p := by
  simp only [List.mem_map, List.mem_filter, beq_iff_eq, Array.mem_toList_iff, Graph.node?]
  constructor
  · rintro ⟨node, ⟨⟨hnode, hcluster⟩, hpart⟩, rfl⟩
    obtain ⟨w, hw⟩ := Array.mem_iff_getElem?.mp hnode
    rw [id_of_node? hw]
    exact ⟨node, hw, hcluster, hpart⟩
  · rintro ⟨node, hnode, hcluster, hpart⟩
    exact ⟨node, ⟨⟨Array.mem_of_getElem? hnode, hcluster⟩, hpart⟩, id_of_node? hnode⟩

/-- A cluster contains the cells that name it. -/
theorem contains_iff_clusterOf? (hc : c ∈ b.build.clusters) :
    c.contains v = true ↔ b.build.clusterOf? v = some c.id := by
  have hparts : c.contains v = true ↔
      ∃ p, ∃ node, b.build.node? v = some node ∧ node.cluster = c.id ∧ partOf node = p := by
    rw [eq_cluster_of_mem hc, Cluster.contains]
    simp only [cluster, Bool.or_eq_true, List.contains_iff_mem, mem_part_iff]
    constructor
    · rintro ((hin | hout) | hmid)
      · exact ⟨_, hin⟩
      · exact ⟨_, hout⟩
      · exact ⟨_, hmid⟩
    · rintro ⟨p, hp⟩
      cases p with
      | inputs => exact .inl (.inl hp)
      | outputs => exact .inl (.inr hp)
      | intermediates => exact .inr hp
  rw [hparts, Graph.clusterOf?, Option.map_eq_some_iff]
  constructor
  · rintro ⟨p, node, hnode, hcluster, -⟩
    exact ⟨node, hnode, hcluster⟩
  · rintro ⟨node, hnode, hcluster⟩
    exact ⟨partOf node, node, hnode, hcluster, rfl⟩

/-- What a cell of a cluster refers to is in the cluster. -/
theorem contains_of_adj (h : b.Indexed) (hc : c ∈ b.build.clusters) (hadj : b.build.Adj u v) :
    c.contains u = true ↔ c.contains v = true := by
  rw [contains_iff_clusterOf? hc, contains_iff_clusterOf? hc, clusterOf?_eq_of_adj h hadj]

/-- **Every cell is in one cluster.** -/
theorem existsUnique_cluster (h : b.Indexed) (hv : v < b.build.nodes.size) :
    ∃! c, c ∈ b.build.clusters ∧ c.contains v = true := by
  have hlength := length_classes h
  have hget : b.classes[v]? = some (b.classes[v]?.getD 0) := by
    rw [List.getElem?_eq_getElem (hlength.symm ▸ hv)]
    rfl
  -- the numbers of the clusters go up to the greatest class
  have hlt : b.classes[v]?.getD 0 < (b.classes.map (· + 1)).foldl max 0 := by
    have hmem : b.classes[v]?.getD 0 + 1 ∈ 0 :: b.classes.map (· + 1) :=
      List.mem_cons_of_mem _ (List.mem_map_of_mem (List.mem_of_getElem? hget))
    exact List.le_max_of_mem hmem
  have hown : cluster b.build.nodes (Plan.ofAdjacency b.build.dependents)
      (b.classes[v]?.getD 0) ∈ b.build.clusters := by
    rw [clusters_build]
    exact List.mem_map_of_mem (List.mem_range.mpr hlt)
  refine ⟨_, ⟨hown, ?_⟩, ?_⟩
  · rw [contains_iff_clusterOf? hown, clusterOf?_build hv, id_cluster]
  · rintro c ⟨hc, hcontains⟩
    rw [contains_iff_clusterOf? hc, clusterOf?_build hv, Option.some.injEq] at hcontains
    rw [eq_cluster_of_mem hc, ← hcontains]

/-- **The schedule of a cluster has the steps of its cells.** -/
theorem contains_iff_exists_step (h : b.Indexed) (hc : c ∈ b.build.clusters) :
    c.contains v = true ↔ ∃ step ∈ c.schedule, v ∈ b.build.members step := by
  rw [contains_iff_clusterOf? hc]
  constructor
  · intro hcluster
    have hv : v < b.build.nodes.size := by
      obtain ⟨node, hnode, -⟩ := Option.map_eq_some_iff.mp hcluster
      exact (Array.getElem?_eq_some_iff.mp hnode).1
    obtain ⟨i, ⟨step, hi, hmem⟩, -⟩ := existsUnique_stepOf h hv
    exact ⟨step, (mem_schedule_iff h hc hmem).mpr ⟨List.mem_of_getElem? hi, hcluster⟩, hmem⟩
  · rintro ⟨step, hstep, hmem⟩
    exact ((mem_schedule_iff h hc hmem).mp hstep).2

end GraphBuilder

end Recalc
