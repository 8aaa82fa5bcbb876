/-
Recalc/Proofs/Graph/Renumbering.lean

A graph does not depend on the order of its cells.  Cells are numbered as they are given,
cycles in the order they are taken, and clusters by their first cells; so giving the same
cells in another order changes every number and the order of every list, and nothing
else.  Told by coordinates, both graphs have the same nodes, edges, cycles and clusters
(`alike_build_of_perm`).

Design.  `renumber b b'` takes the number of a cell in one graph to its number in the
other.  It maps edges to edges, so it carries paths, connections and chains along; by
symmetry it carries them back.  Each list of a graph is then compared as a set, after it
was shown to have no duplicates.
-/
import Recalc.Proofs.Graph.Depth
import Recalc.Proofs.Graph.Partition

open Relation

namespace Recalc

/-! ### Graphs told by coordinates -/

/-- What a node tells without numbers. -/
structure Node.Profile where
  /-- The coordinate, the role, the formula, and whether the formula could be read. -/
  cell : GraphCell
  implicit : Bool
  inDegree : Nat
  outDegree : Nat
  depth : Option Nat

/-- A node without numbers. -/
def Node.profile (n : Node) : Profile :=
  ⟨n.cell, n.implicit, n.inDegree, n.outDegree, n.depth⟩

/-- The cells of one part of a cluster. -/
def Cluster.part (c : Cluster) : GraphBuilder.Part → List Nat
  | .inputs => c.inputs
  | .outputs => c.outputs
  | .intermediates => c.intermediates

namespace Graph

/-- The coordinate of a cell. -/
def coordinateOf? (g : Graph) (v : Nat) : Option Coordinate := (g.node? v).map Node.coordinate

/-- The node at a coordinate. -/
def nodeAt? (g : Graph) (c : Coordinate) : Option Node := (g.nodeId? c).bind g.node?

/-- An edge with the coordinates of its ends. -/
def placedEdge (g : Graph) (e : Edge) : Option Coordinate × Option Coordinate × EdgeKind :=
  (g.coordinateOf? e.source, g.coordinateOf? e.target, e.kind)

/-- A cycle with the coordinates of its members, as they are listed, and its limits. -/
def placedCycle (g : Graph) (r : CircularRef) :
    List Coordinate × List Coordinate × Option Iteration :=
  (g.coordinates r.members, r.cycle, r.iteration)

/-- The inputs, the outputs and the intermediate cells of a cluster, as sets of coordinates. -/
def placedCluster (g : Graph) (c : Cluster) :
    List Coordinate × List Coordinate × List Coordinate :=
  (Coordinate.sort (g.coordinates c.inputs), Coordinate.sort (g.coordinates c.outputs),
    Coordinate.sort (g.coordinates c.intermediates))

/-- Graphs that differ in numbers, and in the order of what they list, and in nothing else. -/
structure Alike (g g' : Graph) : Prop where
  nodes : (g.nodes.toList.map Node.profile).Perm (g'.nodes.toList.map Node.profile)
  /-- The same is found at each coordinate. -/
  found : ∀ c, (g.nodeAt? c).map Node.profile = (g'.nodeAt? c).map Node.profile
  edges : (g.edges.map g.placedEdge).Perm (g'.edges.map g'.placedEdge)
  cycles : (g.cycles.map g.placedCycle).Perm (g'.cycles.map g'.placedCycle)
  clusters : (g.clusters.map g.placedCluster).Perm (g'.clusters.map g'.placedCluster)

theorem placedCluster_eq_iff {g g' : Graph} {c c' : Cluster} :
    g.placedCluster c = g'.placedCluster c' ↔
      ∀ p, Coordinate.sort (g.coordinates (c.part p)) =
        Coordinate.sort (g'.coordinates (c'.part p)) := by
  simp only [placedCluster, Prod.mk.injEq]
  constructor
  · rintro ⟨hin, hout, hmid⟩ (_ | _ | _)
    · exact hin
    · exact hout
    · exact hmid
  · intro hparts
    exact ⟨hparts .inputs, hparts .outputs, hparts .intermediates⟩

end Graph

/-! ### The same cells -/

/-- Builders that were filled with the same cells, in whatever order. -/
structure GraphBuilder.SameCells (b b' : GraphBuilder) : Prop where
  indexed : b.Indexed
  indexed' : b'.Indexed
  given : b.cells.toList.Perm b'.cells.toList

/-- The same cells miss the same cells. -/
theorem GraphCell.missing_perm {cells cells' : List GraphCell} (h : cells.Perm cells') :
    (missing cells).Perm (missing cells') := by
  have hnodup (cells : List GraphCell) : (missing cells).Nodup := DisjointSets.nodup_eraseDups _
  refine (List.perm_ext_iff_of_nodup (hnodup cells) (hnodup cells')).mpr fun c => ?_
  simp only [mem_missing, h.mem_iff, (h.map coordinate).mem_iff]

namespace GraphBuilder

variable {b b' : GraphBuilder} {u v : Nat} {m n n' : Node}

namespace SameCells

theorem symm (h : SameCells b b') : SameCells b' b := ⟨h.indexed', h.indexed, h.given.symm⟩

/-- All cells of the graphs are the same, those that were not given among them. -/
theorem full (h : SameCells b b') :
    b.withImplicit.cells.toList.Perm b'.withImplicit.cells.toList := by
  rw [toList_cells_withImplicit h.indexed, toList_cells_withImplicit h.indexed']
  exact h.given.append ((GraphCell.missing_perm h.given).map GraphCell.input)

end SameCells

/-- The number in the second graph of a cell of the first one. -/
def renumber (b b' : GraphBuilder) (v : Nat) : Nat :=
  ((b.build.coordinateOf? v).bind b'.build.nodeId?).getD 0

namespace SameCells

variable (h : SameCells b b')
include h

/-- A cell keeps all but its number. -/
theorem exists_node?_renumber (hn : b.build.node? v = some n) :
    ∃ n', b'.build.node? (renumber b b' v) = some n' ∧ n'.cell = n.cell := by
  have hmem : n.cell ∈ b'.withImplicit.cells := by
    have hcell := Array.mem_of_getElem? (cell_of_node? hn)
    rwa [← Array.mem_toList_iff, h.full.mem_iff, Array.mem_toList_iff] at hcell
  obtain ⟨w, hw⟩ := Array.mem_iff_getElem?.mp hmem
  rw [← map_cell_node?_build] at hw
  obtain ⟨n', hn', hcell⟩ := Option.map_eq_some_iff.mp hw
  have hnumber : renumber b b' v = w := by
    have hplace : n.coordinate = n'.coordinate := congrArg GraphCell.coordinate hcell.symm
    rw [renumber, Graph.coordinateOf?, hn, Option.map_some, Option.bind_some, hplace,
      nodeId?_coordinate h.indexed' hn']
    rfl
  exact ⟨n', hnumber ▸ hn', hcell⟩

theorem renumber_renumber (hn : b.build.node? v = some n) :
    renumber b' b (renumber b b' v) = v := by
  obtain ⟨n', hn', hcell'⟩ := h.exists_node?_renumber hn
  obtain ⟨m, hm, hcell⟩ := h.symm.exists_node?_renumber hn'
  exact number_unique h.indexed hm hn (congrArg GraphCell.coordinate (hcell.trans hcell'))

/-- **An edge stays an edge.** -/
theorem adj_renumber (hadj : b.build.Adj u v) :
    b'.build.Adj (renumber b b' u) (renumber b b' v) := by
  obtain ⟨hu, hv⟩ := adj_lt_size h.indexed hadj
  obtain ⟨m', hm', hsource⟩ := h.exists_node?_renumber (Array.getElem?_eq_getElem hu)
  obtain ⟨n', hn', htarget⟩ := h.exists_node?_renumber (Array.getElem?_eq_getElem hv)
  rw [adj_build_iff h.indexed, Refers, cell_of_node? (Array.getElem?_eq_getElem hu),
    cell_of_node? (Array.getElem?_eq_getElem hv)] at hadj
  rw [adj_build_iff h.indexed', Refers, cell_of_node? hm', cell_of_node? hn', hsource, htarget]
  exact hadj

/-! ### Paths, connections and chains -/

theorem transGen_renumber_iff (hn : b.build.node? v = some n) :
    TransGen b'.build.Adj (renumber b b' v) (renumber b b' v) ↔ TransGen b.build.Adj v v := by
  refine ⟨fun hpath => ?_, fun hpath => hpath.lift (renumber b b') fun _ _ => h.adj_renumber⟩
  have hback : TransGen b.build.Adj (renumber b' b (renumber b b' v))
      (renumber b' b (renumber b b' v)) :=
    hpath.lift (renumber b' b) fun _ _ => h.symm.adj_renumber
  rwa [h.renumber_renumber hn] at hback

theorem reflTransGen_renumber_iff (hm : b.build.node? u = some m)
    (hn : b.build.node? v = some n) :
    ReflTransGen b'.build.Adj (renumber b b' u) (renumber b b' v) ↔
      ReflTransGen b.build.Adj u v := by
  refine ⟨fun hpath => ?_, fun hpath => hpath.lift (renumber b b') fun _ _ => h.adj_renumber⟩
  have hback : ReflTransGen b.build.Adj (renumber b' b (renumber b b' u))
      (renumber b' b (renumber b b' v)) :=
    hpath.lift (renumber b' b) fun _ _ => h.symm.adj_renumber
  rwa [h.renumber_renumber hm, h.renumber_renumber hn] at hback

theorem eqvGen_renumber (hpath : EqvGen b.build.Adj u v) :
    EqvGen b'.build.Adj (renumber b b' u) (renumber b b' v) := by
  induction hpath with
  | rel u v hadj => exact .rel _ _ (h.adj_renumber hadj)
  | refl u => exact .refl _
  | symm u v _ ih => exact .symm _ _ ih
  | trans u v w _ _ ih ih' => exact .trans _ _ _ ih ih'

theorem unitChain_renumber {k : Nat} (hchain : UnitChain b.build.Adj k v) :
    UnitChain b'.build.Adj k (renumber b b' v) := by
  refine hchain.map (f := renumber b b') (fun _ _ => h.adj_renumber) fun u w hadj hreach => ?_
  obtain ⟨hu, hw⟩ := adj_lt_size h.indexed hadj
  exact (h.reflTransGen_renumber_iff (Array.getElem?_eq_getElem hw)
    (Array.getElem?_eq_getElem hu)).mp hreach

theorem unitChain_renumber_iff (hn : b.build.node? v = some n) {k : Nat} :
    UnitChain b'.build.Adj k (renumber b b' v) ↔ UnitChain b.build.Adj k v := by
  refine ⟨fun hchain => ?_, h.unitChain_renumber⟩
  have hback := h.symm.unitChain_renumber hchain
  rwa [h.renumber_renumber hn] at hback

/-! ### Nodes -/

theorem implicit_eq (hn : b.build.node? v = some n)
    (hn' : b'.build.node? (renumber b b' v) = some n') (hcell : n'.cell = n.cell) :
    n'.implicit = n.implicit := by
  apply Bool.eq_iff_iff.mpr
  rw [implicit_iff h.indexed hn, implicit_iff h.indexed' hn', Node.coordinate, hcell,
    (h.given.map GraphCell.coordinate).mem_iff]
  rfl

/-- Different cells are carried to different cells. -/
theorem length_le_of_renumber {us ws : List Nat} (hlt : ∀ u ∈ us, u < b.build.nodes.size)
    (hnodup : us.Nodup) (hmem : ∀ u ∈ us, renumber b b' u ∈ ws) : us.length ≤ ws.length := by
  have hcarried : (us.map (renumber b b')).Nodup := by
    refine hnodup.map_on fun u hu w hw heq => ?_
    rw [← h.renumber_renumber (Array.getElem?_eq_getElem (hlt u hu)), heq,
      h.renumber_renumber (Array.getElem?_eq_getElem (hlt w hw))]
  have hle := (hcarried.subperm (List.forall_mem_map.mpr hmem)).length_le
  rwa [List.length_map] at hle

theorem degrees_le (hn : b.build.node? v = some n)
    (hn' : b'.build.node? (renumber b b' v) = some n') :
    n.inDegree ≤ n'.inDegree ∧ n.outDegree ≤ n'.outDegree := by
  obtain ⟨hpre, hdep⟩ := nodup_neighbours hn
  constructor
  · refine h.length_le_of_renumber (fun u hu => ?_) hpre fun u hu => ?_
    · exact (adj_lt_size h.indexed ((mem_precedents_iff hn).mp hu)).1
    · exact (mem_precedents_iff hn').mpr (h.adj_renumber ((mem_precedents_iff hn).mp hu))
  · refine h.length_le_of_renumber (fun u hu => ?_) hdep fun u hu => ?_
    · exact (adj_lt_size h.indexed ((mem_dependents_iff hn).mp hu)).2
    · exact (mem_dependents_iff hn').mpr (h.adj_renumber ((mem_dependents_iff hn).mp hu))

theorem depth_eq (hn : b.build.node? v = some n)
    (hn' : b'.build.node? (renumber b b' v) = some n') : n'.depth = n.depth := by
  have hcycle := h.transGen_renumber_iff hn
  have hchains : {k | UnitChain b'.build.Adj k (renumber b b' v)} =
      {k | UnitChain b.build.Adj k v} := Set.ext fun k => h.unitChain_renumber_iff hn
  -- a greatest length is unique, and both graphs have the same lengths
  rcases depth_build h.indexed hn with ⟨hon, hnone⟩ | ⟨hoff, d, hd, hgreatest⟩ <;>
    rcases depth_build h.indexed' hn' with ⟨hon', hnone'⟩ | ⟨hoff', d', hd', hgreatest'⟩
  · rw [hnone, hnone']
  · exact absurd (hcycle.mpr hon) hoff'
  · exact absurd (hcycle.mp hon') hoff
  · rw [hchains] at hgreatest'
    rw [hd, hd', hgreatest.unique hgreatest']

/-- **A node keeps all that it tells without numbers.** -/
theorem exists_node?_profile (hn : b.build.node? v = some n) :
    ∃ n', b'.build.node? (renumber b b' v) = some n' ∧ n'.profile = n.profile := by
  obtain ⟨n', hn', hcell⟩ := h.exists_node?_renumber hn
  have hle := h.degrees_le hn hn'
  have hback := h.renumber_renumber hn
  -- neighbours are carried both ways, so there are as many
  have hge := h.symm.degrees_le hn' (hback ▸ hn)
  refine ⟨n', hn', ?_⟩
  rw [Node.profile, Node.profile, hcell, h.implicit_eq hn hn' hcell, h.depth_eq hn hn',
    Nat.le_antisymm hge.1 hle.1, Nat.le_antisymm hge.2 hle.2]

theorem subset_profiles :
    b.build.nodes.toList.map Node.profile ⊆ b'.build.nodes.toList.map Node.profile := by
  refine List.forall_mem_map.mpr fun n hn => ?_
  obtain ⟨v, hv⟩ := Array.mem_iff_getElem?.mp (Array.mem_toList_iff.mp hn)
  obtain ⟨n', hn', hprofile⟩ := h.exists_node?_profile hv
  rw [← hprofile]
  exact List.mem_map_of_mem (Array.mem_toList_iff.mpr (Array.mem_of_getElem? hn'))

/-! ### Edges -/

theorem subset_placedEdges :
    b.build.edges.map b.build.placedEdge ⊆ b'.build.edges.map b'.build.placedEdge := by
  refine List.forall_mem_map.mpr fun e he => ?_
  obtain ⟨hsource, htarget⟩ := adj_lt_size h.indexed ⟨e, he, rfl, rfl⟩
  have hm := Array.getElem?_eq_getElem hsource
  have hn := Array.getElem?_eq_getElem htarget
  obtain ⟨m', hm', hmcell⟩ := h.exists_node?_renumber hm
  obtain ⟨n', hn', hncell⟩ := h.exists_node?_renumber hn
  obtain ⟨e', he', hsource', htarget'⟩ := h.adj_renumber ⟨e, he, rfl, rfl⟩
  -- the first reference to the source is found in the formula, whatever the numbers
  obtain ⟨r, hr, hkind⟩ := kind_of_mem_edges h.indexed.withImplicit he (cell_of_node? hm)
    (cell_of_node? hn)
  obtain ⟨r', hr', hkind'⟩ := kind_of_mem_edges h.indexed'.withImplicit he'
    (hsource' ▸ cell_of_node? hm') (htarget' ▸ cell_of_node? hn')
  rw [hmcell, hncell, hr] at hr'
  obtain rfl := Option.some.inj hr'
  refine List.mem_map.mpr ⟨e', he', ?_⟩
  simp only [Graph.placedEdge, Graph.coordinateOf?, Prod.mk.injEq]
  refine ⟨?_, ?_, ?_⟩
  · rw [hsource', hm', Option.map_some, Node.coordinate, hmcell]
    exact (congrArg (Option.map Node.coordinate) hm).symm
  · rw [htarget', hn', Option.map_some, Node.coordinate, hncell]
    exact (congrArg (Option.map Node.coordinate) hn).symm
  · rw [hkind, hkind', hncell]

end SameCells

/-! ### Cycles -/

section Cycles

variable {ms ms' : List Nat}

/-- The cells of some numbers, by coordinate. -/
def cellsOf (b : GraphBuilder) (ms : List Nat) : List GraphCell :=
  (byCoordinate b.withImplicit.cells ms).map Prod.snd

theorem mem_cellsOf {cell : GraphCell} :
    cell ∈ b.cellsOf ms ↔ ∃ v ∈ ms, b.withImplicit.cells[v]? = some cell := by
  simp only [cellsOf, byCoordinate, List.mem_map, List.mem_mergeSort, List.mem_filterMap,
    Option.map_eq_some_iff]
  constructor
  · rintro ⟨p, ⟨v, hv, cell, hcell, rfl⟩, rfl⟩
    exact ⟨v, hv, hcell⟩
  · rintro ⟨v, hv, hcell⟩
    exact ⟨(v, cell), ⟨v, hv, cell, hcell, rfl⟩, rfl⟩

theorem pairwise_le_cellsOf (b : GraphBuilder) (ms : List Nat) :
    (b.cellsOf ms).Pairwise fun c d => c.coordinate.le d.coordinate = true :=
  List.pairwise_map.mpr (pairwise_le_byCoordinate _ ms)

/-- A cycle with its limits is told by its cells. -/
theorem placedCycle_eq (hcells : b.cellsOf ms = b'.cellsOf ms') :
    b.build.placedCycle (circularRef b.withImplicit.cells ms) =
      b'.build.placedCycle (circularRef b'.withImplicit.cells ms') := by
  have hmembers (b : GraphBuilder) (ms : List Nat) :
      b.build.coordinates (circularRef b.withImplicit.cells ms).members =
        (b.cellsOf ms).map GraphCell.coordinate := by
    rw [cellsOf, ← map_cell_nodesOf_circularRef, List.map_map]
    rfl
  have hcycle (b : GraphBuilder) (ms : List Nat) :
      (circularRef b.withImplicit.cells ms).cycle = (b.cellsOf ms).map GraphCell.coordinate := by
    rw [cellsOf, List.map_map]
    rfl
  have hlimits (b : GraphBuilder) (ms : List Nat) :
      (byCoordinate b.withImplicit.cells ms).mapM (fun p => p.2.iteration) =
        (b.cellsOf ms).mapM GraphCell.iteration := by
    rw [cellsOf, List.mapM_map]
    rfl
  rw [Graph.placedCycle, Graph.placedCycle, hmembers, hmembers, hcycle, hcycle,
    iteration_circularRef_eq, iteration_circularRef_eq, hlimits, hlimits, hcells]

theorem nodup_coordinates_cellsOf (h : b.Indexed) (hg : ms ∈ b.cycleGroups) :
    ((b.cellsOf ms).map GraphCell.coordinate).Nodup := by
  have hlt := (listed_members h hg).2.2
  rw [cellsOf, List.map_map]
  refine hlt.imp fun hcompare heq => ?_
  rw [heq, Std.ReflOrd.compare_self] at hcompare
  cases hcompare

/-- No two listed cycles are the same. -/
theorem nodup_placedCycles (h : b.Indexed) : (b.build.cycles.map b.build.placedCycle).Nodup := by
  rw [cycles_build h, List.map_map]
  show (b.cycleGroups.map _).Nodup
  refine List.pairwise_map.mpr ((List.nodup_flatten.mp (nodup_flatten_cycleGroups h)).2.imp_of_mem ?_)
  intro g g' hg hg' hdisjoint heq
  obtain ⟨v, hv⟩ := List.exists_mem_of_ne_nil g
    (Plan.ne_nil_of_mem_groups (closed_dependents_build h) (List.mem_of_mem_filter hg))
  -- the coordinate of a member of one is that of a member of the other
  have hmembers := congrArg Prod.fst heq
  have hlt := lt_of_mem_group h (List.mem_of_mem_filter hg) hv
  have hmem : (b.build.nodes[v]).coordinate ∈
      b.build.coordinates (circularRef b.withImplicit.cells g).members :=
    Graph.mem_coordinates.mpr ⟨v, (members_circularRef_perm h hg).mem_iff.mpr hv, _,
      Array.getElem?_eq_getElem hlt, rfl⟩
  rw [show b.build.coordinates _ = b.build.coordinates _ from hmembers] at hmem
  obtain ⟨w, hw, m, hm, hcoordinate⟩ := Graph.mem_coordinates.mp hmem
  obtain rfl := number_unique h hm (Array.getElem?_eq_getElem hlt) hcoordinate
  exact hdisjoint hv ((members_circularRef_perm h hg').mem_iff.mp hw)

variable (h : SameCells b b')
include h

/-- Groups with a cell in common have the same cells. -/
theorem SameCells.cellsOf_subset (hg : ms ∈ b.groups) (hg' : ms' ∈ b'.groups) (hv : v ∈ ms)
    (hv' : renumber b b' v ∈ ms') : b.cellsOf ms ⊆ b'.cellsOf ms' := by
  intro cell hcell
  obtain ⟨w, hw, hat⟩ := mem_cellsOf.mp hcell
  rw [← map_cell_node?_build] at hat
  obtain ⟨n, hn, rfl⟩ := Option.map_eq_some_iff.mp hat
  obtain ⟨n', hn', hsame⟩ := h.exists_node?_renumber hn
  obtain ⟨hvw, hwv⟩ := (mutual_iff_of_mem_group h.indexed hg hv).mp hw
  refine mem_cellsOf.mpr ⟨renumber b b' w, ?_, hsame ▸ cell_of_node? hn'⟩
  exact (mutual_iff_of_mem_group h.indexed' hg' hv').mpr
    ⟨hvw.lift (renumber b b') fun _ _ => h.adj_renumber,
      hwv.lift (renumber b b') fun _ _ => h.adj_renumber⟩

theorem SameCells.cellsOf_eq (hg : ms ∈ b.cycleGroups) (hg' : ms' ∈ b'.cycleGroups) (hv : v ∈ ms)
    (hv' : renumber b b' v ∈ ms') : b.cellsOf ms = b'.cellsOf ms' := by
  have hgroup := List.mem_of_mem_filter hg
  have hgroup' := List.mem_of_mem_filter hg'
  have hback : renumber b' b (renumber b b' v) = v :=
    h.renumber_renumber (Array.getElem?_eq_getElem (lt_of_mem_group h.indexed hgroup hv))
  have hnodup := nodup_coordinates_cellsOf h.indexed hg
  have hperm : (b.cellsOf ms).Perm (b'.cellsOf ms') := by
    refine (List.perm_ext_iff_of_nodup hnodup.of_map
      (nodup_coordinates_cellsOf h.indexed' hg').of_map).mpr fun cell => ⟨?_, ?_⟩
    · exact fun hcell => h.cellsOf_subset hgroup hgroup' hv hv' hcell
    · exact fun hcell => h.symm.cellsOf_subset hgroup' hgroup hv' (hback.symm ▸ hv) hcell
  -- the same cells, both times by coordinate
  refine hperm.eq_of_pairwise ?_ (pairwise_le_cellsOf b ms) (pairwise_le_cellsOf b' ms')
  intro cell cell' hcell hcell' hle hge
  exact List.inj_on_of_nodup_map hnodup hcell (hperm.mem_iff.mpr hcell')
    (Coordinate.eq_of_le_of_le hle hge)

theorem SameCells.subset_placedCycles :
    b.build.cycles.map b.build.placedCycle ⊆ b'.build.cycles.map b'.build.placedCycle := by
  refine List.forall_mem_map.mpr fun r hr => ?_
  obtain ⟨g, hg, rfl⟩ := (mem_cycles_build h.indexed).mp hr
  have hgroup := List.mem_of_mem_filter hg
  obtain ⟨v, hv⟩ := List.exists_mem_of_ne_nil g
    (Plan.ne_nil_of_mem_groups (closed_dependents_build h.indexed) hgroup)
  have hcycle : TransGen b'.build.Adj (renumber b b' v) (renumber b b' v) :=
    (transGen_of_mem_cycleGroups h.indexed hg hv).lift (renumber b b') fun _ _ => h.adj_renumber
  obtain ⟨k, g', hk, hv'⟩ := exists_cycleGroup h.indexed' hcycle
  have hg' := List.mem_of_getElem? hk
  rw [placedCycle_eq (h.cellsOf_eq hg hg' hv hv')]
  exact List.mem_map_of_mem ((mem_cycles_build h.indexed').mpr ⟨g', hg', rfl⟩)

end Cycles

/-! ### Clusters -/

section Clusters

variable {c c' : Cluster} {p : Part}

theorem mem_clusterPart_iff (hc : c ∈ b.build.clusters) :
    v ∈ c.part p ↔ ∃ n, b.build.node? v = some n ∧ n.cluster = c.id ∧ partOf n = p := by
  obtain ⟨hin, hout, hmid⟩ := mem_parts_iff hc v
  cases p with
  | inputs => exact hin
  | outputs => exact hout
  | intermediates => exact hmid

theorem mem_cells_iff_exists_part (hc : c ∈ b.build.clusters) :
    v ∈ c.cells ↔ ∃ p, v ∈ c.part p := by
  rw [mem_cells_iff hc, Graph.clusterOf?, Option.map_eq_some_iff]
  simp only [mem_clusterPart_iff hc]
  constructor
  · rintro ⟨n, hn, hcluster⟩
    exact ⟨partOf n, n, hn, hcluster, rfl⟩
  · rintro ⟨p, n, hn, hcluster, -⟩
    exact ⟨n, hn, hcluster⟩

theorem nodup_clusterPart (hc : c ∈ b.build.clusters) (p : Part) : (c.part p).Nodup := by
  rw [eq_cluster_of_mem hc]
  cases p <;> exact nodup_part b _ _

/-- No cluster is empty. -/
theorem exists_mem_cells (h : b.Indexed) (hc : c ∈ b.build.clusters) : ∃ v, v ∈ c.cells := by
  have hrange := hc
  rw [clusters_build] at hrange
  obtain ⟨k, hk, heq⟩ := List.mem_map.mp hrange
  have hid : c.id = k := (congrArg Cluster.id heq).symm
  rw [List.mem_range] at hk
  -- classes are counted without gaps, so the number is the class of some cell
  have hclass : k ∈ b.classes := by
    rcases Plan.foldl_max_eq_zero_or_mem (b.classes.map (· + 1)) with hzero | hmax
    · rw [hzero] at hk
      exact absurd hk (Nat.not_lt_zero k)
    · obtain ⟨m, hm, hsucc⟩ := List.mem_map.mp hmax
      rw [← hsucc] at hk
      exact DisjointSets.mem_classes_of_le hm (Nat.lt_succ_iff.mp hk)
  obtain ⟨v, hv⟩ := List.mem_iff_getElem?.mp hclass
  have hlt : v < b.build.nodes.size := length_classes h ▸ (List.getElem?_eq_some_iff.mp hv).1
  refine ⟨v, (mem_cells_iff hc).mpr ?_⟩
  rw [clusterOf?_build hlt, hv, hid]
  rfl

/-- No two clusters are the same. -/
theorem nodup_placedClusters (h : b.Indexed) :
    (b.build.clusters.map b.build.placedCluster).Nodup := by
  refine List.pairwise_map.mpr ((List.pairwise_map.mp (nodup_ids_clusters b)).imp_of_mem ?_)
  intro c c' hc hc' hne heq
  obtain ⟨v, hv⟩ := exists_mem_cells h hc
  obtain ⟨p, hp⟩ := (mem_cells_iff_exists_part hc).mp hv
  obtain ⟨n, hn, -⟩ := (mem_clusterPart_iff hc).mp hp
  have hmem : n.coordinate ∈ Coordinate.sort (b.build.coordinates (c.part p)) :=
    List.mem_mergeSort.mpr (Graph.mem_coordinates.mpr ⟨v, hp, n, hn, rfl⟩)
  rw [Graph.placedCluster_eq_iff.mp heq p] at hmem
  obtain ⟨w, hw, m, hm, hcoordinate⟩ := Graph.mem_coordinates.mp (List.mem_mergeSort.mp hmem)
  -- the cell would be in both clusters
  obtain rfl := number_unique h hm hn hcoordinate
  have hv' := (mem_cells_iff hc').mp ((mem_cells_iff_exists_part hc').mpr ⟨p, hw⟩)
  rw [(mem_cells_iff hc).mp hv, Option.some.injEq] at hv'
  exact hne hv'

/-- The part of a cell is told without numbers. -/
theorem partOf_eq_of_profile (hprofile : n'.profile = n.profile) : partOf n' = partOf n := by
  have hrole : n'.role = n.role := congrArg (fun q => q.cell.role) hprofile
  have hdegree : n'.dependents.length = n.dependents.length :=
    congrArg Node.Profile.outDegree hprofile
  have hempty : n'.dependents.isEmpty = n.dependents.isEmpty := by
    apply Bool.eq_iff_iff.mpr
    rw [List.isEmpty_iff_length_eq_zero, List.isEmpty_iff_length_eq_zero, hdegree]
  rw [partOf, partOf, hrole, hempty]

variable (h : SameCells b b')
include h

/-- Clusters with a cell in common have the same cells in each part. -/
theorem SameCells.coordinates_part_subset (hc : c ∈ b.build.clusters)
    (hc' : c' ∈ b'.build.clusters) (hv : v ∈ c.cells) (hv' : renumber b b' v ∈ c'.cells) :
    b.build.coordinates (c.part p) ⊆ b'.build.coordinates (c'.part p) := by
  intro x hx
  obtain ⟨w, hw, n, hn, rfl⟩ := Graph.mem_coordinates.mp hx
  obtain ⟨n', hn', hprofile⟩ := h.exists_node?_profile hn
  obtain ⟨m, hm, hcluster, hpart⟩ := (mem_clusterPart_iff hc).mp hw
  obtain rfl := Option.some.inj (hm.symm.trans hn)
  have hcell : n'.cell = m.cell := congrArg Node.Profile.cell hprofile
  -- both cells are in the cluster of the common one, so edges connect them
  have hlt {b : GraphBuilder} {u k : Nat} (hu : b.build.clusterOf? u = some k) :
      u < b.build.nodes.size := by
    obtain ⟨n, hn, -⟩ := Option.map_eq_some_iff.mp hu
    exact (Array.getElem?_eq_some_iff.mp hn).1
  have hown : b.build.clusterOf? w = some c.id := by
    rw [Graph.clusterOf?, hm, Option.map_some, hcluster]
  rw [mem_cells_iff hc] at hv
  rw [mem_cells_iff hc'] at hv'
  have hconnected : EqvGen b.build.Adj v w :=
    (clusterOf?_eq_iff h.indexed (hlt hv) (hlt hown)).mp (hv.trans hown.symm)
  have hown' : b'.build.clusterOf? (renumber b b' w) = some c'.id := by
    rw [← hv']
    refine ((clusterOf?_eq_iff h.indexed' (hlt hv') ?_).mpr (h.eqvGen_renumber hconnected)).symm
    exact (Array.getElem?_eq_some_iff.mp hn').1
  refine Graph.mem_coordinates.mpr ⟨renumber b b' w, ?_, n', hn', congrArg GraphCell.coordinate hcell⟩
  refine (mem_clusterPart_iff hc').mpr ⟨n', hn', ?_, (partOf_eq_of_profile hprofile).trans hpart⟩
  rw [Graph.clusterOf?, hn', Option.map_some, Option.some.injEq] at hown'
  exact hown'

theorem SameCells.subset_placedClusters :
    b.build.clusters.map b.build.placedCluster ⊆
      b'.build.clusters.map b'.build.placedCluster := by
  refine List.forall_mem_map.mpr fun c hc => ?_
  obtain ⟨v, hv⟩ := exists_mem_cells h.indexed hc
  obtain ⟨p, hp⟩ := (mem_cells_iff_exists_part hc).mp hv
  obtain ⟨n, hn, -⟩ := (mem_clusterPart_iff hc).mp hp
  obtain ⟨n', hn', -⟩ := h.exists_node?_renumber hn
  obtain ⟨c', ⟨hc', hcontains⟩, -⟩ :=
    existsUnique_cluster h.indexed' (Array.getElem?_eq_some_iff.mp hn').1
  have hv' := Cluster.contains_iff_mem.mp hcontains
  have hback : renumber b' b (renumber b b' v) ∈ c.cells := by rwa [h.renumber_renumber hn]
  refine List.mem_map.mpr ⟨c', hc', (Graph.placedCluster_eq_iff.mpr fun p => ?_).symm⟩
  have hperm : (b.build.coordinates (c.part p)).Perm (b'.build.coordinates (c'.part p)) :=
    (List.perm_ext_iff_of_nodup (nodup_coordinates h.indexed (nodup_clusterPart hc p))
      (nodup_coordinates h.indexed' (nodup_clusterPart hc' p))).mpr fun x =>
        ⟨fun hx => h.coordinates_part_subset hc hc' hv hv' hx,
          fun hx => h.symm.coordinates_part_subset hc' hc hv' hback hx⟩
  refine Coordinate.eq_of_perm_of_pairwise_le ?_ (Coordinate.pairwise_le_sort _)
    (Coordinate.pairwise_le_sort _)
  exact (List.mergeSort_perm _ _).trans (hperm.trans (List.mergeSort_perm _ _).symm)

end Clusters

/-! ### Lists without duplicates -/

theorem nodup_profiles (h : b.Indexed) : (b.build.nodes.toList.map Node.profile).Nodup := by
  refine List.Nodup.of_map (fun q => q.cell.coordinate) ?_
  rw [List.map_map]
  exact nodup_map_coordinate h

theorem nodup_placedEdges (h : b.Indexed) : (b.build.edges.map b.build.placedEdge).Nodup := by
  have hends : (b.build.edges.map fun e => (e.source, e.target)).Nodup :=
    nodup_edges b.withImplicit
  have hinj {u v : Nat} (hu : u < b.build.nodes.size)
      (heq : b.build.coordinateOf? u = b.build.coordinateOf? v) : u = v := by
    rw [Graph.coordinateOf?, Graph.node?, Array.getElem?_eq_getElem hu, Option.map_some] at heq
    obtain ⟨n, hn, hcoordinate⟩ := Option.map_eq_some_iff.mp heq.symm
    exact number_unique h (Array.getElem?_eq_getElem hu) hn hcoordinate.symm
  refine hends.of_map.map_on fun e he e' he' heq => ?_
  obtain ⟨hsource, htarget⟩ := adj_lt_size h ⟨e, he, rfl, rfl⟩
  simp only [Graph.placedEdge, Prod.mk.injEq] at heq
  refine List.inj_on_of_nodup_map hends he he' ?_
  rw [Prod.mk.injEq]
  exact ⟨hinj hsource heq.1, hinj htarget heq.2.1⟩

/-- What has no duplicates and is kept in one direction is kept in both. -/
theorem SameCells.perm {α : Type} (h : SameCells b b') (list : GraphBuilder → List α)
    (hnodup : ∀ {b}, b.Indexed → (list b).Nodup)
    (hsubset : ∀ {b b'}, SameCells b b' → list b ⊆ list b') : (list b).Perm (list b') :=
  (List.perm_ext_iff_of_nodup (hnodup h.indexed) (hnodup h.indexed')).mpr fun _ =>
    ⟨fun hx => hsubset h hx, fun hx => hsubset h.symm hx⟩

theorem nodeAt?_eq_some_iff (h : b.Indexed) {c : Coordinate} :
    b.build.nodeAt? c = some n ↔ ∃ v, b.build.node? v = some n ∧ n.coordinate = c := by
  rw [Graph.nodeAt?, Option.bind_eq_some_iff]
  constructor
  · rintro ⟨v, hv, hn⟩
    obtain ⟨m, hm, hcoordinate⟩ := exists_node?_of_nodeId? h hv
    obtain rfl := Option.some.inj (hm.symm.trans hn)
    exact ⟨v, hm, hcoordinate⟩
  · rintro ⟨v, hn, rfl⟩
    exact ⟨v, nodeId?_coordinate h hn, hn⟩

theorem SameCells.nodeAt?_of_some (h : SameCells b b') {c : Coordinate}
    (hn : b.build.nodeAt? c = some n) :
    (b'.build.nodeAt? c).map Node.profile = some n.profile := by
  obtain ⟨v, hv, hcoordinate⟩ := (nodeAt?_eq_some_iff h.indexed).mp hn
  obtain ⟨n', hn', hprofile⟩ := h.exists_node?_profile hv
  have hcell : n'.cell = n.cell := congrArg Node.Profile.cell hprofile
  refine Option.map_eq_some_iff.mpr ⟨n', (nodeAt?_eq_some_iff h.indexed').mpr ⟨_, hn', ?_⟩, hprofile⟩
  rw [← hcoordinate, Node.coordinate, hcell]
  rfl

theorem SameCells.alike (h : SameCells b b') : b.build.Alike b'.build where
  nodes := h.perm (fun b => b.build.nodes.toList.map Node.profile) nodup_profiles subset_profiles
  found c := by
    cases hn : b.build.nodeAt? c with
    | some n => exact (h.nodeAt?_of_some hn).symm
    | none =>
      cases hn' : b'.build.nodeAt? c with
      | none => rfl
      | some n' =>
        have hback := h.symm.nodeAt?_of_some hn'
        rw [hn] at hback
        cases hback
  edges := h.perm (fun b => b.build.edges.map b.build.placedEdge) nodup_placedEdges
    subset_placedEdges
  cycles := h.perm (fun b => b.build.cycles.map b.build.placedCycle) nodup_placedCycles
    subset_placedCycles
  clusters := h.perm (fun b => b.build.clusters.map b.build.placedCluster) nodup_placedClusters
    subset_placedClusters

/-- **The order of the cells does not matter**: cells with different coordinates make a graph, and
in another order they make the same one. -/
theorem alike_build_of_perm {cells cells' : List GraphCell} (hperm : cells.Perm cells')
    (hnodup : (cells.map GraphCell.coordinate).Nodup) :
    ∃ b b', cells.foldlM add empty = .ok b ∧ cells'.foldlM add empty = .ok b' ∧
      b.build.Alike b'.build := by
  obtain ⟨b, hb⟩ := exists_foldlM_add_iff.mpr hnodup
  obtain ⟨b', hb'⟩ := exists_foldlM_add_iff.mpr ((hperm.map GraphCell.coordinate).nodup hnodup)
  obtain ⟨hindexed, hcells⟩ := indexed_of_foldlM indexed_empty hb
  obtain ⟨hindexed', hcells'⟩ := indexed_of_foldlM indexed_empty hb'
  refine ⟨b, b', hb, hb', SameCells.alike ⟨hindexed, hindexed', ?_⟩⟩
  rw [hcells, hcells']
  simpa [empty] using hperm

/-- A loop of two cells that may be repeated, a cell that reads it, a range that has a cell which is
not given, and an input that nothing refers to. -/
def settlingCells : List GraphCell :=
  let place (column row : Nat) : Coordinate := ⟨"S", column, row⟩
  let refer (target : Target) : Expr := .reference ⟨target, none⟩
  [ ⟨place 2 1, .formula, some (refer (.cell (place 2 2))), false, some ⟨100, 0.001⟩⟩,
    ⟨place 2 2, .formula, some (.binary .add (refer (.cell (place 2 1))) (refer (.cell (place 1 2)))),
      false, some ⟨50, 0.1⟩⟩,
    .input (place 1 1),
    ⟨place 3 1, .output, some (.binary .add (refer (.range ⟨place 1 1, place 1 3⟩))
      (refer (.cell (place 2 2)))), false, none⟩,
    .input (place 5 5) ]

theorem alike_settlingCells : (settlingCells.map GraphCell.coordinate).Nodup ∧
    ∃ b b', settlingCells.foldlM add empty = .ok b ∧
      settlingCells.reverse.foldlM add empty = .ok b' ∧ b.build.Alike b'.build :=
  ⟨by decide, alike_build_of_perm (List.reverse_perm settlingCells).symm (by decide)⟩

end GraphBuilder

end Recalc
