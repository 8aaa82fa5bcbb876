/-
Recalc/Proofs/Graph/Edges.lean

Edges are exactly the references.  The cells of a built graph are the given ones, in
order, and behind them an input for each single cell that is referred to and not given;
an edge leads from `u` to `v` exactly if the formula of `v` refers to the coordinate of
`u`.  It is there once, and its kind is that of the first such reference:

    (u, kind) ∈ firstLinks [] links → links.find? (·.1 == u) = some (u, kind).

A range is looked up in the part of the index between its corners.  Rows come before
columns in the order of coordinates, so a rectangle lies between its corners, and that part
has all that the whole index has in the range (`filter_between`).
-/
import Recalc.Proofs.Cell.Range
import Recalc.Proofs.Graph.Schedule
import Mathlib.Data.List.Nodup
import Std.Data.TreeMap.Slice

namespace Recalc

/-- A reference on a sheet makes edges of a kind: named ones if it was written as a name,
else edges across sheets if it points at another sheet, else those of its target. -/
def Reference.Makes (r : Reference) (sheet : String) : EdgeKind → Prop
  | .named => r.name ≠ none
  | .crossSheet => r.name = none ∧ r.target.sheet ≠ sheet
  | .direct => r.name = none ∧ r.target.sheet = sheet ∧ ∃ c, r.target = .cell c
  | .range => r.name = none ∧ r.target.sheet = sheet ∧ ∃ range, r.target = .range range

theorem Reference.makes_ofReference (r : Reference) (sheet : String) :
    r.Makes sheet (EdgeKind.ofReference r sheet) := by
  obtain ⟨target, name⟩ := r
  cases name with
  | some name => exact Option.some_ne_none name
  | none =>
    by_cases hsheet : target.sheet = sheet
    · cases target with
      | cell c => simp_all [EdgeKind.ofReference, Makes]
      | range r => simp_all [EdgeKind.ofReference, Makes]
    · simp_all [EdgeKind.ofReference, Makes]

namespace GraphCell

/-- The single cells that formulas refer to, in order. -/
def mentioned (cells : List GraphCell) : List Coordinate :=
  (cells.flatMap references).filterMap fun r => r.target.cell?

/-- The cells that are mentioned and not given, each at its first mention. -/
def missing (cells : List GraphCell) : List Coordinate :=
  ((mentioned cells).filter fun c => !(cells.map coordinate).contains c).eraseDups

theorem mem_missing {cells : List GraphCell} {c : Coordinate} :
    c ∈ missing cells ↔ (∃ cell ∈ cells, ∃ r ∈ cell.references, r.target.cell? = some c) ∧
      c ∉ cells.map coordinate := by
  simp only [missing, List.mem_eraseDups, List.mem_filter, mentioned, List.mem_filterMap,
    List.mem_flatMap, Bool.not_eq_true', List.contains_eq_mem, decide_eq_false_iff_not]
  refine and_congr_left fun _ => ?_
  constructor
  · rintro ⟨r, ⟨cell, hcell, hr⟩, hc⟩
    exact ⟨cell, hcell, r, hr, hc⟩
  · rintro ⟨cell, hcell, r, hr, hc⟩
    exact ⟨r, ⟨cell, hcell, hr⟩, hc⟩

end GraphCell

/-- What the nodes and the edges of a graph owe the cells that it was built of. -/
structure Graph.Linked (g : Graph) (cells : List GraphCell) : Prop where
  /-- The given cells come first, then an input for each cell that is missing. -/
  nodes : g.nodes.toList.map Node.cell =
    cells ++ (GraphCell.missing cells).map GraphCell.input
  /-- Nodes are numbered by their places, and the implicit ones are those not given. -/
  numbered : ∀ v node, g.node? v = some node →
    node.id = v ∧ (node.implicit = true ↔ cells.length ≤ v)
  coordinates_nodup : (g.nodes.toList.map Node.coordinate).Nodup
  /-- An edge leads to a cell from the cells that its formula refers to. -/
  edge_iff : ∀ u v source target, g.node? u = some source → g.node? v = some target →
    ((∃ e ∈ g.edges, e.source = u ∧ e.target = v) ↔
      ∃ r ∈ target.cell.references, r.target.contains source.coordinate = true)
  /-- Edges have their ends in the graph, and no two of them have the same ends. -/
  ends : ∀ e ∈ g.edges, e.source < g.nodes.size ∧ e.target < g.nodes.size
  once : (g.edges.map fun e => (e.source, e.target)).Nodup
  /-- The first reference to a cell decides the kind of the edge. -/
  kind : ∀ e ∈ g.edges, ∀ source target, g.node? e.source = some source →
    g.node? e.target = some target →
      ∃ r, target.cell.references.find? (·.target.contains source.coordinate) = some r ∧
        r.Makes target.coordinate.sheet e.kind
  /-- A node lists the edges at its end, in order. -/
  precedents : ∀ v node, g.node? v = some node →
    node.precedents = (g.edges.filter (·.target == v)).map Edge.source ∧
      node.inDegree = g.edges.countP (·.target == v)
  dependents : ∀ v node, g.node? v = some node →
    node.dependents = (g.edges.filter (·.source == v)).map Edge.target ∧
      node.outDegree = g.edges.countP (·.source == v)
  /-- The cells in a range that is referred to are found between its corners. -/
  between : ∀ cell ∈ cells, ∀ r ∈ cell.references, ∀ range, r.target = .range range →
    g.index[range.first...=range.last].toList.filter (fun entry => range.contains entry.1) =
      g.index.toList.filter fun entry => range.contains entry.1

namespace GraphBuilder

variable {b : GraphBuilder} {u v : Nat}

/-! ### Nodes -/

theorem Indexed.contains_eq (h : b.Indexed) (c : Coordinate) :
    b.index.contains c = (b.cells.toList.map GraphCell.coordinate).contains c := by
  apply Bool.eq_iff_iff.mpr
  rw [List.contains_iff_mem, Std.TreeMap.contains_eq_isSome_getElem?, Option.isSome_iff_exists,
    List.mem_iff_getElem?]
  apply exists_congr
  intro i
  rw [h c i, List.getElem?_map, Array.getElem?_toList]

/-- An indexed builder has one cell at a coordinate. -/
theorem Indexed.nodup_coordinates (h : b.Indexed) :
    (b.cells.toList.map GraphCell.coordinate).Nodup := by
  rw [List.nodup_iff_getElem?_ne_getElem?]
  intro i j hij hj heq
  have hget : (b.cells.toList.map GraphCell.coordinate)[j]? =
      some ((b.cells.toList.map GraphCell.coordinate)[j]) := List.getElem?_eq_getElem hj
  have hi := heq.trans hget
  rw [List.getElem?_map, Array.getElem?_toList] at hget hi
  -- both places are the number that the index gives the coordinate
  have hnumber := ((h _ i).mpr hi).symm.trans ((h _ j).mpr hget)
  exact Nat.ne_of_lt hij (Option.some.inj hnumber)

/-- Referred cells are added at their first mention. -/
theorem toList_cells_foldl_pushImplicit (h : b.Indexed) (rs : List Reference) :
    (rs.foldl GraphBuilder.pushImplicit b).cells.toList = b.cells.toList ++
      ((rs.filterMap fun r => r.target.cell?).filter fun c =>
        !(b.cells.toList.map GraphCell.coordinate).contains c).eraseDups.map .input := by
  induction rs generalizing b with
  | nil => simp
  | cons r rs ih =>
    rw [List.foldl_cons, ih (h.pushImplicit r)]
    obtain ⟨target, name⟩ := r
    cases target with
    | range range => rfl
    | cell c =>
      show _ = _ ++ ((c :: rs.filterMap fun r => r.target.cell?).filter _).eraseDups.map _
      cases hc : b.index.contains c with
      | true =>
        have hself : b.pushImplicit ⟨.cell c, name⟩ = b := by
          simp [GraphBuilder.pushImplicit, hc]
        rw [h.contains_eq] at hc
        rw [hself, List.filter_cons_of_neg (by rw [hc]; decide)]
      | false =>
        have hpush : b.pushImplicit ⟨.cell c, name⟩ = b.push (.input c) := by
          simp [GraphBuilder.pushImplicit, hc]
        rw [h.contains_eq] at hc
        -- a later mention is passed over, as a duplicate or as a cell that is there
        have hthere : ∀ d, (!((b.push (.input c)).cells.toList.map GraphCell.coordinate).contains d) =
            (!d == c && !(b.cells.toList.map GraphCell.coordinate).contains d) := by
          intro d
          apply Bool.eq_iff_iff.mpr
          simp [GraphBuilder.push, GraphCell.input, and_comm]
        rw [hpush, List.filter_cons_of_pos (by rw [hc]; rfl), List.eraseDups_cons,
          List.filter_filter, List.filter_congr fun d _ => hthere d]
        simp [GraphBuilder.push]

theorem toList_cells_withImplicit (h : b.Indexed) :
    b.withImplicit.cells.toList =
      b.cells.toList ++ (GraphCell.missing b.cells.toList).map .input :=
  toList_cells_foldl_pushImplicit h _

theorem map_cell_nodes_build (b : GraphBuilder) :
    b.build.nodes.toList.map Node.cell = b.withImplicit.cells.toList := by
  apply List.ext_getElem?
  intro v
  rw [List.getElem?_map, Array.getElem?_toList, Array.getElem?_toList]
  exact map_cell_node?_build b v

theorem implicit_build {node : Node} (hnode : b.build.node? v = some node) :
    node.implicit = true ↔ b.cells.size ≤ v := by
  simp only [Graph.node?, build, Array.getElem?_mapIdx, Option.map_eq_some_iff] at hnode
  obtain ⟨cell, -, rfl⟩ := hnode
  exact decide_eq_true_iff

/-- A node is implicit exactly if no cell was given at its coordinate. -/
theorem implicit_iff (h : b.Indexed) {node : Node} (hnode : b.build.node? v = some node) :
    node.implicit = true ↔ node.coordinate ∉ b.cells.toList.map GraphCell.coordinate := by
  obtain ⟨more, hcells, -⟩ := withImplicit_extends h
  have hcell := cell_of_node? hnode
  rw [hcells] at hcell
  rw [implicit_build hnode, ← Nat.not_lt, not_iff_not]
  constructor
  · intro hv
    rw [Array.getElem?_append_left hv] at hcell
    exact List.mem_map_of_mem (Array.mem_toList_iff.mpr (Array.mem_of_getElem? hcell))
  · intro hmem
    obtain ⟨cell, hgiven, heq⟩ := List.mem_map.mp hmem
    obtain ⟨w, hw⟩ := Array.mem_iff_getElem?.mp (Array.mem_toList_iff.mp hgiven)
    have hlt : w < b.cells.size := (Array.getElem?_eq_some_iff.mp hw).1
    -- a given cell keeps its number
    have hat := hw
    rw [← Array.getElem?_append_left hlt, ← hcells, ← map_cell_node?_build] at hat
    obtain ⟨m, hm, rfl⟩ := Option.map_eq_some_iff.mp hat
    rwa [number_unique h hnode hm heq.symm]

/-! ### Edges -/

theorem nodup_firstLinks (seen : List Nat) (links : List (Nat × EdgeKind)) :
    ((firstLinks seen links).map Prod.fst).Nodup := by
  induction links generalizing seen with
  | nil => exact List.nodup_nil
  | cons link links ih =>
    obtain ⟨w, k⟩ := link
    unfold firstLinks
    split
    · exact ih seen
    · rw [List.map_cons, List.nodup_cons]
      refine ⟨fun hmem => ?_, ih _⟩
      obtain ⟨⟨x, k'⟩, hmem, rfl⟩ := List.mem_map.mp hmem
      exact (exists_mem_firstLinks.mp ⟨k', hmem⟩).1 List.mem_cons_self

/-- **Only the first link to a cell is kept.** -/
theorem find?_of_mem_firstLinks {seen : List Nat} {links : List (Nat × EdgeKind)} {kind : EdgeKind}
    (h : (u, kind) ∈ firstLinks seen links) : links.find? (·.1 == u) = some (u, kind) := by
  have hseen : u ∉ seen := (exists_mem_firstLinks.mp ⟨kind, h⟩).1
  induction links generalizing seen with
  | nil => exact absurd h List.not_mem_nil
  | cons link links ih =>
    obtain ⟨w, k⟩ := link
    unfold firstLinks at h
    split at h
    · rename_i hw
      have hne : w ≠ u := by
        rintro rfl
        exact hseen (List.contains_iff_mem.mp hw)
      rw [List.find?_cons_of_neg (by simpa using hne)]
      exact ih h hseen
    · rcases List.mem_cons.mp h with heq | h
      · obtain ⟨rfl, rfl⟩ := Prod.mk.inj heq
        simp
      · have hcons : u ∉ w :: seen := (exists_mem_firstLinks.mp ⟨kind, h⟩).1
        have hne : w ≠ u := by
          rintro rfl
          exact hcons List.mem_cons_self
        rw [List.find?_cons_of_neg (by simpa using hne)]
        exact ih h hcons

/-- The links that the references of a cell make, in order. -/
def links (b : GraphBuilder) (cell : GraphCell) : List (Nat × EdgeKind) :=
  cell.references.flatMap fun r =>
    (b.targeted r.target).map (·, EdgeKind.ofReference r cell.coordinate.sheet)

theorem edgesTo_eq (b : GraphBuilder) (cell : GraphCell) (id : Nat) :
    b.edgesTo cell id = (firstLinks [] (b.links cell)).map fun p => ⟨p.1, id, p.2⟩ := rfl

/-- The first link from a cell is made by the first reference to it. -/
theorem find?_links (h : b.Indexed) {source cell : GraphCell} (hu : b.cells[u]? = some source) :
    (b.links cell).find? (·.1 == u) =
      (cell.references.find? (·.target.contains source.coordinate)).map fun r =>
        (u, EdgeKind.ofReference r cell.coordinate.sheet) := by
  unfold links
  induction cell.references with
  | nil => rfl
  | cons r rs ih =>
    have hmem : u ∈ b.targeted r.target ↔ r.target.contains source.coordinate = true := by
      rw [mem_targeted h]
      simp [hu]
    rw [List.flatMap_cons, List.find?_append, ih]
    rw [List.find?_map, List.find?_cons]
    cases hfind : (b.targeted r.target).find? ((·.1 == u) ∘ (·, EdgeKind.ofReference r _)) with
    | some w =>
      have hw := List.find?_some hfind
      obtain rfl : w = u := beq_iff_eq.mp hw
      rw [hmem.mp (List.mem_of_find?_eq_some hfind)]
      rfl
    | none =>
      have hr : r.target.contains source.coordinate = false := by
        apply Bool.eq_false_iff.mpr
        intro hr
        exact List.find?_eq_none.mp hfind u (hmem.mpr hr) (beq_self_eq_true u)
      rw [hr]
      rfl

theorem mem_edges_iff {e : Edge} :
    e ∈ b.edges ↔ ∃ cell, b.cells[e.target]? = some cell ∧
      (e.source, e.kind) ∈ firstLinks [] (b.links cell) := by
  simp only [edges, List.mem_flatMap, edgesTo_eq, List.mem_map]
  constructor
  · rintro ⟨⟨cell, id⟩, hcell, ⟨⟨w, k⟩, hlink, rfl⟩⟩
    rw [List.mem_zipIdx_iff_getElem?] at hcell
    exact ⟨cell, by simpa using hcell, hlink⟩
  · rintro ⟨cell, hcell, hlink⟩
    refine ⟨(cell, e.target), ?_, _, hlink, rfl⟩
    rw [List.mem_zipIdx_iff_getElem?]
    simpa using hcell

/-- No two edges have the same ends. -/
theorem nodup_edges (b : GraphBuilder) : (b.edges.map fun e => (e.source, e.target)).Nodup := by
  unfold edges
  rw [List.map_flatMap, List.nodup_flatMap]
  constructor
  · rintro ⟨cell, id⟩ -
    -- the edges to one cell have different sources
    show ((b.edgesTo cell id).map _).Nodup
    rw [edgesTo_eq, List.map_map]
    have hmap := (nodup_firstLinks [] (b.links cell)).map (Prod.mk_left_injective id)
    rwa [List.map_map] at hmap
  · have hids : (b.cells.toList.zipIdx.map Prod.snd).Nodup := by
      rw [List.zipIdx_map_snd]
      exact List.nodup_range'
    refine (List.pairwise_map.mp hids).imp ?_
    rintro ⟨cell, id⟩ ⟨cell', id'⟩ hne p hp hp'
    obtain ⟨e, he, rfl⟩ := List.mem_map.mp hp
    obtain ⟨e', he', heq⟩ := List.mem_map.mp hp'
    obtain ⟨link, -, rfl⟩ := List.mem_map.mp he
    obtain ⟨link', -, rfl⟩ := List.mem_map.mp he'
    exact hne (congrArg Prod.snd heq).symm

theorem kind_of_mem_edges (h : b.Indexed) {e : Edge} (he : e ∈ b.edges) {source target : GraphCell}
    (hsource : b.cells[e.source]? = some source) (htarget : b.cells[e.target]? = some target) :
    ∃ r, target.references.find? (·.target.contains source.coordinate) = some r ∧
      e.kind = EdgeKind.ofReference r target.coordinate.sheet := by
  obtain ⟨cell, hcell, hlink⟩ := mem_edges_iff.mp he
  obtain rfl := Option.some.inj (hcell.symm.trans htarget)
  have hfirst := find?_of_mem_firstLinks hlink
  rw [find?_links h hsource, Option.map_eq_some_iff] at hfirst
  obtain ⟨r, hr, heq⟩ := hfirst
  exact ⟨r, hr, (congrArg Prod.snd heq).symm⟩

/-! ### Both ends of an edge -/

/-- A node lists the far ends of its edges, in the order of the edges. -/
theorem neighbours_build {node : Node} (hnode : b.build.node? v = some node) :
    node.precedents = (b.build.edges.filter (·.target == v)).map Edge.source ∧
      node.dependents = (b.build.edges.filter (·.source == v)).map Edge.target := by
  have hv : v < b.withImplicit.size := (Array.getElem?_eq_some_iff.mp (cell_of_node? hnode)).1
  simp only [Graph.node?, build, Array.getElem?_mapIdx, Option.map_eq_some_iff] at hnode
  obtain ⟨cell, -, rfl⟩ := hnode
  constructor
  · show (Adjacency.ofPairs _ _).next v = _
    rw [Adjacency.next_ofPairs hv, List.filter_map, List.map_map]
    rfl
  · show (Adjacency.ofPairs _ _).next v = _
    rw [Adjacency.next_ofPairs hv, List.filter_map, List.map_map]
    rfl

theorem mem_precedents_iff {node : Node} (hnode : b.build.node? v = some node) :
    u ∈ node.precedents ↔ b.build.Adj u v := by
  rw [(neighbours_build hnode).1]
  simp only [List.mem_map, List.mem_filter, beq_iff_eq, Graph.Adj, and_assoc]
  exact exists_congr fun e => and_congr_right fun _ => and_comm

theorem mem_dependents_iff {node : Node} (hnode : b.build.node? v = some node) :
    u ∈ node.dependents ↔ b.build.Adj v u := by
  rw [(neighbours_build hnode).2]
  simp only [List.mem_map, List.mem_filter, beq_iff_eq, Graph.Adj, and_assoc]

/-- A node lists no neighbour twice. -/
theorem nodup_neighbours {node : Node} (hnode : b.build.node? v = some node) :
    node.precedents.Nodup ∧ node.dependents.Nodup := by
  have hends (p : Edge → Bool) :
      ((b.build.edges.filter p).map fun e => (e.source, e.target)).Nodup :=
    (nodup_edges b.withImplicit).sublist (List.filter_sublist.map _)
  rw [(neighbours_build hnode).1, (neighbours_build hnode).2]
  constructor
  · have hfixed : (b.build.edges.filter (·.target == v)).map (fun e => (e.source, e.target)) =
        ((b.build.edges.filter (·.target == v)).map Edge.source).map (·, v) := by
      rw [List.map_map]
      exact List.map_congr_left fun e he => by simpa using (List.mem_filter.mp he).2
    exact List.Nodup.of_map _ (hfixed ▸ hends _)
  · have hfixed : (b.build.edges.filter (·.source == v)).map (fun e => (e.source, e.target)) =
        ((b.build.edges.filter (·.source == v)).map Edge.target).map (v, ·) := by
      rw [List.map_map]
      exact List.map_congr_left fun e he => by simpa using (List.mem_filter.mp he).2
    exact List.Nodup.of_map _ (hfixed ▸ hends _)

/-! ### Ranges -/

/-- The part of an index between the corners of a range has all that lies in the range. -/
theorem filter_between (index : Std.TreeMap Coordinate Nat) {r : CellRange} (h : r.WellFormed) :
    index[r.first...=r.last].toList.filter (fun entry => r.contains entry.1) =
      index.toList.filter fun entry => r.contains entry.1 := by
  have hslice : index[r.first...=r.last].toList = index.toList.filter fun entry =>
      (compare entry.1 r.first).isGE ∧ (compare entry.1 r.last).isLE :=
    Std.TreeMap.toList_rcc compare
  rw [hslice, List.filter_filter]
  apply List.filter_congr
  intro entry _
  cases hc : r.contains entry.1 with
  | false => rfl
  | true =>
    obtain ⟨hfirst, hlast⟩ := CellRange.between_of_contains h hc
    rw [← Std.OrientedCmp.isGE_eq_isLE] at hfirst
    simp [hfirst, hlast]

/-- **Edges are exactly the references.** -/
theorem linked_build {cells : List GraphCell} (h : cells.foldlM add empty = .ok b)
    (hranges : ∀ cell ∈ cells, ∀ r ∈ cell.references, r.target.WellFormed) :
    b.build.Linked cells := by
  obtain ⟨hidx, hcells⟩ := indexed_of_foldlM indexed_empty h
  have hgiven : b.cells.toList = cells := by simp [hcells, empty]
  refine ⟨?nodes, ?numbered, ?coordinates, ?edge_iff, ?ends, nodup_edges b.withImplicit, ?kind,
    ?precedents, ?dependents, ?between⟩
  case nodes => rw [map_cell_nodes_build, toList_cells_withImplicit hidx, hgiven]
  case numbered =>
    intro v node hnode
    refine ⟨id_of_node? hnode, ?_⟩
    rw [implicit_build hnode, ← hgiven, Array.length_toList]
  case coordinates =>
    have hnodup := hidx.withImplicit.nodup_coordinates
    rwa [← map_cell_nodes_build, List.map_map] at hnodup
  case edge_iff =>
    intro u v source target hu hv
    show b.build.Adj u v ↔ _
    rw [adj_build_iff hidx, Refers, cell_of_node? hu, cell_of_node? hv]
    simp [Node.coordinate]
  case ends =>
    intro e he
    exact adj_lt_size hidx ⟨e, he, rfl, rfl⟩
  case kind =>
    intro e he source target hsource htarget
    obtain ⟨r, hr, hkind⟩ := kind_of_mem_edges hidx.withImplicit he
      (cell_of_node? hsource) (cell_of_node? htarget)
    exact ⟨r, hr, hkind ▸ r.makes_ofReference _⟩
  case precedents =>
    intro v node hnode
    have hlist := (neighbours_build hnode).1
    refine ⟨hlist, ?_⟩
    rw [Node.inDegree, hlist, List.length_map, List.countP_eq_length_filter]
  case dependents =>
    intro v node hnode
    have hlist := (neighbours_build hnode).2
    refine ⟨hlist, ?_⟩
    rw [Node.outDegree, hlist, List.length_map, List.countP_eq_length_filter]
  case between =>
    intro cell hcell r hr range hrange
    have hwell := hranges cell hcell r hr
    rw [hrange] at hwell
    exact filter_between _ hwell

/-- A column of two inputs, and a cell that refers to both, to the first again, and to a
cell that is not given and lies in the range. -/
def columnCells : List GraphCell :=
  let place (column row : Nat) : Coordinate := ⟨"S", column, row⟩
  let refer (target : Target) : Expr := .reference ⟨target, none⟩
  [ .input (place 1 1),
    .input (place 1 3),
    ⟨place 2 1, .formula, some (.binary .add (refer (.range ⟨place 1 1, place 1 3⟩))
      (.binary .add (refer (.cell (place 1 1))) (refer (.cell (place 1 2))))), false, none⟩ ]

theorem linked_columnCells :
    ∃ b, columnCells.foldlM add empty = .ok b ∧
      (∀ cell ∈ columnCells, ∀ r ∈ cell.references, r.target.WellFormed) ∧
      b.build.Linked columnCells := by
  obtain ⟨b, hb⟩ := exists_foldlM_add_iff.mpr
    (show (columnCells.map GraphCell.coordinate).Nodup by decide)
  have hranges : ∀ cell ∈ columnCells, ∀ r ∈ cell.references, r.target.WellFormed := by
    have hcolumn : CellRange.WellFormed ⟨⟨"S", 1, 1⟩, ⟨"S", 1, 3⟩⟩ :=
      ⟨rfl, by decide, by decide⟩
    simp [columnCells, GraphCell.input, GraphCell.references, Expr.references,
      Target.WellFormed, hcolumn]
  exact ⟨b, hb, hranges, linked_build hb hranges⟩

end GraphBuilder

end Recalc
