/-
Recalc/Proofs/Workbook/Extraction.lean

No formula is lost and none is told twice.  The results of a compilation list the computed
cells of the workbook, each once and with the cluster of its node, and nothing else.  A cell
is told with its formula if that could be read, and with a fault if not; and the cells that
have a value are the cells that are told (`Snapshot.extracted_compile`).

Design.  A result lists the nodes of its cluster that have logic, so all that is said about
lists of results follows from one node per coordinate and one cluster per node
(`exists_node_of_logic`, `exists_logic_of_node`).  That an unreadable formula ends with its
fault is about the run: the step of the cell sets the fault and no step takes it back.
-/
import Recalc.Proofs.Workbook.Sheets

namespace Recalc

/-- The cell has the text as its formula: it is no label, and the text is not blank. -/
def ClassifiedCell.Carries (c : ClassifiedCell) (text : String) : Prop :=
  c.role ≠ .label ∧ c.rawFormula = some text ∧ Text.trim text ≠ ""

theorem ClassifiedCell.isComputed_iff {c : ClassifiedCell} :
    c.isComputed = true ↔ ∃ text, c.Carries text := by
  rw [isComputed, hasFormula, Bool.and_eq_true, bne_iff_ne]
  cases hraw : c.rawFormula with
  | none => simp [Carries, hraw]
  | some text => simp [Carries, hraw]

/-- What a compilation has to tell about the formulas of a workbook. -/
structure Snapshot.Extracted (s : Snapshot) (engine : Engine) (comp : Compilation) : Prop where
  /-- There is one result for a cluster. -/
  ids : (comp.results.map ClusterLogic.clusterId).Nodup
  /-- No cell is told twice, in one result or in two. -/
  once : (comp.results.flatMap fun r => r.cells.map CellLogic.coordinate).Nodup
  /-- The cells that are told are the cells with a formula. -/
  listed : ∀ x, (∃ r ∈ comp.results, ∃ l ∈ r.cells, l.coordinate = x) ↔
    ∃ cell ∈ s.cells, ∃ text, cell.Carries text ∧ s.respelled cell.coordinate = x
  /-- A cell is told in the result for the cluster of its node. -/
  own : ∀ r ∈ comp.results, ∀ l ∈ r.cells, ∃ v n, comp.graph.nodeId? l.coordinate = some v ∧
    comp.graph.node? v = some n ∧ n.cluster = r.clusterId
  /-- A cell is told with its formula if this could be read, and else with a fault. -/
  told : ∀ cell ∈ s.cells, ∀ text, cell.Carries text → ∀ r ∈ comp.results, ∀ l ∈ r.cells,
    l.coordinate = s.respelled cell.coordinate →
    match engine.compile text l.coordinate.sheet with
    | .ok f => l.expr = some f.expr ∧ l.formula = some (f.expr.toFormula l.coordinate.sheet)
    | .error _ => l.expr = none ∧ l.formula = none ∧ l.value = .error .invalid
  /-- The value of a cell is the value that is told for it. -/
  value : ∀ x v, comp.value? x = some v ↔
    ∃ r ∈ comp.results, ∃ l ∈ r.cells, l.coordinate = x ∧ l.value = v
  /-- The cells that have a value are the cells with a formula. -/
  valued : ∀ x, (comp.value? x).isSome = true ↔
    ∃ cell ∈ s.cells, ∃ text, cell.Carries text ∧ s.respelled cell.coordinate = x

/-! ### Unreadable formulas in a run -/

namespace ClusterRun

variable {g : Graph} {id : Nat} {n : Node} {steps : List Step}

section Failed

variable (engine : Engine) (hg : g.CyclesListed)
  (hone : ∀ j m, g.node? j = some m → m.coordinate = n.coordinate → j = id)
  (hsingle : ∀ index, id ∉ g.members (.cycle index)) (hn : g.node? id = some n)
  (hfailed : n.cell.failed = true)
include hg hone hsingle hn hfailed

/-- No step takes the fault of an unreadable formula back. -/
theorem computed_step_of_invalid {s : State} (st : Step)
    (h : s.run.computed[n.coordinate]? = some (.error .invalid)) :
    (ClusterRun.step engine g s st).run.computed[n.coordinate]? = some (.error .invalid) := by
  by_cases hc : n.coordinate ∈ g.stepCoordinates st
  · -- only the step of the cell itself writes there, and it sets the fault anew
    obtain ⟨j, hj, m, hm, heq⟩ := Graph.mem_stepCoordinates.mp hc
    obtain rfl := hone j m hm heq
    exact computed_step_of_failed engine s hsingle hj hn hfailed
  · rw [computed_step_of_not_mem engine s hg hc]
    exact h

/-- **A run ends with the faults of its unreadable formulas.** -/
theorem computed_run_of_failed (s : State) {st : Step} (hst : st ∈ steps)
    (hid : id ∈ g.members st) :
    (steps.foldl (ClusterRun.step engine g) s).run.computed[n.coordinate]? =
      some (.error .invalid) := by
  have hkept : ∀ (rest : List Step) (s : State),
      s.run.computed[n.coordinate]? = some (.error .invalid) →
      (rest.foldl (ClusterRun.step engine g) s).run.computed[n.coordinate]? =
        some (.error .invalid) := by
    intro rest
    induction rest with
    | nil => exact fun s h => h
    | cons next rest ih =>
      intro s h
      exact ih _ (computed_step_of_invalid engine hg hone hsingle hn hfailed next h)
  -- the step of the cell comes somewhere in the schedule
  obtain ⟨before, after, rfl⟩ := List.append_of_mem hst
  rw [List.foldl_append, List.foldl_cons]
  apply hkept
  exact computed_step_of_failed engine _ hsingle hid hn hfailed

end Failed

end ClusterRun

/-! ### Results and nodes -/

namespace Compilation

variable {options : CompilerOptions} {enricher : Option Enricher} {engine : Engine}
  {snapshot : Snapshot} {comp : Compilation} {b : GraphBuilder} {v : Nat} {n : Node}
  {r : ClusterLogic} {l : CellLogic} {x : Coordinate}

/-- A search by a key that is nowhere repeated. -/
theorem find?_of_nodup_map {α β : Type} [BEq β] [LawfulBEq β] {key : α → β} {as : List α}
    {a : α} (h : (as.map key).Nodup) (ha : a ∈ as) : as.find? (key · == key a) = some a := by
  cases hfind : as.find? (key · == key a) with
  | none => exact absurd (beq_self_eq_true (key a)) (List.find?_eq_none.mp hfind a ha)
  | some found =>
    have hkey := List.find?_some hfind
    rw [List.inj_on_of_nodup_map h (List.mem_of_find?_eq_some hfind) ha (eq_of_beq hkey)]

/-- What the graph holds of a computed cell. -/
theorem graphCell?_of_carries {cell : ClassifiedCell} {text : String} {g : GraphCell}
    (htext : cell.Carries text)
    (h : graphCell? snapshot options (readCell engine cell) = some g) :
    match engine.compile text cell.coordinate.sheet with
    | .ok f => g.expr = some f.expr ∧ g.failed = false
    | .error _ => g.expr = none ∧ g.failed = true := by
  obtain ⟨-, -, hformula⟩ := graphCell?_eq_some h
  have hcomputed := ClassifiedCell.isComputed_iff.mpr ⟨text, htext⟩
  rw [readCell, if_pos hcomputed, htext.2.1] at hformula
  cases hcompile : engine.compile text cell.coordinate.sheet with
  | ok f =>
    simp only [Option.getD_some, hcompile] at hformula
    exact hformula
  | error e =>
    simp only [Option.getD_some, hcompile] at hformula
    exact hformula

section Results

variable (hcomp : ofCells options enricher engine snapshot = .ok comp)
include hcomp

theorem indexed_graph : ∃ b : GraphBuilder, b.Indexed ∧ comp.graph = b.build := by
  obtain ⟨b, hb, hgraph, -⟩ := ofCells_eq_ok hcomp
  exact ⟨b, (GraphBuilder.indexed_of_foldlM GraphBuilder.indexed_empty hb).1, hgraph⟩

/-- What is told about a cell is told about a node with logic, with the node's cluster. -/
theorem exists_node_of_logic (hr : r ∈ comp.results) (hl : l ∈ r.cells) :
    ∃ c ∈ comp.graph.clusters, ∃ v n, comp.graph.node? v = some n ∧ n.hasLogic = true ∧
      n.cluster = c.id ∧ r.clusterId = c.id ∧
      l = cellLogic (context options engine snapshot comp.graph)
        (Synthesis.ofCluster (context options engine snapshot comp.graph) c) n := by
  obtain ⟨b, hb, hgraph, hresults, -⟩ := ofCells_eq_ok hcomp
  rw [hresults] at hr
  obtain ⟨c, hc, rfl⟩ := List.mem_map.mp hr
  obtain ⟨hc, -⟩ := List.mem_filter.mp hc
  obtain ⟨n, hn, rfl⟩ := List.mem_map.mp hl
  obtain ⟨hn, hkept⟩ := List.mem_filter.mp hn
  obtain ⟨hlogic, hmem⟩ := (Bool.and_eq_true _ _).mp hkept
  obtain ⟨v, hn⟩ := Array.mem_iff_getElem?.mp (Array.mem_toList_iff.mp hn)
  have hnode : b.build.node? v = some n := hn
  rw [hgraph]
  refine ⟨c, hc, v, n, hnode, hlogic, ?_, rfl, rfl⟩
  apply (GraphBuilder.mem_later_iff hc hnode (role_ne_input hb hnode hlogic)).mp
  rw [GraphBuilder.id_of_node? hnode] at hmem
  simpa using hmem

/-- A node with logic that is no input is told. -/
theorem exists_logic_of_node (hn : comp.graph.node? v = some n) (hrole : n.role ≠ .input)
    (hlogic : n.hasLogic = true) :
    ∃ r ∈ comp.results, ∃ l ∈ r.cells, l.coordinate = n.coordinate := by
  obtain ⟨b, hb, hgraph, hresults, -⟩ := ofCells_eq_ok hcomp
  have hidx := (GraphBuilder.indexed_of_foldlM GraphBuilder.indexed_empty hb).1
  rw [hgraph] at hn
  obtain ⟨c, ⟨hc, hcontains⟩, -⟩ := GraphBuilder.existsUnique_cluster hidx
    (Array.getElem?_eq_some_iff.mp hn).1
  rw [GraphBuilder.contains_iff_clusterOf? hc, Graph.clusterOf?, hn, Option.map_some,
    Option.some.injEq] at hcontains
  have hmem := (GraphBuilder.mem_later_iff hc hn hrole).mpr hcontains
  rw [hresults]
  refine ⟨_, List.mem_map_of_mem (List.mem_filter.mpr
    ⟨hc, hasLogic_of_node hc hn hcontains hrole hlogic⟩), _, List.mem_map_of_mem
      (List.mem_filter.mpr ⟨Array.mem_toList_iff.mpr (Array.mem_of_getElem? hn), ?_⟩), rfl⟩
  rw [GraphBuilder.id_of_node? hn]
  simpa [hlogic] using hmem

/-! ### Every cell once -/

theorem nodup_clusterIds : (comp.results.map ClusterLogic.clusterId).Nodup := by
  obtain ⟨b, -, -, hresults, -⟩ := ofCells_eq_ok hcomp
  rw [hresults, List.map_map]
  show ((b.build.clusters.filter (hasLogic b.build)).map Cluster.id).Nodup
  exact (GraphBuilder.nodup_ids_clusters b).sublist (List.filter_sublist.map _)

/-- A result lists nodes of the graph, and these have their own coordinates. -/
theorem nodup_coordinates_result (hr : r ∈ comp.results) :
    (r.cells.map CellLogic.coordinate).Nodup := by
  obtain ⟨b, hb, -, hresults, -⟩ := ofCells_eq_ok hcomp
  have hidx := (GraphBuilder.indexed_of_foldlM GraphBuilder.indexed_empty hb).1
  rw [hresults] at hr
  obtain ⟨c, -, rfl⟩ := List.mem_map.mp hr
  have hsub : (((resultOf enricher (context options engine snapshot b.build)
      (readCells engine snapshot) c).cells).map CellLogic.coordinate).Sublist
        (b.build.nodes.toList.map Node.coordinate) := by
    show (List.map CellLogic.coordinate (List.map (cellLogic _ _) (List.filter _ _))).Sublist _
    rw [List.map_map]
    exact List.filter_sublist.map Node.coordinate
  exact (GraphBuilder.nodup_map_coordinate hidx).sublist hsub

/-- **No cell is told twice.** -/
theorem nodup_told :
    (comp.results.flatMap fun r => r.cells.map CellLogic.coordinate).Nodup := by
  obtain ⟨b, hidx, hgraph⟩ := indexed_graph hcomp
  rw [List.nodup_flatMap]
  refine ⟨fun r hr => nodup_coordinates_result hcomp hr, ?_⟩
  refine (List.pairwise_map.mp (nodup_clusterIds hcomp)).imp_of_mem ?_
  intro r r' hr hr' hne x hx hx'
  -- the two results would be for the cluster of one node
  obtain ⟨l, hl, rfl⟩ := List.mem_map.mp hx
  obtain ⟨l', hl', heq⟩ := List.mem_map.mp hx'
  obtain ⟨c, -, v, n, hn, -, hcluster, hid, rfl⟩ := exists_node_of_logic hcomp hr hl
  obtain ⟨c', -, v', n', hn', -, hcluster', hid', rfl⟩ := exists_node_of_logic hcomp hr' hl'
  rw [hgraph] at hn hn'
  obtain rfl := GraphBuilder.number_unique hidx hn' hn heq
  obtain rfl := Option.some.inj (hn.symm.trans hn')
  apply hne
  rw [hid, hid', ← hcluster, ← hcluster']

/-! ### Cells and values -/

/-- **The cells that are told are the computed cells.** -/
theorem exists_logic_iff : (∃ r ∈ comp.results, ∃ l ∈ r.cells, l.coordinate = x) ↔
    ∃ cell ∈ snapshot.cells, ∃ text, cell.Carries text ∧ cell.coordinate = x := by
  obtain ⟨b, hb, hgraph, -, -⟩ := ofCells_eq_ok hcomp
  constructor
  · rintro ⟨r, hr, l, hl, rfl⟩
    obtain ⟨c, -, v, n, hn, hlogic, -, -, rfl⟩ := exists_node_of_logic hcomp hr hl
    rw [hgraph] at hn
    obtain ⟨cell, hcell, hcomputed, hgraphCell⟩ := exists_computed_of_hasLogic hb hn hlogic
    obtain ⟨text, htext⟩ := ClassifiedCell.isComputed_iff.mp hcomputed
    exact ⟨cell, hcell, text, htext, (graphCell?_eq_some hgraphCell).1.symm⟩
  · rintro ⟨cell, hcell, text, htext, rfl⟩
    obtain ⟨v, n, hn, hgraphCell⟩ := exists_node_of_mem hb hcell htext.1
    have hlogic : n.hasLogic = true := by
      have hformula := graphCell?_of_carries htext hgraphCell
      cases hcompile : engine.compile text cell.coordinate.sheet with
      | ok f =>
        simp only [hcompile] at hformula
        simp [Node.hasLogic, hformula.1]
      | error e =>
        simp only [hcompile] at hformula
        simp [Node.hasLogic, hformula.2]
    have hcoordinate : n.coordinate = cell.coordinate := (graphCell?_eq_some hgraphCell).1
    rw [← hcoordinate]
    exact exists_logic_of_node hcomp (hgraph ▸ hn) (role_ne_input hb hn hlogic) hlogic

/-- A cell is told in the result for the cluster of its node. -/
theorem node_of_logic (hr : r ∈ comp.results) (hl : l ∈ r.cells) :
    ∃ v n, comp.graph.nodeId? l.coordinate = some v ∧ comp.graph.node? v = some n ∧
      n.cluster = r.clusterId := by
  obtain ⟨b, hidx, hgraph⟩ := indexed_graph hcomp
  obtain ⟨c, -, v, n, hn, -, hcluster, hid, rfl⟩ := exists_node_of_logic hcomp hr hl
  refine ⟨v, n, ?_, hn, hcluster.trans hid.symm⟩
  rw [hgraph] at hn ⊢
  exact GraphBuilder.nodeId?_coordinate hidx hn

omit hcomp in
/-- A value is one that is told. -/
theorem exists_logic_of_value? {w : Value} (h : comp.value? x = some w) :
    ∃ r ∈ comp.results, ∃ l ∈ r.cells, l.coordinate = x ∧ l.value = w := by
  obtain ⟨r, hr, h⟩ := Option.bind_eq_some_iff.mp h
  obtain ⟨l, hl, h⟩ := Option.bind_eq_some_iff.mp h
  obtain ⟨id, -, hr⟩ := Option.bind_eq_some_iff.mp hr
  obtain ⟨node, -, hr⟩ := Option.bind_eq_some_iff.mp hr
  have hcoordinate := List.find?_some hl
  exact ⟨r, List.mem_of_find?_eq_some hr, l, List.mem_of_find?_eq_some hl,
    eq_of_beq hcoordinate, Option.some.inj h⟩

/-- **The value of a cell is the one that is told.** -/
theorem value?_eq_some_iff {w : Value} : comp.value? x = some w ↔
    ∃ r ∈ comp.results, ∃ l ∈ r.cells, l.coordinate = x ∧ l.value = w := by
  refine ⟨exists_logic_of_value?, ?_⟩
  rintro ⟨r, hr, l, hl, rfl, rfl⟩
  obtain ⟨v, n, hid, hn, hcluster⟩ := node_of_logic hcomp hr hl
  -- both searches end at the first hit, and there is only one
  have hresult : comp.resultFor? l.coordinate = some r := by
    rw [resultFor?, hid]
    show (comp.graph.node? v).bind (fun node => comp.results.find? (·.clusterId == node.cluster)) = _
    rw [hn, Option.bind_some, hcluster]
    exact find?_of_nodup_map (nodup_clusterIds hcomp) hr
  have hcell : r.cells.find? (·.coordinate == l.coordinate) = some l :=
    find?_of_nodup_map (nodup_coordinates_result hcomp hr) hl
  rw [value?, hresult]
  show (r.cells.find? (·.coordinate == l.coordinate)).bind (fun cell => some cell.value) = _
  rw [hcell, Option.bind_some]

/-- **A cell is told with its formula if this could be read, and else with a fault.** -/
theorem told_of_carries {cell : ClassifiedCell} (hcell : cell ∈ snapshot.cells) {text : String}
    (htext : cell.Carries text) (hr : r ∈ comp.results) (hl : l ∈ r.cells)
    (hcoordinate : l.coordinate = cell.coordinate) :
    match engine.compile text cell.coordinate.sheet with
    | .ok f => l.expr = some f.expr ∧ l.formula = some (f.expr.toFormula cell.coordinate.sheet)
    | .error _ => l.expr = none ∧ l.formula = none ∧ l.value = .error .invalid := by
  obtain ⟨b, hb, hgraph, -, -⟩ := ofCells_eq_ok hcomp
  have hidx := (GraphBuilder.indexed_of_foldlM GraphBuilder.indexed_empty hb).1
  obtain ⟨c, hc, v, n, hn, -, hcluster, -, rfl⟩ := exists_node_of_logic hcomp hr hl
  rw [hgraph] at hc hn ⊢
  -- the node that is told is the node of the cell
  obtain ⟨v', n', hn', hgraphCell⟩ := exists_node_of_mem hb hcell htext.1
  obtain rfl : v = v' := by
    apply GraphBuilder.number_unique hidx hn hn'
    exact hcoordinate.trans (graphCell?_eq_some hgraphCell).1.symm
  obtain rfl := Option.some.inj (hn.symm.trans hn')
  have hnode : n.coordinate = cell.coordinate := hcoordinate
  have hformula := graphCell?_of_carries htext hgraphCell
  cases hcompile : engine.compile text cell.coordinate.sheet with
  | ok f =>
    simp only [hcompile] at hformula
    simp [cellLogic, hformula.1, hnode]
  | error e =>
    simp only [hcompile] at hformula
    obtain ⟨hexpr, hfailed⟩ := hformula
    have hcontains : c.contains v = true := by
      rw [GraphBuilder.contains_iff_clusterOf? hc, Graph.clusterOf?, hn, Option.map_some, hcluster]
    obtain ⟨st, hst, hmem⟩ := (GraphBuilder.contains_iff_exists_step hidx hc).mp hcontains
    have hcomputed : (Synthesis.ofCluster (context options engine snapshot b.build)
        c).observed.computed[n.coordinate]? = some (.error .invalid) := by
      rw [Synthesis.observed_ofCluster, Cluster.run, ClusterRun.ofSchedule]
      refine ClusterRun.computed_run_of_failed engine (GraphBuilder.cyclesListed_build hidx)
        (fun j m hm heq => GraphBuilder.number_unique hidx hm hn heq) (fun index hcycle => ?_) hn
        hfailed _ hst hmem
      -- a cell without a formula is on no cycle
      have hsome := GraphBuilder.isSome_expr_of_mem_cycle hidx hcycle hn
      rw [hexpr] at hsome
      cases hsome
    simp [cellLogic, hexpr, hcomputed]

end Results

end Compilation

namespace Snapshot

/-- **Every formula is told once.**  The results of a workbook that compiles tell its cells with a
formula under the spelling of their sheets, each once and with its cluster, and no other cells.
A formula that could be read is told, one that could not is a fault, and the cells that are told
are those with a value. -/
theorem extracted_compile {s : Snapshot} {options : CompilerOptions} {enricher : Option Enricher}
    {comp : Compilation} (hcomp : s.compile options enricher = .ok comp) :
    ∃ names, s.nameTable = .ok names ∧
      s.Extracted ⟨names, .builtin, options.evalOptions⟩ comp := by
  obtain ⟨names, hnames, -, hcells⟩ := compile_eq_ok hcomp
  -- the cells that are compiled are the cells of the workbook, respelled
  have hrespelled (x : Coordinate) : (∃ cell ∈ (s.canonical names).cells, ∃ text,
      cell.Carries text ∧ cell.coordinate = x) ↔
        ∃ cell ∈ s.cells, ∃ text, cell.Carries text ∧ s.respelled cell.coordinate = x := by
    simp only [cells_canonical hnames, List.mem_map, exists_exists_and_eq_and]
    rfl
  have hlisted (x : Coordinate) := (Compilation.exists_logic_iff hcells).trans (hrespelled x)
  have hvalue (x : Coordinate) (w : Value) :=
    Compilation.value?_eq_some_iff hcells (x := x) (w := w)
  refine ⟨names, hnames, Compilation.nodup_clusterIds hcells, Compilation.nodup_told hcells, hlisted,
    fun r hr l hl => Compilation.node_of_logic hcells hr hl, ?_, hvalue, ?_⟩
  · intro cell hcell text htext r hr l hl hcoordinate
    have hmem : { cell with coordinate := s.respelled cell.coordinate } ∈
        (s.canonical names).cells := by
      rw [cells_canonical hnames]
      exact List.mem_map_of_mem hcell
    have htold := Compilation.told_of_carries hcells hmem htext hr hl hcoordinate
    rw [hcoordinate]
    exact htold
  · intro x
    rw [Option.isSome_iff_exists, ← hlisted x]
    simp only [hvalue]
    constructor
    · rintro ⟨w, r, hr, l, hl, hx, -⟩
      exact ⟨r, hr, l, hl, hx⟩
    · rintro ⟨r, hr, l, hl, hx⟩
      exact ⟨l.value, r, hr, l, hl, hx, rfl⟩

/-- Two spellings of a sheet, an output, a formula that ends too early, a label that looks like a
formula, an input with a formula, and a blank formula. -/
def mixed : Snapshot :=
  { sheets := ["Data"],
    cells := [
      ⟨⟨"DATA", 1, 1⟩, .input, none, some (.number 2), none, none⟩,
      ⟨⟨"data", 2, 1⟩, .output, some "=A1+1", none, none, none⟩,
      ⟨⟨"data", 3, 1⟩, .formula, some "=B1+", none, none, none⟩,
      ⟨⟨"Data", 4, 1⟩, .label, some "=A1", none, none, none⟩,
      ⟨⟨"Data", 5, 1⟩, .input, some "=A1*2", none, none, none⟩,
      ⟨⟨"Data", 6, 1⟩, .formula, some " ", none, none, none⟩],
    namedRanges := [],
    iteration := none }

theorem extracted_mixed : ∃ comp names, mixed.compile .standard none = .ok comp ∧
    mixed.nameTable = .ok names ∧
    mixed.Extracted ⟨names, .builtin, CompilerOptions.standard.evalOptions⟩ comp ∧
    (comp.value? ⟨"Data", 5, 1⟩).isSome = true ∧
    comp.value? ⟨"Data", 3, 1⟩ = some (.error .invalid) := by
  obtain ⟨comp, hcomp⟩ : ∃ comp, mixed.compile .standard none = .ok comp :=
    exists_ok_of_isOk (by decide +kernel)
  obtain ⟨names, hnames, hextracted⟩ := extracted_compile hcomp
  refine ⟨comp, names, hcomp, hnames, hextracted, ?_, ?_⟩
  · rw [hextracted.valued]
    exact ⟨_, List.mem_of_getElem? (i := 4) rfl, "=A1*2", ⟨by decide, rfl, by decide +kernel⟩,
      by decide +kernel⟩
  · have hcell := List.mem_of_getElem? (l := mixed.cells) (i := 2) rfl
    have htext : (⟨⟨"data", 3, 1⟩, .formula, some "=B1+", none, none, none⟩ :
        ClassifiedCell).Carries "=B1+" := ⟨by decide, rfl, by decide +kernel⟩
    have hplace : mixed.respelled ⟨"data", 3, 1⟩ = ⟨"Data", 3, 1⟩ := by decide +kernel
    obtain ⟨r, hr, l, hl, hx⟩ := (hextracted.listed ⟨"Data", 3, 1⟩).mpr
      ⟨_, hcell, _, htext, hplace⟩
    have htold := hextracted.told _ hcell _ htext r hr l hl (hx.trans hplace.symm)
    obtain rfl : NameTable.ofLists [] ["Data"] = names := Except.ok.inj hnames
    have hunread : (Engine.compile ⟨.ofLists [] ["Data"], .builtin,
        CompilerOptions.standard.evalOptions⟩ "=B1+" "Data").isOk = false := by decide +kernel
    rw [hx] at htold
    split at htold
    case h_1 f hf =>
      rw [hf] at hunread
      cases hunread
    case h_2 => exact (hextracted.value _ _).mpr ⟨r, hr, l, hl, hx, htold.2.2⟩

end Snapshot

end Recalc
