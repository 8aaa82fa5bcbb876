/-
Recalc/Proofs/Workbook/Findings.lean

Where the findings about a workbook start.  A cell is broken if its formula could not be
read, if its formula has an unsupported call, or if it is on a cycle that has no leave to
repeat or did not settle with the stored inputs.  The findings start at the broken cells,
all of them and no others (`starts_recorded_iff`), and a finding involves its sources and
what these lead to (`mem_involved`).

Design.  Only clusters with a formula are run for the findings.  The others have no cycle,
since a cell on a cycle is referred to by a formula and has one (`hasLogic_of_mem_cycles`);
so the findings are those of the runs of all clusters (`findings_observedRuns`).
-/
import Recalc.Proofs.Graph.Partition
import Recalc.Proofs.Workbook.CleanRun
import Recalc.Proofs.Workbook.Independence
import Recalc.Workbook.Compilation

open Relation

namespace Recalc

namespace GraphBuilder

variable {b : GraphBuilder} {cells : List GraphCell} {v : Nat} {n : Node}

/-! ### The cells of a built graph -/

/-- A cell that was given is in the graph. -/
theorem exists_node?_of_mem (h : cells.foldlM add empty = .ok b) {cell : GraphCell}
    (hcell : cell ∈ cells) : ∃ v n, b.build.node? v = some n ∧ n.cell = cell := by
  obtain ⟨hidx, hgiven⟩ := indexed_of_foldlM indexed_empty h
  obtain ⟨more, hcells, -⟩ := withImplicit_extends hidx
  have hmem : cell ∈ b.withImplicit.cells := by
    rw [hcells, hgiven]
    simp [hcell]
  obtain ⟨v, hv⟩ := Array.mem_iff_getElem?.mp hmem
  rw [← map_cell_node?_build] at hv
  obtain ⟨n, hn, hcell⟩ := Option.map_eq_some_iff.mp hv
  exact ⟨v, n, hn, hcell⟩

theorem cycle_ne_nil (h : b.Indexed) {r : CircularRef} (hr : r ∈ b.build.cycles) :
    r.cycle ≠ [] := by
  obtain ⟨g, hg, rfl⟩ := (mem_cycles_build h).mp hr
  intro hnil
  exact byCoordinate_ne_nil h hg (List.map_eq_nil_iff.mp hnil)

/-- A finding involves the cells that its sources lead to, and these themselves. -/
theorem mem_involved (h : b.Indexed) {sources : List Nat} :
    v ∈ b.build.involved sources ↔
      v < b.build.nodes.size ∧ ∃ s ∈ sources, ReflTransGen b.build.Adj s v := by
  rw [Graph.involved, List.mem_filter, List.mem_range, Bool.or_eq_true, List.contains_iff_mem,
    List.contains_iff_mem, mem_forwardReachable h]
  refine and_congr_right fun _ => ?_
  constructor
  · rintro (hself | ⟨s, hs, hpath⟩)
    · exact ⟨v, hself, .refl⟩
    · exact ⟨s, hs, hpath.to_reflTransGen⟩
  · rintro ⟨s, hs, hpath⟩
    rcases reflTransGen_iff_eq_or_transGen.mp hpath with rfl | hpath
    · exact .inl hs
    · exact .inr ⟨s, hs, hpath⟩

end GraphBuilder

/-! ### Compilations -/

/-- The cycle had leave to repeat, but did not settle. -/
def CycleOutcome.Unsettled (o : CycleOutcome) : Prop :=
  o.status = .didNotConverge ∨ o.status = .nonNumeric

namespace Synthesis

theorem head?_foldl_addInputs (tolerance : Float) (ts : List TestInputs) {acc : List TestInputs}
    {t : TestInputs} (h : acc.head? = some t) :
    (ts.foldl (addInputs tolerance) acc).head? = some t := by
  induction ts generalizing acc with
  | nil => exact h
  | cons u rest ih =>
    refine ih ?_
    unfold addInputs
    split
    · exact h
    · rw [List.head?_append, h]
      rfl

/-- The first set of inputs is the stored one. -/
theorem observed_ofCluster (ctx : RunContext) (c : Cluster) : (ofCluster ctx c).observed =
    c.run ctx.engine ctx.graph ctx.constants (observedInputs ctx c) := by
  have hhead : (allInputs ctx c).head? = some ⟨.observed, observedInputs ctx c⟩ :=
    head?_foldl_addInputs _ _ rfl
  rw [ofCluster]
  dsimp only
  rw [List.head?_map, hhead]
  rfl

end Synthesis

namespace Compilation

variable {options : CompilerOptions} {enricher : Option Enricher} {engine : Engine}
  {snapshot : Snapshot} {comp : Compilation} {b : GraphBuilder}

/-- What the runs of a workbook see, once its graph is built. -/
def context (options : CompilerOptions) (engine : Engine) (snapshot : Snapshot) (graph : Graph) :
    RunContext :=
  { engine, graph, options,
    constants := snapshot.constants,
    cells := snapshot.cells.foldl (fun m c => m.insert c.coordinate c) ∅ }

/-- The cells of a workbook with their formulas read. -/
def readCells (engine : Engine) (snapshot : Snapshot) : List ReadCell :=
  snapshot.cells.map (readCell engine)

/-- The runs with the stored inputs. -/
def observedRuns (ctx : RunContext) : List ClusterRun :=
  ((ctx.graph.clusters.filter (hasLogic ctx.graph)).map (Synthesis.ofCluster ctx)).map
    Synthesis.observed

/-- All that a compilation tells about one cluster. -/
def resultOf (enricher : Option Enricher) (ctx : RunContext) (cells : List ReadCell)
    (c : Cluster) : ClusterLogic :=
  enriched enricher
    (clusterLogic ctx (cells.flatMap (unsupportedCalls ctx.graph)) c (Synthesis.ofCluster ctx c))

theorem map_zip_map {α β γ : Type} (f : α → β) (g : α × β → γ) (l : List α) :
    (l.zip (l.map f)).map g = l.map fun a => g (a, f a) := by
  induction l with
  | nil => rfl
  | cons a rest ih => exact congrArg (g (a, f a) :: ·) ih

/-- A workbook that compiles has a graph of its cells, results of its clusters, and a report of all
findings. -/
theorem ofCells_eq_ok (h : ofCells options enricher engine snapshot = .ok comp) :
    ∃ b, ((readCells engine snapshot).filterMap (graphCell? snapshot options)).foldlM
        GraphBuilder.add .empty = .ok b ∧
      comp.graph = b.build ∧
      comp.results = (b.build.clusters.filter (hasLogic b.build)).map
        (resultOf enricher (context options engine snapshot b.build) (readCells engine snapshot)) ∧
      comp.errors = b.build.report (findings b.build (readCells engine snapshot)
        (observedRuns (context options engine snapshot b.build))) := by
  unfold ofCells at h
  obtain ⟨b, hb, h⟩ := Parser.ok_of_bind h
  obtain rfl := Except.ok.inj h
  refine ⟨b, ?_, rfl, ?_, rfl⟩
  · unfold builder at hb
    cases hfold : ((readCells engine snapshot).filterMap (graphCell? snapshot options)).foldlM
        GraphBuilder.add .empty with
    | error e =>
      rw [readCells] at hfold
      rw [hfold] at hb
      cases hb
    | ok b' =>
      rw [readCells] at hfold
      rw [hfold] at hb
      exact congrArg Except.ok (Except.ok.inj hb)
  · dsimp only
    rw [map_zip_map, List.map_map]
    rfl

/-- What a cell of the graph takes from reading its formula. -/
theorem graphCell?_eq_some {r : ReadCell} {cell : GraphCell}
    (h : graphCell? snapshot options r = some cell) :
    cell.coordinate = r.cell.coordinate ∧
      r.cell.role.nodeRole? r.cell.hasFormula = some cell.role ∧
      match r.formula with
      | some (.ok f) => cell.expr = some f.expr ∧ cell.failed = false
      | some (.error _) => cell.expr = none ∧ cell.failed = true
      | none => cell.expr = none ∧ cell.failed = false := by
  unfold graphCell? at h
  obtain ⟨role, hrole, h⟩ := Option.bind_eq_some_iff.mp h
  rcases hformula : r.formula with _ | (_ | f)
  all_goals
    rw [hformula] at h
    obtain rfl := Option.some.inj h
    exact ⟨rfl, hrole, rfl, rfl⟩

/-- A cell whose formula was read is computed, and its formula was read on its sheet. -/
theorem formula_readCell {cell : ClassifiedCell} {result : Except FormulaError Formula}
    (h : (readCell engine cell).formula = some result) : cell.isComputed = true ∧
      engine.compile (cell.rawFormula.getD "") cell.coordinate.sheet = result := by
  unfold readCell at h
  dsimp only at h
  split at h
  case isTrue hcomputed => exact ⟨hcomputed, Option.some.inj h⟩
  case isFalse => cases h

/-! ### Sources of findings -/

section Sources

variable {g : Graph} {id : Nat}

theorem starts_formulaFinding?_iff {r : ReadCell} :
    (∃ f, formulaFinding? g r = some f ∧ id ∈ f.sources) ↔
      g.nodeId? r.cell.coordinate = some id ∧ ∃ e, r.formula = some (.error e) := by
  unfold formulaFinding?
  cases hnode : g.nodeId? r.cell.coordinate with
  | none => simp
  | some v =>
    rcases hformula : r.formula with _ | (e | f)
    · simp
    · simp [eq_comm]
    · simp

theorem starts_cycleFinding?_iff {r : CircularRef} :
    (∃ f, cycleFinding? r = some f ∧ id ∈ f.sources) ↔
      r.iteration = none ∧ r.cycle ≠ [] ∧ id ∈ r.members := by
  unfold cycleFinding?
  cases hiteration : r.iteration with
  | some limits => simp
  | none =>
    cases hcycle : r.cycle with
    | nil => simp
    | cons first others => simp

theorem starts_outcomeFinding?_iff {o : CycleOutcome} :
    (∃ f, outcomeFinding? g o = some f ∧ id ∈ f.sources) ↔
      o.Unsettled ∧ ∃ r, g.cycles[o.cycle]? = some r ∧ r.cycle ≠ [] ∧ id ∈ r.members := by
  unfold outcomeFinding? CycleOutcome.Unsettled
  cases hr : g.cycles[o.cycle]? with
  | none => simp
  | some r =>
    cases hcycle : r.cycle with
    | nil => simp [hcycle]
    | cons first others => cases o.status <;> simp [hcycle]

theorem starts_unsupportedFinding?_iff {call : Nat × Unsupported} :
    (∃ f, unsupportedFinding? g call = some f ∧ id ∈ f.sources) ↔
      call.1 = id ∧ ∃ n, g.node? id = some n := by
  unfold unsupportedFinding?
  constructor
  · rintro ⟨f, hf, hid⟩
    obtain ⟨n, hn, hf⟩ := Option.bind_eq_some_iff.mp hf
    obtain rfl := Option.some.inj hf
    obtain rfl := List.mem_singleton.mp hid
    exact ⟨rfl, n, hn⟩
  · rintro ⟨rfl, n, hn⟩
    rw [hn]
    exact ⟨_, rfl, List.mem_singleton_self _⟩

theorem exists_unsupportedCalls_iff {r : ReadCell} :
    (∃ call ∈ unsupportedCalls g r, call.1 = id) ↔ g.nodeId? r.cell.coordinate = some id ∧
      ∃ f, r.formula = some (.ok f) ∧ f.unsupported ≠ [] := by
  unfold unsupportedCalls
  cases hnode : g.nodeId? r.cell.coordinate with
  | none => simp
  | some v =>
    rcases hformula : r.formula with _ | (e | f)
    · simp
    · simp
    · cases hcalls : f.unsupported with
      | nil => simp [hcalls]
      | cons u rest => simp [hcalls]


/-- Where the findings start. -/
theorem starts_findings_iff {cells : List ReadCell} {runs : List ClusterRun} :
    (∃ f ∈ findings g cells runs, id ∈ f.sources) ↔
      (∃ r ∈ cells, g.nodeId? r.cell.coordinate = some id ∧ ∃ e, r.formula = some (.error e)) ∨
      (∃ r ∈ g.cycles, r.iteration = none ∧ r.cycle ≠ [] ∧ id ∈ r.members) ∨
      (∃ o ∈ runs.flatMap ClusterRun.cycles, o.Unsettled ∧
        ∃ r, g.cycles[o.cycle]? = some r ∧ r.cycle ≠ [] ∧ id ∈ r.members) ∨
      ∃ r ∈ cells, (g.nodeId? r.cell.coordinate = some id ∧
        ∃ f, r.formula = some (.ok f) ∧ f.unsupported ≠ []) ∧ ∃ n, g.node? id = some n := by
  have hlist {α : Type} {F : α → Option Finding} {l : List α} :
      (∃ f ∈ l.filterMap F, id ∈ f.sources) ↔ ∃ a ∈ l, ∃ f, F a = some f ∧ id ∈ f.sources := by
    simp only [List.mem_filterMap]
    grind
  -- a cell is told once for each of its calls, but is one source
  have hcalls : (∃ call ∈ cells.flatMap (unsupportedCalls g), call.1 = id ∧
      ∃ n, g.node? id = some n) ↔ ∃ r ∈ cells, (g.nodeId? r.cell.coordinate = some id ∧
        ∃ f, r.formula = some (.ok f) ∧ f.unsupported ≠ []) ∧ ∃ n, g.node? id = some n := by
    simp only [List.mem_flatMap, ← exists_unsupportedCalls_iff]
    grind
  simp only [findings, List.mem_append, or_and_right, exists_or, hlist, starts_formulaFinding?_iff,
    starts_cycleFinding?_iff, starts_outcomeFinding?_iff, starts_unsupportedFinding?_iff, hcalls,
    or_assoc]

end Sources

/-! ### Broken cells -/

/-- The run of a cluster with the stored inputs. -/
def observedRun (ctx : RunContext) (c : Cluster) : ClusterRun :=
  c.run ctx.engine ctx.graph ctx.constants (Synthesis.observedInputs ctx c)

/-- Something is wrong with the cell itself, not only with cells before it. -/
inductive Broken (ctx : RunContext) (snapshot : Snapshot) (id : Nat) : Prop
  /-- Its formula could not be read. -/
  | unreadable {n : Node} {cell : ClassifiedCell} {e : FormulaError}
      (hn : ctx.graph.node? id = some n) (hcell : cell ∈ snapshot.cells)
      (hcoordinate : cell.coordinate = n.coordinate)
      (hformula : (readCell ctx.engine cell).formula = some (.error e))
  /-- Its formula has unsupported calls. -/
  | unsupported {n : Node} {cell : ClassifiedCell} {f : Formula}
      (hn : ctx.graph.node? id = some n) (hcell : cell ∈ snapshot.cells)
      (hcoordinate : cell.coordinate = n.coordinate)
      (hformula : (readCell ctx.engine cell).formula = some (.ok f)) (hcalls : f.unsupported ≠ [])
  /-- It is on a cycle without leave to repeat. -/
  | rejected {r : CircularRef} (hr : r ∈ ctx.graph.cycles) (hiteration : r.iteration = none)
      (hid : id ∈ r.members)
  /-- It is on a cycle that has leave to repeat, and did not settle with the stored inputs. -/
  | unsettled {r : CircularRef} {c : Cluster} {o : CycleOutcome}
      (hr : ctx.graph.cycles[o.cycle]? = some r) (hiteration : r.iteration.isSome = true)
      (hid : id ∈ r.members) (hc : c ∈ ctx.graph.clusters) (ho : o ∈ (observedRun ctx c).cycles)
      (hstatus : o.Unsettled)

/-- The findings about a workbook, with the runs of all its clusters. -/
def recorded (ctx : RunContext) (snapshot : Snapshot) : List Finding :=
  findings ctx.graph (readCells ctx.engine snapshot) (ctx.graph.clusters.map (observedRun ctx))

section Built

variable (hb : ((readCells engine snapshot).filterMap (graphCell? snapshot options)).foldlM
  GraphBuilder.add .empty = .ok b)
include hb

/-- A cell that is no label is in the graph. -/
theorem exists_node_of_mem {cell : ClassifiedCell} (hcell : cell ∈ snapshot.cells)
    (hrole : cell.role ≠ .label) : ∃ v n, b.build.node? v = some n ∧
      graphCell? snapshot options (readCell engine cell) = some n.cell := by
  obtain ⟨role, hnode⟩ : ∃ role, cell.role.nodeRole? cell.hasFormula = some role := by
    cases hkind : cell.role with
    | label => exact absurd hkind hrole
    | _ => exact ⟨_, rfl⟩
  obtain ⟨graphCell, hgraph⟩ :
      ∃ graphCell, graphCell? snapshot options (readCell engine cell) = some graphCell := by
    rw [graphCell?, readCell, hnode]
    exact ⟨_, rfl⟩
  obtain ⟨v, n, hn, rfl⟩ := GraphBuilder.exists_node?_of_mem hb
    (List.mem_filterMap.mpr ⟨_, List.mem_map_of_mem hcell, hgraph⟩)
  exact ⟨v, n, hn, hgraph⟩

/-- A cell with logic is a computed cell of the workbook. -/
theorem exists_computed_of_hasLogic {v : Nat} {n : Node} (hn : b.build.node? v = some n)
    (hlogic : n.hasLogic = true) : ∃ cell ∈ snapshot.cells, cell.isComputed = true ∧
      graphCell? snapshot options (readCell engine cell) = some n.cell := by
  rcases GraphBuilder.mem_or_input_of_node? hb hn with hcell | ⟨hexpr, hfailed⟩
  case inr =>
    rw [Node.hasLogic, hexpr, hfailed] at hlogic
    cases hlogic
  case inl =>
    obtain ⟨r, hr, hgraph⟩ := List.mem_filterMap.mp hcell
    obtain ⟨cell, hcell, rfl⟩ := List.mem_map.mp hr
    refine ⟨cell, hcell, ?_, hgraph⟩
    obtain ⟨-, -, hformula⟩ := graphCell?_eq_some hgraph
    by_contra hnot
    rw [readCell, if_neg hnot] at hformula
    rw [Node.hasLogic, hformula.1, hformula.2] at hlogic
    cases hlogic

/-- A cell with logic is no input. -/
theorem role_ne_input {v : Nat} {n : Node} (hn : b.build.node? v = some n)
    (hlogic : n.hasLogic = true) : n.role ≠ .input := by
  obtain ⟨cell, -, hcomputed, hgraph⟩ := exists_computed_of_hasLogic hb hn hlogic
  obtain ⟨-, hrole, -⟩ := graphCell?_eq_some hgraph
  have hformula : cell.hasFormula = true := ((Bool.and_eq_true _ _).mp hcomputed).2
  intro hinput
  rw [Node.role] at hinput
  rw [readCell, hinput] at hrole
  dsimp only at hrole
  rw [hformula] at hrole
  cases hkind : cell.role <;> rw [hkind] at hrole <;> cases hrole

omit hb in
/-- A cluster is told of if one of its cells has logic and is no input. -/
theorem hasLogic_of_node {c : Cluster} (hc : c ∈ b.build.clusters) {v : Nat} {n : Node}
    (hn : b.build.node? v = some n) (hcluster : n.cluster = c.id) (hrole : n.role ≠ .input)
    (hlogic : n.hasLogic = true) : hasLogic b.build c = true := by
  have hmem := (GraphBuilder.mem_later_iff hc hn hrole).mpr hcluster
  exact List.any_eq_true.mpr ⟨n, List.mem_filterMap.mpr ⟨v, hmem, hn⟩, hlogic⟩

/-- **A cluster with a cycle has a formula.** -/
theorem hasLogic_of_mem_cycles {c : Cluster} (hc : c ∈ b.build.clusters) {o : CycleOutcome}
    (ho : o ∈ (observedRun (context options engine snapshot b.build) c).cycles) :
    hasLogic b.build c = true := by
  have hidx := (GraphBuilder.indexed_of_foldlM GraphBuilder.indexed_empty hb).1
  have hsub := GraphBuilder.schedule_sublist hc
  have hstep : Step.cycle o.cycle ∈ c.schedule := by
    rw [← GraphBuilder.mem_filterMap_cycle?,
      ← GraphBuilder.map_cycle_ofSchedule hidx engine snapshot.constants _ hsub]
    exact List.mem_map_of_mem ho
  have hscheduled := hsub.subset hstep
  -- any cell on the cycle will do
  obtain ⟨x, hx⟩ := List.exists_mem_of_ne_nil _ (GraphBuilder.members_ne_nil hidx hscheduled)
  obtain ⟨n, hn⟩ : ∃ n, b.build.node? x = some n :=
    ⟨_, Array.getElem?_eq_getElem ((GraphBuilder.members_build hidx hscheduled).2 x hx)⟩
  have hcluster : n.cluster = c.id := by
    have howner := ((GraphBuilder.mem_schedule_iff hidx hc hx).mp hstep).2
    rw [Graph.clusterOf?, hn] at howner
    exact Option.some.inj howner
  have hexpr := GraphBuilder.isSome_expr_of_mem_cycle hidx hx hn
  have hlogic : n.hasLogic = true := by
    rw [Node.hasLogic, hexpr]
    rfl
  exact hasLogic_of_node hc hn hcluster (role_ne_input hb hn hlogic) hlogic

/-- **The clusters that are left out have nothing to tell.** -/
theorem findings_observedRuns :
    findings b.build (readCells engine snapshot)
      (observedRuns (context options engine snapshot b.build)) =
      recorded (context options engine snapshot b.build) snapshot := by
  have hcycles : ∀ clusters : List Cluster, (∀ c ∈ clusters, c ∈ b.build.clusters) →
      (clusters.filter (hasLogic b.build)).flatMap
        (fun c => (observedRun (context options engine snapshot b.build) c).cycles) =
      clusters.flatMap
        (fun c => (observedRun (context options engine snapshot b.build) c).cycles) := by
    intro clusters hall
    induction clusters with
    | nil => rfl
    | cons c rest ih =>
      have hrest := ih fun d hd => hall d (List.mem_cons_of_mem _ hd)
      rw [List.filter_cons, List.flatMap_cons]
      split
      · rw [List.flatMap_cons, hrest]
      case isFalse hnone =>
        have hempty : (observedRun (context options engine snapshot b.build) c).cycles = [] := by
          refine List.eq_nil_iff_forall_not_mem.mpr fun o ho => hnone ?_
          exact hasLogic_of_mem_cycles hb (hall c List.mem_cons_self) ho
        rw [hempty, hrest]
        rfl
  have hruns : (observedRuns (context options engine snapshot b.build)).flatMap ClusterRun.cycles =
      (b.build.clusters.map (observedRun (context options engine snapshot b.build))).flatMap
        ClusterRun.cycles := by
    rw [observedRuns, List.map_map, List.flatMap_map, List.flatMap_map, ← hcycles _ fun c hc => hc]
    exact List.flatMap_congr fun c _ => congrArg _ (Synthesis.observed_ofCluster _ c)
  rw [recorded, findings, hruns]
  rfl

/-- **The findings start at the broken cells**, at all of them and at no others. -/
theorem starts_recorded_iff {id : Nat} :
    (∃ f ∈ recorded (context options engine snapshot b.build) snapshot, id ∈ f.sources) ↔
      Broken (context options engine snapshot b.build) snapshot id := by
  have hidx := (GraphBuilder.indexed_of_foldlM GraphBuilder.indexed_empty hb).1
  rw [recorded, starts_findings_iff]
  constructor
  · rintro (⟨r, hr, hid, e, he⟩ | ⟨r, hr, hiteration, -, hid⟩ | ⟨o, ho, hstatus, r, hr, -, hid⟩ |
      ⟨r, hr, ⟨hid, f, hf, hcalls⟩, -⟩)
    · obtain ⟨cell, hcell, rfl⟩ := List.mem_map.mp hr
      obtain ⟨n, hn, hcoordinate⟩ := GraphBuilder.exists_node?_of_nodeId? hidx hid
      exact .unreadable hn hcell hcoordinate.symm he
    · exact .rejected hr hiteration hid
    · obtain ⟨run, hrun, ho⟩ := List.mem_flatMap.mp ho
      obtain ⟨c, hc, rfl⟩ := List.mem_map.mp hrun
      obtain ⟨r', hr', hrejected⟩ : ClusterRun.FromCycle b.build o :=
        ClusterRun.fromCycle_run (fun _ hnone => by cases hnone) o ho
      obtain rfl := Option.some.inj (hr.symm.trans hr')
      refine .unsettled hr ?_ hid hc ho hstatus
      -- a cycle without leave to repeat is rejected
      rw [Option.isSome_iff_ne_none, Ne, ← hrejected]
      rintro heq
      rcases hstatus with hstatus | hstatus <;> rw [heq] at hstatus <;> cases hstatus
    · obtain ⟨cell, hcell, rfl⟩ := List.mem_map.mp hr
      obtain ⟨n, hn, hcoordinate⟩ := GraphBuilder.exists_node?_of_nodeId? hidx hid
      exact .unsupported hn hcell hcoordinate.symm hf hcalls
  · intro hbroken
    cases hbroken with
    | unreadable hn hcell hcoordinate hformula =>
      have hid := GraphBuilder.nodeId?_coordinate hidx hn
      rw [← hcoordinate] at hid
      exact .inl ⟨_, List.mem_map_of_mem hcell, hid, _, hformula⟩
    | unsupported hn hcell hcoordinate hformula hcalls =>
      have hid := GraphBuilder.nodeId?_coordinate hidx hn
      rw [← hcoordinate] at hid
      exact .inr (.inr (.inr ⟨_, List.mem_map_of_mem hcell, ⟨hid, _, hformula, hcalls⟩, _, hn⟩))
    | rejected hr hiteration hid =>
      exact .inr (.inl ⟨_, hr, hiteration, GraphBuilder.cycle_ne_nil hidx hr, hid⟩)
    | unsettled hr _ hid hc ho hstatus =>
      have hne := GraphBuilder.cycle_ne_nil hidx (List.mem_of_getElem? hr)
      exact .inr (.inr (.inl ⟨_, List.mem_flatMap.mpr ⟨_, List.mem_map_of_mem hc, ho⟩, hstatus, _,
        hr, hne, hid⟩))

end Built

end Compilation

end Recalc
