/-
Recalc/Workbook/Compilation.lean

Compiling a workbook: its names are resolved, its formulas read, its graph built, its
clusters run and tested, and what went wrong is reported.  A formula that cannot be read
fails its cell and never the workbook; only repeated cells, cells on undeclared sheets and
names without a target do.

Findings are told in this order: formulas that cannot be read, cycles without leave to
repeat, cycles that did not settle, unsupported calls.
-/
import Recalc.Formula.Printer
import Recalc.Graph.Build
import Recalc.Workbook.Report
import Recalc.Workbook.Synthesis

namespace Recalc

/-- A formula cell of a workbook. -/
structure CellLogic where
  coordinate : Coordinate
  role : Role
  /-- The formula as it was written. -/
  source : String
  /-- The formula in its regular form, unless it could not be read. -/
  formula : Option String
  expr : Option Expr
  /-- The value for the stored inputs. -/
  value : Value
  inferred : Inference
  depth : Option Nat

/-- An unsupported call of a cell. -/
structure UnsupportedFeature where
  cell : Coordinate
  call : Unsupported
  /-- Cells that depend on the cell. -/
  impacted : List Coordinate
deriving DecidableEq, Repr

/-- A name and perhaps a description for a cell. -/
structure CellAnnotation where
  name : String
  description : Option String
deriving DecidableEq, Repr

/-- Words for people about a cluster. -/
structure Enrichment where
  ruleName : Option String
  cells : List (Coordinate × CellAnnotation)
deriving DecidableEq, Repr

/-- No words. -/
def Enrichment.none : Enrichment := ⟨Option.none, []⟩

/-- Everything about one cluster. -/
structure ClusterLogic where
  clusterId : Nat
  inputs : List Coordinate
  outputs : List Coordinate
  /-- Formula cells, in the order of the workbook. -/
  cells : List CellLogic
  tests : List TestCase
  unsupportedFeatures : List UnsupportedFeature
  cycles : List CycleOutcome
  enrichment : Option Enrichment

/-- Finds words for a cluster, if it can. -/
abbrev Enricher := ClusterLogic → Option Enrichment

/-- A compiled workbook. -/
structure Compilation where
  graph : Graph
  results : List ClusterLogic
  errors : ErrorReport

namespace Compilation

/-- The logic of the cluster that a cell belongs to. -/
def resultFor? (c : Compilation) (at_ : Coordinate) : Option ClusterLogic := do
  let id ← c.graph.nodeId? at_
  let node ← c.graph.node? id
  c.results.find? (·.clusterId == node.cluster)

/-- The value of a formula cell for the stored inputs. -/
def value? (c : Compilation) (at_ : Coordinate) : Option Value := do
  let result ← c.resultFor? at_
  let cell ← result.cells.find? (·.coordinate == at_)
  return cell.value

/-- The number of tests of all clusters. -/
def testCount (c : Compilation) : Nat := (c.results.map (·.tests.length)).foldr (· + ·) 0

/-! ### Cells -/

/-- A cell with the result of reading its formula, if it has one. -/
structure ReadCell where
  cell : ClassifiedCell
  formula : Option (Except FormulaError Formula)

/-- Read the formula of a cell. -/
def readCell (engine : Engine) (cell : ClassifiedCell) : ReadCell :=
  ⟨cell, if cell.isComputed then
      some (engine.compile (cell.rawFormula.getD "") cell.coordinate.sheet)
    else none⟩

/-- The cell in the graph; labels stay out. -/
def graphCell? (snapshot : Snapshot) (options : CompilerOptions) (r : ReadCell) :
    Option GraphCell := do
  let role ← r.cell.role.nodeRole? r.cell.hasFormula
  return match r.formula with
    | some (.ok f) =>
      ⟨r.cell.coordinate, role, some f.expr, false,
        (r.cell.iteration.or snapshot.iteration).or options.defaultIteration⟩
    | some (.error _) => ⟨r.cell.coordinate, role, none, true, none⟩
    | none => ⟨r.cell.coordinate, role, none, false, none⟩

/-- The builder with all cells of the workbook. -/
def builder (snapshot : Snapshot) (options : CompilerOptions) (cells : List ReadCell) :
    Except CompileError GraphBuilder :=
  ((cells.filterMap (graphCell? snapshot options)).foldlM GraphBuilder.add .empty).mapError .graph

/-! ### Findings -/

/-- The finding that a formula could not be read. -/
def formulaFinding? (g : Graph) (r : ReadCell) : Option Finding := do
  let id ← g.nodeId? r.cell.coordinate
  match r.formula with
  | some (.error e) =>
    let kind : IssueKind := match e with
      | .parse _ _ => .parseError
      | .unknownReference _ _ => .unknownReference
      | .arity _ _ _ _ => .arityError
    some ⟨kind, r.cell.coordinate, e.message, some e.position, [id]⟩
  | _ => none

/-- The finding that a cycle has no leave to repeat. -/
def cycleFinding? (c : CircularRef) : Option Finding :=
  match c.iteration, c.cycle with
  | none, first :: _ =>
    let path := " -> ".intercalate (c.cycle.map Coordinate.text)
    some ⟨.circularReference, first, "circular reference: " ++ path, none, c.members⟩
  | _, _ => none

/-- The finding that a cycle did not settle. -/
def outcomeFinding? (g : Graph) (o : CycleOutcome) : Option Finding := do
  let circular ← g.cycles[o.cycle]?
  let first ← circular.cycle.head?
  let (kind, message) ←
    match o.status with
    | .rejected => none
    | .converged => none
    | .didNotConverge =>
      some (IssueKind.didNotConverge,
        s!"iterative cycle did not converge after {o.iterations} iterations")
    | .nonNumeric =>
      some (IssueKind.circularReference,
        s!"iterative cycle produced a non-numeric value at iteration {o.iterations}")
  return ⟨kind, first, message, none, circular.members⟩

/-- What to say about an unsupported call. -/
def unsupportedMessage (u : Unsupported) : String :=
  match u.reason with
  | .dynamicReference => s!"{u.function} computes its reference at runtime"
  | .unknownFunction => s!"unknown function {u.function}"

/-- The unsupported calls of a cell, with the cell's number. -/
def unsupportedCalls (g : Graph) (r : ReadCell) : List (Nat × Unsupported) :=
  match g.nodeId? r.cell.coordinate, r.formula with
  | some id, some (.ok f) => f.unsupported.map (id, ·)
  | _, _ => []

/-- The finding that a call is not supported. -/
def unsupportedFinding? (g : Graph) (call : Nat × Unsupported) : Option Finding := do
  let node ← g.node? call.1
  return ⟨.unsupportedConstruct, node.coordinate, unsupportedMessage call.2, some call.2.position,
    [call.1]⟩

/-- All findings about a workbook. -/
def findings (g : Graph) (cells : List ReadCell) (runs : List ClusterRun) : List Finding :=
  cells.filterMap (formulaFinding? g) ++ g.cycles.filterMap cycleFinding? ++
    (runs.flatMap ClusterRun.cycles).filterMap (outcomeFinding? g) ++
    (cells.flatMap (unsupportedCalls g)).filterMap (unsupportedFinding? g)

/-! ### Clusters -/

/-- The cluster has a formula cell. -/
def hasLogic (g : Graph) (c : Cluster) : Bool :=
  (g.nodesOf (c.intermediates ++ c.outputs)).any Node.hasLogic

/-- The logic of a formula cell. -/
def cellLogic (ctx : RunContext) (s : Synthesis) (n : Node) : CellLogic :=
  let c := n.coordinate
  { coordinate := c,
    role := n.role,
    source := (ctx.cells[c]?.bind ClassifiedCell.rawFormula).getD "",
    formula := n.cell.expr.map (·.toFormula c.sheet),
    expr := n.cell.expr,
    value := (s.observed.computed[c]?.or ctx.constants[c]?).getD .empty,
    inferred := Inference.ofSamples ((List.lookup n.id s.samples).getD []),
    depth := n.depth }

/-- Everything about a cluster. -/
def clusterLogic (ctx : RunContext) (calls : List (Nat × Unsupported)) (c : Cluster)
    (s : Synthesis) : ClusterLogic :=
  let g := ctx.graph
  let formulas := g.nodes.toList.filter fun n =>
    n.hasLogic && (c.intermediates.contains n.id || c.outputs.contains n.id)
  let feature? (call : Nat × Unsupported) : Option UnsupportedFeature := do
    let node ← g.node? call.1
    let finding ← unsupportedFinding? g call
    if node.cluster = c.id then
      some ⟨node.coordinate, call.2, (g.issue finding).impacted⟩
    else none
  { clusterId := c.id,
    inputs := g.coordinates c.inputs,
    outputs := g.coordinates c.outputs,
    cells := formulas.map (cellLogic ctx s),
    tests := s.tests,
    unsupportedFeatures := calls.filterMap feature?,
    cycles := s.observed.cycles,
    enrichment := none }

/-- A cluster with the words that an enricher finds for it. -/
def enriched (enricher : Option Enricher) (c : ClusterLogic) : ClusterLogic :=
  { c with enrichment := enricher.bind (· c) }

/-! ### Workbooks -/

/-- Compile the cells of a workbook whose sheets are spelt alike. -/
def ofCells (options : CompilerOptions) (enricher : Option Enricher) (engine : Engine)
    (snapshot : Snapshot) : Except CompileError Compilation := do
  let cells := snapshot.cells.map (readCell engine)
  let graph := (← builder snapshot options cells).build
  let ctx : RunContext :=
    { engine, graph, options,
      constants := snapshot.constants,
      cells := snapshot.cells.foldl (fun m c => m.insert c.coordinate c) ∅ }
  let clusters := graph.clusters.filter (hasLogic graph)
  let syntheses := clusters.map (Synthesis.ofCluster ctx)
  let calls := cells.flatMap (unsupportedCalls graph)
  let results := (clusters.zip syntheses).map fun (c, s) => clusterLogic ctx calls c s
  return {
    graph,
    results := results.map (enriched enricher),
    errors := graph.report (findings graph cells (syntheses.map Synthesis.observed)) }

end Compilation

/-- Compile a workbook. -/
def Snapshot.compile (options : CompilerOptions) (enricher : Option Enricher)
    (snapshot : Snapshot) : Except CompileError Compilation := do
  let names ← snapshot.nameTable
  let snapshot := snapshot.canonical names
  snapshot.validate
  Compilation.ofCells options enricher ⟨names, .builtin, options.evalOptions⟩ snapshot

end Recalc
