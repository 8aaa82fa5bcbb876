/-
Recalc/Graph/Build.lean

Building the graph of some cells.  Single cells that are referred to but not given are
added first, in the order of the references; ranges then link to every cell of the graph
inside them, found between their corners in the index and not by walking the range.  Of several references to
one cell the first makes the edge.
-/
import Recalc.Graph.DisjointSets
import Recalc.Graph.Plan

namespace Recalc

/-- The cells of a graph to be. -/
structure GraphBuilder where
  cells : Array GraphCell
  index : Std.TreeMap Coordinate Nat

namespace GraphBuilder

/-- No cells. -/
def empty : GraphBuilder := ⟨#[], ∅⟩

/-- The number of cells. -/
def size (b : GraphBuilder) : Nat := b.cells.size

/-- Add a cell under the next number. -/
def push (b : GraphBuilder) (c : GraphCell) : GraphBuilder :=
  ⟨b.cells.push c, b.index.insert c.coordinate b.cells.size⟩

/-- Add a cell that is not there yet. -/
def add (b : GraphBuilder) (c : GraphCell) : Except GraphError GraphBuilder :=
  if b.index.contains c.coordinate then .error (.duplicate c.coordinate) else .ok (b.push c)

/-! ### Edges -/

/-- Add a referred cell, unless it is there. -/
def pushImplicit (b : GraphBuilder) (r : Reference) : GraphBuilder :=
  match r.target with
  | .cell c => if b.index.contains c then b else b.push (.input c)
  | .range _ => b

/-- With all single cells referred to. -/
def withImplicit (b : GraphBuilder) : GraphBuilder :=
  (b.cells.toList.flatMap GraphCell.references).foldl pushImplicit b

/-- The cells of the graph that a target points at, in order. -/
def targeted (b : GraphBuilder) : Target → List Nat
  | .cell c => (b.index[c]?).toList
  | .range r => (r.entries b.index).map Prod.snd

/-- Of several links to one cell the first. -/
def firstLinks (seen : List Nat) : List (Nat × EdgeKind) → List (Nat × EdgeKind)
  | [] => []
  | (id, kind) :: rest =>
    if seen.contains id then firstLinks seen rest else (id, kind) :: firstLinks (id :: seen) rest

/-- The edges to a cell. -/
def edgesTo (b : GraphBuilder) (cell : GraphCell) (id : Nat) : List Edge :=
  let links := cell.references.flatMap fun r =>
    (b.targeted r.target).map (·, EdgeKind.ofReference r cell.coordinate.sheet)
  (firstLinks [] links).map fun (source, kind) => ⟨source, id, kind⟩

/-- All edges, by the cells they lead to. -/
def edges (b : GraphBuilder) : List Edge :=
  b.cells.toList.zipIdx.flatMap fun (cell, id) => b.edgesTo cell id

/-! ### Cycles and clusters -/

/-- The cycle of some cells; it may be settled by repetition if all of them may. -/
def circularRef (cells : Array GraphCell) (members : List Nat) : CircularRef :=
  let found := members.filterMap fun id => cells[id]?.map fun cell => (id, cell)
  let sorted := found.mergeSort fun (_, c) (_, d) => c.coordinate.le d.coordinate
  let iterations := sorted.mapM fun (_, cell) => cell.iteration
  ⟨sorted.map fun (_, cell) => cell.coordinate, sorted.map Prod.fst,
    match iterations with
    | some (first :: rest) => some (rest.foldl Iteration.strictest first)
    | _ => none⟩

/-- The parts of a cluster. -/
inductive Part
  | inputs
  | outputs
  | intermediates
deriving DecidableEq, Repr

/-- The part that a cell belongs to. -/
def partOf (n : Node) : Part :=
  match n.role with
  | .input => .inputs
  | .output => .outputs
  | .formula => if n.dependents.isEmpty then .outputs else .intermediates

/-- The cluster of a number. -/
def cluster (nodes : Array Node) (plan : Plan) (id : Nat) : Cluster :=
  let own := nodes.toList.filter (·.cluster == id)
  let part (p : Part) : List Nat := (own.filter (partOf · == p)).map Node.id
  let owner (step : Step) : Option Nat :=
    (plan.members step).head?.bind fun v => nodes[v]?.map Node.cluster
  ⟨id, part .inputs, part .outputs, part .intermediates,
    plan.schedule.filter fun step => owner step == some id⟩

/-- The graph of the cells. -/
def build (b : GraphBuilder) : Graph :=
  let full := b.withImplicit
  let n := full.size
  let edges := full.edges
  let dependents := Adjacency.ofPairs n (edges.map fun e => (e.source, e.target))
  let precedents := Adjacency.ofPairs n (edges.map fun e => (e.target, e.source))
  let plan := Plan.ofAdjacency dependents
  let depths := plan.depths precedents
  let onCycle := plan.cycles.flatten
  let classes := (DisjointSets.ofPairs n (edges.map fun e => (e.source, e.target))).classes
  let nodes := full.cells.mapIdx fun id cell =>
    { id, cell,
      implicit := b.size ≤ id,
      precedents := precedents.next id,
      dependents := dependents.next id,
      depth := if onCycle.contains id then none else depths[id]?,
      cluster := classes[id]?.getD 0 : Node }
  let count := (classes.map (· + 1)).foldl max 0
  { nodes, edges,
    schedule := plan.schedule,
    cycles := plan.cycles.map (circularRef full.cells),
    clusters := (List.range count).map (cluster nodes plan),
    index := full.index,
    dependents }

end GraphBuilder

end Recalc
