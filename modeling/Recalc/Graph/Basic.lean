/-
Recalc/Graph/Basic.lean

The dependency graph of a workbook.  Its nodes are the cells, numbered in the order they
were given; cells that are referred to but not given follow as implicit inputs.  An edge
leads from a cell to a cell whose formula refers to it.

The schedule lists single cells and whole cycles so that every cell comes after the cells
that it depends on.  A cluster is a set of cells that no edge leaves.
-/
import Recalc.Eval.Source
import Recalc.Formula.Expr
import Recalc.Graph.Adjacency

namespace Recalc

/-- What a cell is for. -/
inductive Role
  | input
  | formula
  | output
deriving DecidableEq, Repr

namespace Role

/-- The name of a role. -/
def tag : Role → String
  | .input => "input"
  | .formula => "formula"
  | .output => "output"

/-- The role of a given name. -/
def ofTag? (s : String) : Option Role := [input, formula, output].find? (·.tag == s)

end Role

/-- Leave to settle a cycle by repetition. -/
structure Iteration where
  maxIterations : Nat
  /-- A change below this counts as settled. -/
  threshold : Float

/-- The stricter of each limit. -/
def Iteration.strictest (a b : Iteration) : Iteration :=
  ⟨min a.maxIterations b.maxIterations, Binary64.smaller a.threshold b.threshold⟩

/-- How an edge came about. -/
inductive EdgeKind
  | direct
  | range
  | named
  | crossSheet
deriving DecidableEq, Repr

namespace EdgeKind

/-- The name of a kind of edge. -/
def tag : EdgeKind → String
  | .direct => "direct"
  | .range => "range"
  | .named => "named"
  | .crossSheet => "crossSheet"

/-- The kind of the edges that a reference on a sheet makes. -/
def ofReference (r : Reference) (sheet : String) : EdgeKind :=
  if r.name.isSome then .named
  else if r.target.sheet ≠ sheet then .crossSheet
  else match r.target with
    | .cell _ => .direct
    | .range _ => .range

end EdgeKind

/-- An edge from a cell referred to. -/
structure Edge where
  source : Nat
  target : Nat
  kind : EdgeKind
deriving DecidableEq, Repr

/-- A cell of the graph. -/
structure GraphCell where
  coordinate : Coordinate
  role : Role
  expr : Option Expr
  /-- The formula of the cell could not be read. -/
  failed : Bool
  iteration : Option Iteration

namespace GraphCell

/-- A cell without a formula. -/
def input (c : Coordinate) : GraphCell := ⟨c, .input, none, false, none⟩

/-- The references of the cell's formula. -/
def references (c : GraphCell) : List Reference := (c.expr.map Expr.references).getD []

end GraphCell

/-- A cell with its place in the graph. -/
structure Node where
  id : Nat
  cell : GraphCell
  /-- Referred to but not given. -/
  implicit : Bool
  precedents : List Nat
  dependents : List Nat
  /-- The length of the longest chain before the cell; none on a cycle. -/
  depth : Option Nat
  cluster : Nat

namespace Node

/-- The coordinate of the cell. -/
def coordinate (n : Node) : Coordinate := n.cell.coordinate

/-- The role of the cell. -/
def role (n : Node) : Role := n.cell.role

/-- The cell has a formula, readable or not. -/
def hasLogic (n : Node) : Bool := n.cell.expr.isSome || n.cell.failed

/-- How many cells the cell depends on. -/
def inDegree (n : Node) : Nat := n.precedents.length

/-- How many cells depend on the cell. -/
def outDegree (n : Node) : Nat := n.dependents.length

end Node

/-- A cycle of references, its members in the order of their coordinates. -/
structure CircularRef where
  cycle : List Coordinate
  members : List Nat
  /-- How to settle it, if all members agree to; a fault otherwise. -/
  iteration : Option Iteration

/-- A step of a schedule: a cell, or a cycle by its number. -/
inductive Step
  | node (id : Nat)
  | cycle (index : Nat)
deriving DecidableEq, Repr

/-- The cell of a step that is one. -/
def Step.node? : Step → Option Nat
  | .node id => some id
  | .cycle _ => none

/-- Cells connected with each other. -/
structure Cluster where
  id : Nat
  inputs : List Nat
  /-- Declared outputs, and formulas that nothing depends on. -/
  outputs : List Nat
  intermediates : List Nat
  /-- The cluster's share of the schedule. -/
  schedule : List Step
deriving DecidableEq, Repr

namespace Cluster

/-- The number of cells. -/
def size (c : Cluster) : Nat := c.inputs.length + c.outputs.length + c.intermediates.length

/-- The cell belongs to the cluster. -/
def contains (c : Cluster) (id : Nat) : Bool :=
  c.inputs.contains id || c.outputs.contains id || c.intermediates.contains id

end Cluster

/-- Why a cell was refused or not found. -/
inductive GraphError
  | duplicate (c : Coordinate)
  | unknown (c : Coordinate)
deriving DecidableEq, Repr

/-- The wording of a graph error. -/
def GraphError.message : GraphError → String
  | .duplicate c => s!"cell {c.text} added to the graph twice"
  | .unknown c => s!"cell {c.text} is not a graph node"

/-- A dependency graph. -/
structure Graph where
  nodes : Array Node
  edges : List Edge
  schedule : List Step
  cycles : List CircularRef
  clusters : List Cluster
  /-- The numbers of the cells. -/
  index : Std.TreeMap Coordinate Nat
  dependents : Adjacency

namespace Graph

/-- The cells outside cycles, in the order of the schedule. -/
def topologicalOrder (g : Graph) : List Nat := g.schedule.filterMap Step.node?

/-- The number of a cell. -/
def nodeId? (g : Graph) (c : Coordinate) : Option Nat := g.index[c]?

/-- The number of a cell that must be there. -/
def require (g : Graph) (c : Coordinate) : Except GraphError Nat :=
  match g.nodeId? c with
  | some id => .ok id
  | none => .error (.unknown c)

/-- The node of a number. -/
def node? (g : Graph) (id : Nat) : Option Node := g.nodes[id]?

/-- The nodes of some numbers. -/
def nodesOf (g : Graph) (ids : List Nat) : List Node := ids.filterMap g.node?

/-- The cycle that a cell is on. -/
def cycleOf? (g : Graph) (id : Nat) : Option Nat :=
  g.cycles.findIdx? (·.members.contains id)

/-- There is no cycle. -/
def isAcyclic (g : Graph) : Bool := g.cycles.isEmpty

/-- What depends on some cells, directly or not, in order. -/
def forwardReachable (g : Graph) (starts : List Nat) : List Nat := g.dependents.reachable starts

end Graph

end Recalc
