/-
Recalc/Graph/Plan.lean

The order of evaluation.  Cells are peeled off the graph as long as this works.  What is
left lies on a cycle or behind one: it is grouped into strongly connected components,
numbered by their least members, and the components are peeled in turn.  A component of
several cells, or of one that refers to itself, is a cycle; cycles are numbered in the
order they are taken.
-/
import Recalc.Graph.Basic
import Recalc.Graph.Components
import Recalc.Graph.Peel

namespace Recalc

/-- A schedule and the members of its cycles. -/
structure Plan where
  schedule : List Step
  cycles : List (List Nat)

namespace Plan

/-- Components that are not a single cell without a reference to itself. -/
def isCycle (a : Adjacency) (members : List Nat) : Bool :=
  match members with
  | [v] => (a.next v).contains v
  | _ => true

/-- The steps of components in order, cycles being numbered from `k` on. -/
def steps (a : Adjacency) (k : Nat) : List (List Nat) → Plan
  | [] => ⟨[], []⟩
  | members :: rest =>
    if isCycle a members then
      let plan := steps a (k + 1) rest
      ⟨.cycle k :: plan.schedule, members :: plan.cycles⟩
    else
      let plan := steps a k rest
      ⟨.node (members.headD 0) :: plan.schedule, plan.cycles⟩

/-- The component of each number, by its place in the list. -/
def unitOf (n : Nat) (units : List (List Nat)) : Array Nat :=
  units.zipIdx.foldl
    (fun owner (members, u) => members.foldl (fun owner v => owner.setIfInBounds v u) owner)
    (Array.replicate n units.length)

/-- The edges between different components, one for each edge between their members. -/
def unitEdges (a : Adjacency) (units : List (List Nat)) : Adjacency :=
  let owner := unitOf a.size units
  let leaving (members : List Nat) (u : Nat) : List Nat :=
    (members.flatMap a.next).filterMap fun v =>
      match owner[v]? with
      | some w => if w ≠ u ∧ w < units.length then some w else none
      | none => none
  (units.zipIdx.map fun (members, u) => leaving members u).toArray

/-- The plan of a graph, given by the dependents of each cell. -/
def ofAdjacency (a : Adjacency) : Plan :=
  let first := a.peel
  let placed := first.foldl (fun m v => m.setIfInBounds v true) (Array.replicate a.size false)
  let isLeft (v : Nat) : Bool := placed[v]? == some false
  let residue := (List.range a.size).filter isLeft
  let sorted := (a.components isLeft residue).map (·.mergeSort)
  let units := sorted.mergeSort fun c d => c.headD 0 ≤ d.headD 0
  let order := (unitEdges a units).peel
  let rest := steps a 0 (order.filterMap (units[·]?))
  ⟨first.map .node ++ rest.schedule, rest.cycles⟩

/-- The cells of a step. -/
def members (p : Plan) : Step → List Nat
  | .node id => [id]
  | .cycle k => p.cycles[k]?.getD []

/-- The longest chain of steps before each cell: one more than the longest before any precedent
outside its own step. -/
def depths (p : Plan) (precedents : Adjacency) : Array Nat :=
  p.schedule.foldl
    (fun depths step =>
      let ms := p.members step
      let outside := (ms.flatMap precedents.next).filter fun v => !ms.contains v
      let depth := (outside.map fun v => depths[v]?.getD 0 + 1).foldl max 0
      ms.foldl (fun depths v => depths.setIfInBounds v depth) depths)
    (Array.replicate precedents.size 0)

end Plan

end Recalc
