/-
Recalc/Graph/Peel.lean

Peeling a graph: numbers without predecessors come first, then those whose predecessors
are all taken, first come first served.  What lies on a cycle or behind one is never
taken.
-/
import Recalc.Graph.Adjacency

namespace Recalc.Adjacency

/-- How many edges lead to each number. -/
def inDegrees (a : Adjacency) : Array Nat :=
  a.foldl (fun d next => next.foldl (fun d v => d.modify v (· + 1)) d) (Array.replicate a.size 0)

/-- Take one edge to `v` away; `v` is ready once none is left. -/
def relax (state : Array Nat × List Nat) (v : Nat) : Array Nat × List Nat :=
  let left := state.1[v]?.getD 0 - 1
  (state.1.setIfInBounds v left, if left = 0 then state.2 ++ [v] else state.2)

/-- Take the numbers of a queue, and behind them those that become ready. -/
def peelFrom (a : Adjacency) : Nat → Array Nat → List Nat → List Nat
  | 0, _, _ => []
  | _ + 1, _, [] => []
  | fuel + 1, degrees, v :: queue =>
    let (degrees, ready) := (a.next v).foldl relax (degrees, [])
    v :: peelFrom a fuel degrees (queue ++ ready)

/-- The numbers in the order they are taken; each is taken at most once. -/
def peel (a : Adjacency) : List Nat :=
  let degrees := a.inDegrees
  peelFrom a a.size degrees ((List.range a.size).filter fun v => degrees[v]? == some 0)

end Recalc.Adjacency
