/-
Recalc/Proofs/Graph/Downstream.lean

What lies downstream of some cells.  The search along edges finds exactly the cells that a path
of one edge or more leads to from one of its starts, each once and in order.  A start is found
only if such a path leads back to it:

    s ∈ g.forwardReachable starts ↔ s is on a listed cycle, or another start leads to s

(`exactReach_build`).

Design.  The search itself is `Adjacency.closure`, and what it marks is said in `Reach`.  Here
its edges are told as those of the graph, and its paths from a cell to itself as listed cycles.
-/
import Recalc.Proofs.Graph.Cycles
import Recalc.Proofs.Graph.Edges

open Relation

namespace Recalc

/-- What a search from some cells owes the edges and the cycles of a graph. -/
structure Graph.ExactReach (g : Graph) (starts : List Nat) : Prop where
  /-- Edges lead from a cell to those that the cell lists as its dependents. -/
  adj_iff : ∀ u v, g.Adj u v ↔ ∃ node, g.node? u = some node ∧ v ∈ node.dependents
  /-- What is found is a set of cells, in the order of their numbers. -/
  sorted : (g.forwardReachable starts).Pairwise (· < ·)
  /-- A cell is found exactly if a path of one edge or more leads to it from a start. -/
  mem_iff : ∀ v, v ∈ g.forwardReachable starts ↔ ∃ s ∈ starts, TransGen g.Adj s v
  /-- A start is found exactly if it is on a cycle or another start leads to it. -/
  start_iff : ∀ s ∈ starts, (s ∈ g.forwardReachable starts ↔
    (g.cycleOf? s).isSome = true ∨ ∃ t ∈ starts, t ≠ s ∧ TransGen g.Adj t s)

namespace GraphBuilder

variable {b : GraphBuilder} {u v s : Nat} {starts : List Nat}

theorem exists_node?_of_adj (h : b.Indexed) (hadj : b.build.Adj u v) :
    ∃ node, b.build.node? u = some node := by
  have hu := (adj_lt_size h hadj).1
  exact ⟨b.build.nodes[u], Array.getElem?_eq_getElem hu⟩

/-- Edges lead to dependents. -/
theorem adj_iff_mem_dependents (h : b.Indexed) :
    b.build.Adj u v ↔ ∃ node, b.build.node? u = some node ∧ v ∈ node.dependents := by
  constructor
  · intro hadj
    obtain ⟨node, hnode⟩ := exists_node?_of_adj h hadj
    exact ⟨node, hnode, (mem_dependents_iff hnode).mpr hadj⟩
  · rintro ⟨node, hnode, hv⟩
    exact (mem_dependents_iff hnode).mp hv

/-- A path to a start comes from that start or from another one. -/
theorem mem_forwardReachable_start (h : b.Indexed) (hs : s ∈ starts) :
    s ∈ b.build.forwardReachable starts ↔
      TransGen b.build.Adj s s ∨ ∃ t ∈ starts, t ≠ s ∧ TransGen b.build.Adj t s := by
  rw [mem_forwardReachable h]
  constructor
  · rintro ⟨t, ht, hpath⟩
    by_cases hts : t = s
    · subst hts
      exact .inl hpath
    · exact .inr ⟨t, ht, hts, hpath⟩
  · rintro (hpath | ⟨t, ht, -, hpath⟩)
    · exact ⟨s, hs, hpath⟩
    · exact ⟨t, ht, hpath⟩

/-- **The search along edges is exact**, whatever cells the graph was built from and wherever it
starts. -/
theorem exactReach_build {cells : List GraphCell} (h : cells.foldlM add empty = .ok b)
    (starts : List Nat) : b.build.ExactReach starts where
  adj_iff _ _ := adj_iff_mem_dependents (indexed_of_foldlM indexed_empty h).1
  sorted := Adjacency.pairwise_marked _
  mem_iff _ := mem_forwardReachable (indexed_of_foldlM indexed_empty h).1
  start_iff s hs := by
    have hidx := (indexed_of_foldlM indexed_empty h).1
    rw [mem_forwardReachable_start hidx hs, isSome_cycleOf?_build_iff hidx]

/-- From both cells of a loop and the input before it: the loop is found, and the input is not. -/
theorem exactReach_loopCells : ∃ b, loopCells.foldlM add empty = .ok b ∧
    b.build.ExactReach [0, 1, 2] ∧ 2 ∈ b.build.forwardReachable [0, 1, 2] ∧
    0 ∉ b.build.forwardReachable [0, 1, 2] := by
  have hadd : loopCells.foldlM add empty = .ok (loopCells.foldl push empty) := rfl
  have hreach := exactReach_build hadd [0, 1, 2]
  refine ⟨_, hadd, hreach, (hreach.mem_iff 2).mpr ⟨0, by decide, .single ?_⟩, ?_⟩
  · exact ⟨⟨0, 2, .direct⟩, by decide +kernel, rfl, rfl⟩
  · -- no edge leads to the input
    have hnone : ∀ e ∈ (loopCells.foldl push empty).build.edges, e.target ≠ 0 := by decide +kernel
    intro hzero
    obtain ⟨s, -, hpath⟩ := (hreach.mem_iff 0).mp hzero
    obtain ⟨w, -, e, he, -, htarget⟩ := TransGen.tail'_iff.mp hpath
    exact hnone e he htarget

end GraphBuilder

end Recalc
