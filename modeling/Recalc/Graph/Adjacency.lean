/-
Recalc/Graph/Adjacency.lean

Directed graphs on the numbers below `n`, as successor lists, and what can be reached in
them.

Design.  `closure` searches breadth first: it keeps a mark for every number and a queue of
numbers still to visit, with repetitions.  A number that is not marked yet is marked and its
successors join the queue at its end; so every step marks a number or shortens the queue.
-/

namespace Recalc

/-- The successors of each number. -/
abbrev Adjacency := Array (List Nat)

namespace Adjacency

/-- The successors of a number; none beyond the last. -/
def next (a : Adjacency) (v : Nat) : List Nat := a[v]?.getD []

/-- The graph of `n` numbers with the given edges, each list of successors in edge order. -/
def ofPairs (n : Nat) (pairs : List (Nat × Nat)) : Adjacency :=
  pairs.foldr (fun (u, v) a => a.modify u (v :: ·)) (Array.replicate n [])

/-! ### Reach -/

/-- An entry that is overwritten by another one is counted no more. -/
theorem count_setIfInBounds_lt {α : Type} [BEq α] [LawfulBEq α] {xs : Array α} {x y : α} {i : Nat}
    (h : xs[i]? = some x) (hne : y ≠ x) : (xs.setIfInBounds i y).count x < xs.count x := by
  obtain ⟨hi, hx⟩ := Array.getElem?_eq_some_iff.1 h
  have hpos : 0 < xs.count x := Array.count_pos_iff.2 (hx ▸ Array.getElem_mem hi)
  rw [Array.setIfInBounds_def, dif_pos hi, Array.count_set hi, hx, if_pos (beq_self_eq_true x),
    if_neg (by simpa using hne)]
  omega

/-- Mark everything that can be reached from a queue of numbers, themselves included, without
passing through what is marked already. -/
def closure (a : Adjacency) (marks : Array Bool) : List Nat → Array Bool
  | [] => marks
  | v :: rest =>
    if _h : marks[v]? = some false then
      closure a (marks.setIfInBounds v true) (rest ++ a.next v)
    else closure a marks rest
termination_by rest => (marks.count false, rest.length)
decreasing_by
  · exact Prod.Lex.left _ _ (count_setIfInBounds_lt _h Bool.noConfusion)
  · exact Prod.Lex.right _ (by simp)

/-- The marks of what can be reached from some numbers, themselves included. -/
def marksFrom (a : Adjacency) (starts : List Nat) : Array Bool :=
  closure a (Array.replicate a.size false) starts

/-- The marked numbers, in order. -/
def marked (marks : Array Bool) : List Nat :=
  (List.range marks.size).filter fun v => marks[v]?.getD false

/-- What can be reached from some numbers along one edge or more, in order. -/
def reachable (a : Adjacency) (starts : List Nat) : List Nat :=
  marked (a.marksFrom (starts.flatMap a.next))

end Adjacency

end Recalc
