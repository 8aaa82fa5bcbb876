/-
Recalc/Graph/DisjointSets.lean

A partition of the numbers below `n` that grows by uniting classes.  Every number has a
parent in its class, the representative is its own parent, and the smaller class is hung
under the representative of the larger one.

Looking for a representative halves the way there: each number passed is hung under its
grandparent.  So looking returns the partition as well, with other parents but the same
classes.  Sizes grow strictly along the parents, hence no way is longer than `n`.
-/

namespace Recalc

/-- A partition into classes. -/
structure DisjointSets where
  parent : Array Nat
  /-- The size of each class, at its representative. -/
  size : Array Nat

namespace DisjointSets

/-- Every number in a class of its own. -/
def singletons (n : Nat) : DisjointSets := ⟨Array.range n, Array.replicate n 1⟩

/-- The parent of a number; itself beyond the last. -/
def parentOf (s : DisjointSets) (x : Nat) : Nat := s.parent[x]?.getD x

/-- The size kept for a number. -/
def sizeAt (s : DisjointSets) (x : Nat) : Nat := s.size[x]?.getD 0

/-- Hang a number under another one. -/
def hang (s : DisjointSets) (x top : Nat) : DisjointSets :=
  { s with parent := s.parent.setIfInBounds x top }

/-- Follow the parents, for some steps at most, and halve the way. -/
def findWithin : Nat → DisjointSets → Nat → Nat × DisjointSets
  | 0, s, x => (x, s)
  | fuel + 1, s, x =>
    let p := s.parentOf x
    if p = x then (x, s)
    else
      let next := s.parentOf p
      findWithin fuel (s.hang x next) next

/-- The representative of a number's class. -/
def find (s : DisjointSets) (x : Nat) : Nat × DisjointSets := findWithin s.parent.size s x

/-- Hang the class of one representative under another. -/
def link (s : DisjointSets) (top below : Nat) : DisjointSets :=
  { s.hang below top with size := s.size.setIfInBounds top (s.sizeAt top + s.sizeAt below) }

/-- Make one class of two. -/
def union (s : DisjointSets) (x y : Nat) : DisjointSets :=
  let (a, s) := s.find x
  let (b, s) := s.find y
  if a = b then s else if s.sizeAt a < s.sizeAt b then s.link b a else s.link a b

/-- The partition in which the given pairs are united. -/
def ofPairs (n : Nat) (pairs : List (Nat × Nat)) : DisjointSets :=
  pairs.foldl (fun s (x, y) => s.union x y) (singletons n)

/-- The representatives of some numbers. -/
def findAll (s : DisjointSets) : List Nat → List Nat
  | [] => []
  | x :: rest =>
    let (root, s) := s.find x
    root :: findAll s rest

/-- The classes of the numbers below `n`, counted in the order of their first members. -/
def classes (s : DisjointSets) : List Nat :=
  let roots := s.findAll (List.range s.parent.size)
  let distinct := roots.eraseDups
  roots.map distinct.idxOf

end DisjointSets

end Recalc
