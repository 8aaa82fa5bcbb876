/-
Recalc/Graph/Components.lean

Strongly connected components: two numbers belong together if each can be reached from
the other.  They are found by one search, depth first, in the manner of Tarjan.

Numbers are entered one after the other and wait on a stack until their component is known.
Each number keeps the least index of a waiting number that it is known to reach.  When all
edges of a number are followed and this index is its own, nothing below it on the stack can
be reached, and the number and what waits above it are a component.  So every edge between
components leads to one found earlier.

Design.  The search keeps its own frames in place of recursion, one for each number whose
edges are being followed, with the edges that are left.  Every step enters a number, takes
an edge or drops a frame, so it ends.
-/
import Recalc.Graph.Adjacency

namespace Recalc.Adjacency

/-- A number whose edges are being followed. -/
structure Frame where
  node : Nat
  /-- The successors still to look at. -/
  rest : List Nat

/-- How many edges and frames are left. -/
def workLeft : List Frame → Nat
  | [] => 0
  | f :: frames => f.rest.length + 1 + workLeft frames

theorem workLeft_lt_cons (f : Frame) (frames : List Frame) :
    workLeft frames < workLeft (f :: frames) := by
  rw [workLeft]
  omega

theorem workLeft_lt_follow (v w : Nat) (rest : List Nat) (frames : List Frame) :
    workLeft (⟨v, rest⟩ :: frames) < workLeft (⟨v, w :: rest⟩ :: frames) := by
  simp [workLeft]

/-- How far a search for components has come. -/
structure Search where
  /-- How many numbers were entered before each one that was. -/
  index : Array (Option Nat)
  /-- The least index of a waiting number that each number is known to reach. -/
  low : Array Nat
  /-- Whether each number was entered, but has no component yet. -/
  waiting : Array Bool
  /-- The waiting numbers, the last one first. -/
  stack : List Nat
  /-- How many numbers were entered. -/
  entered : Nat
  /-- The components, in the order they were found. -/
  found : List (List Nat)

namespace Search

/-- The search before the first of `n` numbers. -/
def start (n : Nat) : Search :=
  ⟨Array.replicate n none, Array.replicate n 0, Array.replicate n false, [], 0, []⟩

/-- A number of the graph that was not entered. -/
def IsNew (s : Search) (v : Nat) : Prop := s.index[v]? = some none

instance (s : Search) (v : Nat) : Decidable (s.IsNew v) :=
  inferInstanceAs (Decidable (s.index[v]? = some none))

/-- The index of a number that was entered. -/
def indexOf (s : Search) (v : Nat) : Nat := (s.index[v]?.getD none).getD 0

def lowOf (s : Search) (v : Nat) : Nat := s.low[v]?.getD 0

def isWaiting (s : Search) (v : Nat) : Bool := s.waiting[v]?.getD false

/-- A number is entered and waits. -/
def enter (s : Search) (v : Nat) : Search :=
  { s with
    index := s.index.setIfInBounds v (some s.entered)
    low := s.low.setIfInBounds v s.entered
    waiting := s.waiting.setIfInBounds v true
    stack := v :: s.stack
    entered := s.entered + 1 }

/-- A number reaches a waiting number of the given index. -/
def lower (s : Search) (v index : Nat) : Search := { s with low := s.low.modify v (min · index) }

/-- The stack down to a number is a component. -/
def close (s : Search) (v : Nat) : Search :=
  let (above, below) := s.stack.span (· != v)
  let component := above ++ below.take 1
  { s with
    waiting := component.foldl (fun waiting w => waiting.setIfInBounds w false) s.waiting
    stack := below.drop 1
    found := s.found ++ [component] }

/-- All edges of a number are followed; what it reaches, its parent does. -/
def leave (s : Search) (v : Nat) (parent : Option Frame) : Search :=
  let s := parent.elim s fun p => s.lower p.node (s.lowOf v)
  if s.lowOf v = s.indexOf v then s.close v else s

theorem count_enter_lt {s : Search} {v : Nat} (h : s.IsNew v) :
    (s.enter v).index.count none < s.index.count none := count_setIfInBounds_lt h (by simp)

@[simp] theorem index_leave (s : Search) (v : Nat) (parent : Option Frame) :
    (s.leave v parent).index = s.index := by
  unfold leave
  cases parent <;> (dsimp only [Option.elim]; split <;> rfl)

end Search

/-- Follow the edges to accepted numbers that the frames have left. -/
def walk (a : Adjacency) (accept : Nat → Bool) (s : Search) : List Frame → Search
  | [] => s
  | ⟨v, []⟩ :: frames => walk a accept (s.leave v frames.head?) frames
  | ⟨v, w :: rest⟩ :: frames =>
    if _h : accept w ∧ s.IsNew w then
      walk a accept (s.enter w) (⟨w, a.next w⟩ :: ⟨v, rest⟩ :: frames)
    else if accept w ∧ s.isWaiting w then
      walk a accept (s.lower v (s.indexOf w)) (⟨v, rest⟩ :: frames)
    else walk a accept s (⟨v, rest⟩ :: frames)
termination_by frames => (s.index.count none, workLeft frames)
decreasing_by
  · rw [Search.index_leave]
    exact Prod.Lex.right _ (workLeft_lt_cons _ _)
  · exact Prod.Lex.left _ _ (Search.count_enter_lt _h.2)
  · exact Prod.Lex.right _ (workLeft_lt_follow ..)
  · exact Prod.Lex.right _ (workLeft_lt_follow ..)

/-- Search from a root, unless it was entered already. -/
def visit (a : Adjacency) (accept : Nat → Bool) (s : Search) (root : Nat) : Search :=
  if s.IsNew root then walk a accept (s.enter root) [⟨root, a.next root⟩] else s

/-- The components of the numbers that can be reached from some roots through accepted numbers;
edges lead to components listed earlier. -/
def components (a : Adjacency) (accept : Nat → Bool) (roots : List Nat) : List (List Nat) :=
  (roots.foldl (visit a accept) (Search.start a.size)).found

end Recalc.Adjacency
