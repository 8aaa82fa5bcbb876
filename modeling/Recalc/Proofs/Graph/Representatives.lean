/-
Recalc/Proofs/Graph/Representatives.lean

Partitions in use.  A partition starts with singletons and is asked to unite classes and to
look for representatives, in any order.  Both change parents, so looking goes other ways
after other calls; yet what it finds tells no more and no less than the pairs united so far:

    ((s.find x).2.find y).1 = (s.find x).1 ↔ EqvGen (pairs united) x y.

`Exact` collects what is true of a partition at any time: the search for a representative
ends by itself, representatives tell the classes apart, and each of them knows the size of
its class.  It holds after every sequence of calls (`exact_run`).

Design.  A call keeps `Represents root` for the same `root` or for the one of the united
classes (`Represents.after`), and `Exact` is read off that.  Searches are given a number of
steps, so that they end by themselves is said twice: where a search stops nothing is left to
follow, and more steps change neither its answer nor the parents it leaves.
-/
import Recalc.Proofs.Graph.DisjointSets
import Mathlib.Data.Set.Card

open Relation

namespace Recalc.DisjointSets

variable {s : DisjointSets} {root : Nat → Nat} {pairs : List (Nat × Nat)} {n : Nat}

/-! ### Exact partitions -/

/-- The numbers below `n` that the pairs connect with a number. -/
def classOf (n : Nat) (pairs : List (Nat × Nat)) (x : Nat) : Set Nat :=
  {y | y < n ∧ EqvGen (fun u v => (u, v) ∈ pairs) x y}

/-- The partition of the numbers below `n` into the classes of the pairs. -/
structure Exact (n : Nat) (pairs : List (Nat × Nat)) (s : DisjointSets) : Prop where
  /-- A search stops at a number that is its own parent. -/
  stops : ∀ x < n, (s.find x).2.parentOf (s.find x).1 = (s.find x).1
  /-- More steps than there are numbers change nothing. -/
  enough : ∀ x < n, ∀ steps, n ≤ steps → findWithin steps s x = s.find x
  /-- Representatives that are found one after the other are equal exactly in one class. -/
  separates : ∀ x < n, ∀ y < n,
    ((s.find x).2.find y).1 = (s.find x).1 ↔ EqvGen (fun u v => (u, v) ∈ pairs) x y
  /-- The size kept at a representative is that of its class. -/
  card : ∀ x < n, s.parentOf x = x → s.sizeAt x = (classOf n pairs x).ncard

theorem Separates.classOf_eq (hroot : Separates root pairs) (n x : Nat) :
    classOf n pairs x = ((List.range n).filter fun y => root y = root x).toFinset := by
  ext y
  simp only [classOf, Set.mem_ofPred_eq, ← hroot x y, List.coe_toFinset, List.mem_filter,
    List.mem_range, decide_eq_true_eq]
  exact and_congr_right fun _ => eq_comm

theorem Separates.ncard_classOf (hroot : Separates root pairs) (n x : Nat) :
    (classOf n pairs x).ncard = (List.range n).countP fun y => root y = root x := by
  rw [hroot.classOf_eq, Set.ncard_coe_finset, List.countP_eq_length_filter]
  exact List.toFinset_card_of_nodup (List.nodup_range.filter _)

theorem Represents.exact (h : s.Represents root) (hroot : Separates root pairs) :
    s.Exact s.parent.size pairs where
  stops x _ := by
    obtain ⟨hfound, hrep, -⟩ := h.find x
    rw [hfound, hrep.parent_root]
  enough x hx steps hsteps := findWithin_of_le h (h.sizeAt_root_lt hx) hsteps
  separates x _ y _ := by
    obtain ⟨hfound, hrep, -⟩ := h.find x
    obtain ⟨hfound', -, -⟩ := hrep.find y
    rw [hfound, hfound', ← hroot x y]
    exact eq_comm
  card x hx hfixed := by
    have hcard := h.card x hx
    rw [h.root_of_fixed x hfixed] at hcard
    rw [hroot.ncard_classOf, h.root_of_fixed x hfixed, hcard]

/-! ### Calls -/

/-- What is asked of a partition. -/
inductive Call
  | union (x y : Nat)
  | find (x : Nat)
deriving DecidableEq

namespace Call

/-- The call is about numbers below `n`. -/
def Within (n : Nat) : Call → Prop
  | .union x y => x < n ∧ y < n
  | .find x => x < n

instance (n : Nat) : DecidablePred (Within n)
  | .union x y => inferInstanceAs (Decidable (x < n ∧ y < n))
  | .find x => inferInstanceAs (Decidable (x < n))

/-- The pair that a call unites. -/
def pair? : Call → Option (Nat × Nat)
  | .union x y => some (x, y)
  | .find _ => none

end Call

/-- The partition behind a call. -/
def after (s : DisjointSets) : Call → DisjointSets
  | .union x y => s.union x y
  | .find x => (s.find x).2

/-- The partition of the numbers below `n` behind some calls. -/
def run (n : Nat) (calls : List Call) : DisjointSets := calls.foldl after (singletons n)

/-- The pairs that calls unite. -/
def united (calls : List Call) : List (Nat × Nat) := calls.filterMap Call.pair?

theorem united_cons (call : Call) (calls : List Call) :
    united (call :: calls) = call.pair?.toList ++ united calls := by
  cases call <;> rfl

/-- **One call** adds its pair to those that the representatives tell apart. -/
theorem Represents.after {call : Call} (h : s.Represents root) (hroot : Separates root pairs)
    (hcall : call.Within s.parent.size) :
    ∃ root', (s.after call).Represents root' ∧ (s.after call).parent.size = s.parent.size ∧
      Separates root' (pairs ++ call.pair?.toList) := by
  cases call with
  | union x y => exact h.union_separates hroot hcall.1 hcall.2
  | find x =>
    obtain ⟨-, hrep, hsize⟩ := h.find x
    refine ⟨root, hrep, hsize, ?_⟩
    rw [show (Call.find x).pair?.toList = [] from rfl, List.append_nil]
    exact hroot

theorem Represents.foldl_after {calls : List Call} (h : s.Represents root)
    (hroot : Separates root pairs) (hcalls : ∀ call ∈ calls, call.Within s.parent.size) :
    ∃ root', (calls.foldl DisjointSets.after s).Represents root' ∧
      (calls.foldl DisjointSets.after s).parent.size = s.parent.size ∧
      Separates root' (pairs ++ united calls) := by
  induction calls generalizing s root pairs with
  | nil => exact ⟨root, h, rfl, by rwa [show united [] = [] from rfl, List.append_nil]⟩
  | cons call calls ih =>
    obtain ⟨root', hrep, hsize, hroot'⟩ := h.after hroot (hcalls call List.mem_cons_self)
    obtain ⟨root'', hrep', hsize', hroot''⟩ := ih hrep hroot' fun c hc => by
      rw [hsize]
      exact hcalls c (List.mem_cons_of_mem _ hc)
    rw [List.append_assoc, ← united_cons] at hroot''
    exact ⟨root'', hrep', hsize'.trans hsize, hroot''⟩

/-- **Any sequence of calls leaves the classes of the pairs united**, and looking for one more
representative leaves them, too. -/
theorem exact_run {calls : List Call} (hcalls : ∀ call ∈ calls, call.Within n) :
    (run n calls).Exact n (united calls) ∧
      ∀ x < n, ((run n calls).find x).2.Exact n (united calls) := by
  obtain ⟨root, hrep, hsize, hroot⟩ :=
    (represents_singletons n).foldl_after separates_id (by rwa [size_parent_singletons])
  rw [size_parent_singletons] at hsize
  constructor
  · have hexact := hrep.exact hroot
    rwa [hsize] at hexact
  · intro x _
    obtain ⟨-, hfound, hkept⟩ := hrep.find x
    have hexact := hfound.exact hroot
    rwa [hkept, hsize] at hexact

/-- Eight numbers united in pairs, then the pairs, then all, so that `7` is three steps away from
its representative; `8` stays apart, and `7` and `3` are looked for in between. -/
def tournament : List Call :=
  [.union 0 1, .union 2 3, .union 0 2, .find 3, .union 4 5, .union 6 7, .union 4 6, .union 0 4,
    .find 7, .union 7 3, .find 8]

theorem exact_run_tournament :
    (∀ call ∈ tournament, call.Within 9) ∧ (run 9 tournament).Exact 9 (united tournament) ∧
      ∀ x < 9, ((run 9 tournament).find x).2.Exact 9 (united tournament) :=
  ⟨by decide, exact_run (by decide)⟩

/-- Looking for `7` hangs it under its grandparent `4` and goes on from there. -/
example : (run 9 (tournament.take 8)).parent = #[0, 0, 0, 0, 0, 4, 4, 6, 8] ∧
    (run 9 (tournament.take 9)).parent = #[0, 0, 0, 0, 0, 4, 4, 4, 8] := by decide

end Recalc.DisjointSets
