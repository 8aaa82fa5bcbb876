/-
Recalc/Proofs/Graph/Reach.lean

What the functions on successor lists say about the edge relation.  `a.Adj u v` is an
edge from `u` to `v`, and `Relation.ReflTransGen a.Adj` is reaching along edges.  Each
way of making a graph gets the equation of its edges:

    adj_ofPairs, adj_restrict,

and marking gets its meaning: `marksFrom` marks exactly the numbers below the size that
can be reached from a start (`marksFrom_eq_true_iff`).

Design.  The marks only grow (`closure_of_marked`), so reaching is read off four facts
about one call of `closure`: what was marked stays marked, the starts are marked, the
marks it adds are closed under edges, and whatever it adds was reached.
-/
import Recalc.Graph.Adjacency
import Mathlib.Data.List.Basic
import Mathlib.Logic.Relation

open Relation

namespace Recalc.Adjacency

variable {a : Adjacency} {u v w n : Nat}

/-- An edge leads from `u` to `v`. -/
def Adj (a : Adjacency) (u v : Nat) : Prop := v ∈ a.next u

/-- Edges lead to numbers below the size. -/
def Closed (a : Adjacency) : Prop := ∀ ⦃u v⦄, a.Adj u v → v < a.size

/-- The edges. -/
def pairs (a : Adjacency) : List (Nat × Nat) :=
  (List.range a.size).flatMap fun u => (a.next u).map fun v => (u, v)

/-- The edges between accepted numbers. -/
def restrict (a : Adjacency) (accept : Nat → Bool) : Adjacency :=
  a.mapIdx fun u next => if accept u then next.filter accept else []

/-- Each of two numbers can be reached from the other. -/
def Mutual (a : Adjacency) (u v : Nat) : Prop :=
  ReflTransGen a.Adj u v ∧ ReflTransGen a.Adj v u

theorem Mutual.refl (a : Adjacency) (u : Nat) : a.Mutual u u :=
  ⟨ReflTransGen.refl, ReflTransGen.refl⟩

theorem Mutual.symm (h : a.Mutual u v) : a.Mutual v u := ⟨h.2, h.1⟩

theorem Mutual.trans (h : a.Mutual u v) (h' : a.Mutual v w) : a.Mutual u w :=
  ⟨h.1.trans h'.1, h'.2.trans h.2⟩

/-! ### Successors -/

theorem next_of_size_le (h : a.size ≤ u) : a.next u = [] := by
  unfold next
  rw [Array.getElem?_eq_none h]
  rfl

theorem Adj.lt_size (h : a.Adj u v) : u < a.size := by
  by_contra hu
  have hnil := next_of_size_le (a := a) (Nat.le_of_not_lt hu)
  rw [Adj, hnil] at h
  cases h

@[simp] theorem size_ofPairs (n : Nat) (pairs : List (Nat × Nat)) :
    (ofPairs n pairs).size = n := by
  unfold ofPairs
  induction pairs with
  | nil => simp
  | cons p pairs ih => simpa using ih

theorem next_ofPairs (hu : u < n) (pairs : List (Nat × Nat)) :
    (ofPairs n pairs).next u = (pairs.filter (·.1 == u)).map Prod.snd := by
  induction pairs with
  | nil => simp [ofPairs, next, hu]
  | cons p pairs ih =>
      obtain ⟨x, y⟩ := p
      have hsize : u < (ofPairs n pairs).size := by simpa using hu
      have hstep : ofPairs n ((x, y) :: pairs) = (ofPairs n pairs).modify x (y :: ·) := rfl
      rw [hstep]
      by_cases hx : x = u
      · subst hx
        rw [List.filter_cons_of_pos (by simp), List.map_cons, ← ih]
        unfold next
        rw [Array.getElem?_modify, if_pos rfl, Array.getElem?_eq_getElem hsize]
        rfl
      · rw [List.filter_cons_of_neg (by simpa using hx), ← ih]
        unfold next
        rw [Array.getElem?_modify, if_neg hx]

theorem adj_ofPairs {pairs : List (Nat × Nat)} :
    (ofPairs n pairs).Adj u v ↔ u < n ∧ (u, v) ∈ pairs := by
  constructor
  · intro h
    have hu : u < n := by simpa using h.lt_size
    rw [Adj, next_ofPairs hu] at h
    obtain ⟨⟨x, y⟩, hp, rfl⟩ := List.mem_map.mp h
    obtain ⟨hmem, hx⟩ := List.mem_filter.mp hp
    obtain rfl : x = u := by simpa using hx
    exact ⟨hu, hmem⟩
  · rintro ⟨hu, hmem⟩
    rw [Adj, next_ofPairs hu]
    exact List.mem_map.mpr ⟨(u, v), List.mem_filter.mpr ⟨hmem, by simp⟩, rfl⟩

theorem mem_pairs : (u, v) ∈ a.pairs ↔ a.Adj u v := by
  constructor
  · intro h
    obtain ⟨w, -, hw⟩ := List.mem_flatMap.mp h
    obtain ⟨x, hx, heq⟩ := List.mem_map.mp hw
    obtain ⟨rfl, rfl⟩ := Prod.mk.inj heq
    exact hx
  · intro h
    exact List.mem_flatMap.mpr
      ⟨u, List.mem_range.mpr h.lt_size, List.mem_map.mpr ⟨v, h, rfl⟩⟩

@[simp] theorem size_restrict (a : Adjacency) (accept : Nat → Bool) :
    (a.restrict accept).size = a.size := by
  simp [restrict]

theorem adj_restrict {accept : Nat → Bool} :
    (a.restrict accept).Adj u v ↔ accept u ∧ accept v ∧ a.Adj u v := by
  by_cases hu : u < a.size
  · by_cases hacc : accept u <;> simp [Adj, next, restrict, hu, hacc, and_comm]
  · have hle : a.size ≤ u := Nat.le_of_not_lt hu
    have hnil : (a.restrict accept).next u = [] := next_of_size_le (by simpa using hle)
    simp [Adj, hnil, next_of_size_le hle]

/-! ### Marking -/

theorem getElem?_foldl_setIfInBounds {α : Type} (members : List Nat) (xs : Array α) (x : α)
    (hv : v < xs.size) :
    (members.foldl (fun xs w => xs.setIfInBounds w x) xs)[v]?
      = if v ∈ members then some x else xs[v]? := by
  induction members generalizing xs with
  | nil => simp
  | cons w members ih =>
      rw [List.foldl_cons, ih _ (by simpa using hv)]
      by_cases hw : w = v
      · subst hw
        rw [Array.getElem?_setIfInBounds_self_of_lt hv]
        simp
      · rw [Array.getElem?_setIfInBounds_ne hw]
        simp [Ne.symm hw]

theorem size_foldl_setIfInBounds {α : Type} (members : List Nat) (xs : Array α) (x : α) :
    (members.foldl (fun xs w => xs.setIfInBounds w x) xs).size = xs.size := by
  induction members generalizing xs with
  | nil => rfl
  | cons w members ih => rw [List.foldl_cons, ih, Array.size_setIfInBounds]

variable {marks : Array Bool} {starts : List Nat}

@[simp] theorem size_closure (a : Adjacency) (marks : Array Bool) (starts : List Nat) :
    (closure a marks starts).size = marks.size := by
  fun_induction closure a marks starts with
  | case1 marks => rfl
  | case2 marks v rest h ih => simpa using ih
  | case3 marks v rest h ih => exact ih

theorem closure_of_marked (h : marks[v]? = some true) :
    (closure a marks starts)[v]? = some true := by
  fun_induction closure a marks starts with
  | case1 marks => exact h
  | case2 marks w rest hw ih =>
      refine ih ?_
      have hne : w ≠ v := by
        rintro rfl
        rw [h] at hw
        cases hw
      rw [Array.getElem?_setIfInBounds_ne hne]
      exact h
  | case3 marks w rest hw ih => exact ih h

/-- A mark below the size is set or not. -/
theorem mark_eq_true (hv : v < marks.size) (h : ¬ marks[v]? = some false) :
    marks[v]? = some true := by
  rw [Array.getElem?_eq_getElem hv] at h ⊢
  simpa using h

theorem closure_of_mem (hs : v ∈ starts) (hv : v < marks.size) :
    (closure a marks starts)[v]? = some true := by
  fun_induction closure a marks starts with
  | case1 marks => cases hs
  | case2 marks w rest hw ih =>
      rcases List.mem_cons.mp hs with rfl | hrest
      · refine closure_of_marked ?_
        rw [Array.getElem?_setIfInBounds_self_of_lt hv]
      · exact ih (List.mem_append_left _ hrest) (by simpa using hv)
  | case3 marks w rest hw ih =>
      rcases List.mem_cons.mp hs with rfl | hrest
      · exact closure_of_marked (mark_eq_true hv hw)
      · exact ih hrest hv

/-- The added marks are closed under edges. -/
theorem closure_of_adj (hu : (closure a marks starts)[u]? = some true)
    (hnew : marks[u]? = some false) (hadj : a.Adj u v) (hv : v < marks.size) :
    (closure a marks starts)[v]? = some true := by
  fun_induction closure a marks starts with
  | case1 marks =>
      rw [hu] at hnew
      cases hnew
  | case2 marks w rest hw ih =>
      by_cases hwu : w = u
      · subst hwu
        exact closure_of_mem (List.mem_append_right _ hadj) (by simpa using hv)
      · refine ih hu ?_ (by simpa using hv)
        rw [Array.getElem?_setIfInBounds_ne hwu]
        exact hnew
  | case3 marks w rest hw ih => exact ih hu hnew hv

theorem reached_of_closure (h : (closure a marks starts)[v]? = some true) :
    marks[v]? = some true ∨ ∃ s ∈ starts, ReflTransGen a.Adj s v := by
  fun_induction closure a marks starts with
  | case1 marks => exact .inl h
  | case2 marks w rest hw ih =>
      rcases ih h with hold | ⟨s, hs, hpath⟩
      · by_cases hwv : w = v
        · exact .inr ⟨w, List.mem_cons_self, hwv ▸ ReflTransGen.refl⟩
        · rw [Array.getElem?_setIfInBounds_ne hwv] at hold
          exact .inl hold
      · rcases List.mem_append.mp hs with hrest | hadj
        · exact .inr ⟨s, List.mem_cons_of_mem _ hrest, hpath⟩
        · exact .inr ⟨w, List.mem_cons_self, ReflTransGen.head hadj hpath⟩
  | case3 marks w rest hw ih =>
      rcases ih h with hold | ⟨s, hs, hpath⟩
      · exact .inl hold
      · exact .inr ⟨s, List.mem_cons_of_mem _ hs, hpath⟩

@[simp] theorem size_marksFrom (a : Adjacency) (starts : List Nat) :
    (a.marksFrom starts).size = a.size := by
  simp [marksFrom]

/-- **Marking is reaching.** -/
theorem marksFrom_eq_true_iff :
    (a.marksFrom starts)[v]? = some true ↔ v < a.size ∧ ∃ s ∈ starts, ReflTransGen a.Adj s v := by
  have fresh : ∀ {w}, w < a.size → (Array.replicate a.size false)[w]? = some false := by
    intro w hw
    simp [hw]
  constructor
  · intro h
    have hv : v < a.size := by
      have hlt := (Array.getElem?_eq_some_iff.mp h).1
      simpa using hlt
    rcases reached_of_closure h with hold | hpath
    · rw [fresh hv] at hold
      cases hold
    · exact ⟨hv, hpath⟩
  · rintro ⟨hv, s, hs, hpath⟩
    induction hpath with
    | refl => exact closure_of_mem hs (by simpa using hv)
    | tail _ hadj ih =>
        -- a number with a successor lies below the size, so it is marked already
        exact closure_of_adj (ih hadj.lt_size) (fresh hadj.lt_size) hadj (by simpa using hv)

theorem mem_marked : v ∈ marked marks ↔ marks[v]? = some true := by
  simp only [marked, List.mem_filter, List.mem_range]
  constructor
  · rintro ⟨hv, h⟩
    rw [Array.getElem?_eq_getElem hv] at h ⊢
    simpa using h
  · intro h
    exact ⟨(Array.getElem?_eq_some_iff.mp h).1, by rw [h]; rfl⟩

theorem pairwise_marked (marks : Array Bool) : (marked marks).Pairwise (· < ·) :=
  List.pairwise_lt_range.filter _

/-- **What is reachable lies behind one edge or more.** -/
theorem mem_reachable (hclosed : a.Closed) :
    v ∈ a.reachable starts ↔ ∃ s ∈ starts, TransGen a.Adj s v := by
  rw [reachable, mem_marked, marksFrom_eq_true_iff]
  constructor
  · rintro ⟨-, w, hw, hpath⟩
    obtain ⟨s, hs, hadj⟩ := List.mem_flatMap.mp hw
    exact ⟨s, hs, TransGen.head' hadj hpath⟩
  · rintro ⟨s, hs, hpath⟩
    obtain ⟨w, -, hlast⟩ := TransGen.tail'_iff.mp hpath
    obtain ⟨x, hfirst, hrest⟩ := TransGen.head'_iff.mp hpath
    exact ⟨hclosed hlast, x, List.mem_flatMap.mpr ⟨s, hs, hfirst⟩, hrest⟩

end Recalc.Adjacency
