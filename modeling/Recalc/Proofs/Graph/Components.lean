/-
Recalc/Proofs/Graph/Components.lean

The components of a graph are its classes of mutual reach.  In the graph of the accepted
numbers, a component holds all numbers that reach a member and are reached from it
(`mem_of_mem_components`); every number reached from the roots lies in a component and nothing
else does (`mem_flatten_components`), no number is listed twice (`nodup_flatten_components`),
and an edge from one component into another leads to one listed before it
(`Listed.le_of_adj`).

Design.  All of this is read off what the search leaves when its last frame is gone: nothing
waits any more, so the numbers entered are the numbers listed, and what is listed is
`Listed`.  The statements ask for accepted roots, since a root is entered without being asked
for; edges and roots may lead beyond the size, where nothing is entered.
-/
import Recalc.Proofs.Graph.Search

open Relation

namespace Recalc.Adjacency

variable {a : Adjacency} {accept : Nat → Bool} {roots : List Nat} {cs : List (List Nat)}
  {c d : List Nat} {u v w i j : Nat}

/-! ### Lists of classes -/

namespace Listed

theorem ne_nil (h : Listed a cs) : ∀ c ∈ cs, c ≠ [] := by
  induction h with
  | nil => exact fun c hc => absurd hc List.not_mem_nil
  | snoc _ hne _ _ _ _ ih =>
    intro c hc
    rcases List.mem_append.mp hc with hc | hc
    · exact ih c hc
    · rwa [List.mem_singleton.mp hc]

theorem nodup_flatten (h : Listed a cs) : cs.flatten.Nodup := by
  induction h with
  | nil => exact List.nodup_nil
  | snoc _ _ hnodup hnew _ _ ih =>
    rw [List.flatten_append, List.flatten_singleton]
    exact ih.append hnodup fun u hu hc => (hnew u hc).2 hu

theorem mem_iff (h : Listed a cs) : ∀ c ∈ cs, ∀ u ∈ c, ∀ v, v ∈ c ↔ a.Mutual u v := by
  induction h with
  | nil => exact fun c hc => absurd hc List.not_mem_nil
  | snoc _ _ _ _ hclass _ ih =>
    intro c hc
    rcases List.mem_append.mp hc with hc | hc
    · exact ih c hc
    · rwa [List.mem_singleton.mp hc]

theorem lt_size (h : Listed a cs) : ∀ v ∈ cs.flatten, v < a.size := by
  induction h with
  | nil => exact fun v hv => absurd hv List.not_mem_nil
  | snoc _ _ _ hnew _ _ ih =>
    intro v hv
    rcases mem_flatten_snoc.mp hv with hv | hv
    · exact ih v hv
    · exact (hnew v hv).1

theorem mem_flatten_of_getElem? (hc : cs[i]? = some c) (hu : u ∈ c) : u ∈ cs.flatten :=
  List.mem_flatten.mpr ⟨c, List.mem_of_getElem? hc, hu⟩

/-- An edge leads to a component that is listed no later. -/
theorem le_of_adj (h : Listed a cs) (hc : cs[i]? = some c) (hd : cs[j]? = some d) (hu : u ∈ c)
    (hv : v ∈ d) (hadj : a.Adj u v) : j ≤ i := by
  have hlt : v < a.size := h.lt_size v (mem_flatten_of_getElem? hd hv)
  induction h with
  | nil => cases hc
  | @snoc cs last h _ _ hnew _ _ ih =>
    rcases Nat.lt_or_ge i cs.length with hi | hi
    · -- an edge from a component before the last one does not lead to the last one
      rw [List.getElem?_append_left hi] at hc
      have hold : v ∈ cs.flatten := h.mem_of_adj (mem_flatten_of_getElem? hc hu) hlt hadj
      rcases Nat.lt_or_ge j cs.length with hj | hj
      · rw [List.getElem?_append_left hj] at hd
        exact ih hc hd
      · rw [List.getElem?_append_right hj] at hd
        obtain rfl := List.mem_singleton.mp (List.mem_of_getElem? hd)
        exact absurd hold (hnew v hv).2
    · have hj := (List.getElem?_eq_some_iff.mp hd).1
      rw [List.length_append, List.length_singleton] at hj
      omega

end Listed

/-! ### All components -/

/-- The number is accepted and can be reached from an accepted root through accepted numbers. -/
def Visited (a : Adjacency) (accept : Nat → Bool) (roots : List Nat) (v : Nat) : Prop :=
  v < a.size ∧ ∃ s ∈ roots, accept s ∧ ReflTransGen (a.restrict accept).Adj s v

theorem Visited.accepted (h : a.Visited accept roots v) : accept v = true := by
  obtain ⟨-, s, -, hs, hpath⟩ := h
  rcases ReflTransGen.cases_tail hpath with rfl | ⟨w, -, hwv⟩
  · exact hs
  · exact (adj_restrict.mp hwv).2.1

theorem reaches_of_restrict (h : ReflTransGen (a.restrict accept).Adj u v) :
    ReflTransGen a.Adj u v :=
  h.lift id fun _ _ hxy => (adj_restrict.mp hxy).2.2

section Components

variable (hroots : ∀ r ∈ roots, accept r = true)
include hroots

/-- What the search leaves: all that was entered is listed. -/
theorem listed_components : Listed (a.restrict accept) (a.components accept roots) ∧
    ∀ v, v ∈ (a.components accept roots).flatten ↔ a.Visited accept roots v := by
  obtain ⟨hinv, hentered⟩ := (Invariant.start a accept roots).foldl_visit fun r hr =>
    ⟨hr, hroots r hr⟩
  have hlisted : ∀ v, (roots.foldl (a.visit accept) (.start a.size)).IsEntered v ↔
      v ∈ (a.components accept roots).flatten := by
    intro v
    rw [hinv.entered_iff, hinv.spine.eq_nil]
    simp [components]
  refine ⟨hinv.listed, fun v => ?_⟩
  rw [← hlisted]
  constructor
  · intro hv
    obtain ⟨r, hr, hpath⟩ := hinv.reached v hv
    exact ⟨hinv.lt_size hv, r, hr, hroots r hr, hpath⟩
  · rintro ⟨hv, r, hr, -, hpath⟩
    have hlt : r < a.size := by
      rcases ReflTransGen.cases_head hpath with rfl | ⟨w, hadj, -⟩
      · exact hv
      · exact size_restrict a accept ▸ hadj.lt_size
    rw [hlisted]
    refine mem_of_reach (p := (· ∈ (a.components accept roots).flatten)) ?_ ?_ ?_ hpath
    · exact fun u w hu hw hadj => hinv.listed.mem_of_adj hu hw hadj
    · exact (hlisted r).mp (hentered r hlt (.inr hr))
    · rwa [size_restrict]

theorem mem_flatten_components :
    v ∈ (a.components accept roots).flatten ↔ a.Visited accept roots v :=
  (listed_components hroots).2 v

/-- No number is listed twice. -/
theorem nodup_flatten_components : (a.components accept roots).flatten.Nodup :=
  (listed_components hroots).1.nodup_flatten

theorem ne_nil_of_mem_components (hc : c ∈ a.components accept roots) : c ≠ [] :=
  (listed_components hroots).1.ne_nil c hc

/-- **A component is a class of mutual reach.** -/
theorem mem_of_mem_components (hc : c ∈ a.components accept roots) (hu : u ∈ c) :
    v ∈ c ↔ (a.restrict accept).Mutual u v :=
  (listed_components hroots).1.mem_iff c hc u hu v

end Components

/-! ### Decompositions -/

/-- The lists are the strongly connected components of what can be reached from the roots. -/
structure Decomposes (a : Adjacency) (accept : Nat → Bool) (roots : List Nat)
    (cs : List (List Nat)) : Prop where
  /-- The visited numbers are listed, and nothing else is. -/
  covers : ∀ v, v ∈ cs.flatten ↔ a.Visited accept roots v
  /-- No number is listed twice, neither in one component nor in two. -/
  once : cs.flatten.Nodup
  ne_nil : ∀ c ∈ cs, c ≠ []
  /-- Two numbers share a component exactly if each can be reached from the other. -/
  shares : ∀ u v, a.Visited accept roots u → a.Visited accept roots v →
    ((∃ c ∈ cs, u ∈ c ∧ v ∈ c) ↔ (a.restrict accept).Mutual u v)
  /-- An edge between components leads to the one that is listed before the other. -/
  earlier : ∀ (i j : Nat) (c d : List Nat), cs[i]? = some c → cs[j]? = some d →
    ∀ u ∈ c, ∀ v ∈ d, a.Adj u v → i ≠ j → j < i

/-- **The search decomposes the graph**, from the last component to the first. -/
theorem decomposes_components (hroots : ∀ r ∈ roots, accept r = true) :
    Decomposes a accept roots (a.components accept roots) := by
  obtain ⟨hlisted, hvisited⟩ := listed_components (a := a) hroots
  refine ⟨hvisited, hlisted.nodup_flatten, hlisted.ne_nil, fun u v hu _ => ⟨?_, fun huv => ?_⟩, ?_⟩
  · rintro ⟨c, hc, hu, hv⟩
    exact (hlisted.mem_iff c hc u hu v).mp hv
  · obtain ⟨c, hc, huc⟩ := List.mem_flatten.mp ((hvisited u).mpr hu)
    exact ⟨c, hc, huc, (hlisted.mem_iff c hc u huc v).mpr huv⟩
  · intro i j c d hc hd u hu v hv hadj hne
    have haccept {x : Nat} {e : List Nat} {k : Nat}
        (he : (a.components accept roots)[k]? = some e) (hx : x ∈ e) : accept x = true :=
      ((hvisited x).mp (Listed.mem_flatten_of_getElem? he hx)).accepted
    have hinner : (a.restrict accept).Adj u v :=
      adj_restrict.mpr ⟨haccept hc hu, haccept hd hv, hadj⟩
    exact Nat.lt_of_le_of_ne (hlisted.le_of_adj hc hd hu hv hinner) (Ne.symm hne)

/-- Two rings `0 1 2` and `4 5 6`, with an edge from the first into the second by way of `3`; `7`
refers to itself and into the first ring, `8` would join the rings, and `9` is not there. -/
def rings : Adjacency := #[[1], [2, 3], [0, 0], [4], [5], [8, 6], [4, 5], [7, 2, 9], [0]]

theorem decomposes_components_rings :
    (∀ r ∈ [1, 6, 7], (r != 8) = true) ∧
      Decomposes rings (· != 8) [1, 6, 7] (rings.components (· != 8) [1, 6, 7]) :=
  ⟨by decide, decomposes_components (by decide)⟩

/-- Without `8` the rings are two components, and the one reached is listed before. -/
example : rings.components (· != 8) [1, 6, 7] = [[6, 5, 4], [3], [0, 2, 1], [7]] ∧
    rings.components (fun _ => true) [1, 6, 7] = [[6, 8, 5, 4, 3, 0, 2, 1], [7]] := by cbv

end Recalc.Adjacency
