/-
Recalc/Proofs/Graph/Depth.lean

Depths.  A unit is a class of mutual reach: a single cell, or all the cells of a cycle.
`UnitChain r k v` says that `k` units come one behind the other before the unit of `v`,
each with an edge to the next.  The depth of a cell outside cycles is the length of the
longest such chain (`depth_build`), so it depends on the edges only and not on the order
in which the cells are taken.

Design.  Depths are assigned group by group, and the groups are the units.  What leads to
a unit from outside has its depth already (`groups_ordered`), and no later group writes
it; so `DeepTo` is kept by one group (`DeepTo.step`), hence by all of them.
-/
import Recalc.Proofs.Graph.Cycles
import Mathlib.Order.Bounds.Basic

open Relation

namespace Recalc

/-- A chain of `k` units, each with an edge to the next one, leads to the unit of `v`. -/
inductive UnitChain {α : Type} (r : α → α → Prop) : Nat → α → Prop
  | start (v : α) : UnitChain r 0 v
  | next {k : Nat} {u w v : α} (hchain : UnitChain r k u) (hadj : r u w)
      (hapart : ¬ ReflTransGen r w u) (hwv : ReflTransGen r w v) (hvw : ReflTransGen r v w) :
      UnitChain r (k + 1) v

/-- A chain is carried along by a map of the edges that joins no two units. -/
theorem UnitChain.map {α β : Type} {r : α → α → Prop} {s : β → β → Prop} {f : α → β}
    (hf : ∀ u v, r u v → s (f u) (f v))
    (hback : ∀ u w, r u w → ReflTransGen s (f w) (f u) → ReflTransGen r w u) {k : Nat} {v : α}
    (h : UnitChain r k v) : UnitChain s k (f v) := by
  induction h with
  | start v => exact .start (f v)
  | @next k u w v _ hadj hapart hwv hvw ih =>
    exact .next ih (hf u w hadj) (fun hreach => hapart (hback u w hadj hreach))
      (hwv.lift f hf) (hvw.lift f hf)

namespace Plan

open Adjacency

variable {a pre : Adjacency} {depths : Array Nat} {u v : Nat}

/-! ### One group -/

/-- The numbers outside a group that lead into it. -/
def outside (pre : Adjacency) (g : List Nat) : List Nat :=
  (g.flatMap pre.next).filter fun u => !g.contains u

/-- One more than the greatest depth outside. -/
def depthOf (pre : Adjacency) (depths : Array Nat) (g : List Nat) : Nat :=
  ((outside pre g).map fun u => depths[u]?.getD 0 + 1).foldl max 0

/-- Assign the depth of a group to its members. -/
def deepen (pre : Adjacency) (depths : Array Nat) (g : List Nat) : Array Nat :=
  g.foldl (fun assigned v => assigned.setIfInBounds v (depthOf pre depths g)) depths

theorem size_deepen (pre : Adjacency) (depths : Array Nat) (g : List Nat) :
    (deepen pre depths g).size = depths.size :=
  size_foldl_setIfInBounds g depths _

/-- The number given to a member is the depth of the group; the others keep theirs. -/
theorem getElem?_deepen (pre : Adjacency) (g : List Nat) (hv : v < depths.size) :
    (deepen pre depths g)[v]? = if v ∈ g then some (depthOf pre depths g) else depths[v]? :=
  getElem?_foldl_setIfInBounds g depths _ hv

theorem depths_eq_foldl (p : Plan) (pre : Adjacency) :
    p.depths pre = (p.schedule.map p.members).foldl (deepen pre) (Array.replicate pre.size 0) := by
  rw [List.foldl_map]
  rfl

theorem foldl_max_eq_zero_or_mem (l : List Nat) : l.foldl max 0 = 0 ∨ l.foldl max 0 ∈ l := by
  cases hmax : l.max? with
  | none =>
    rw [List.max?_eq_none_iff.mp hmax]
    exact .inl rfl
  | some m =>
    rw [List.foldl_max, hmax, Option.getD_some, Nat.zero_max]
    exact .inr (List.max?_mem hmax)

/-- What holds after some groups: their members have the lengths of their longest chains. -/
structure DeepTo (a : Adjacency) (done : List (List Nat)) (depths : Array Nat) : Prop where
  size : depths.size = a.size
  greatest : ∀ v ∈ done.flatten, IsGreatest {k | UnitChain a.Adj k v} (depths[v]?.getD 0)

section Groups

variable {g : List Nat} {l₁ l₂ : List (List Nat)} (hclosed : a.Closed)
  (hpre : ∀ u v, u ∈ pre.next v ↔ a.Adj u v)
include hclosed hpre

omit hclosed in
theorem mem_outside : u ∈ outside pre g ↔ u ∉ g ∧ ∃ w ∈ g, a.Adj u w := by
  rw [outside, List.mem_filter, List.mem_flatMap, Bool.not_eq_true', List.contains_eq_mem,
    decide_eq_false_iff_not, and_comm]
  simp only [hpre]

/-- **The depth of a group is the length of the longest chain before it.** -/
theorem isGreatest_depthOf (hgroups : groups a = l₁ ++ g :: l₂) (h : DeepTo a l₁ depths)
    (hv : v ∈ g) : IsGreatest {k | UnitChain a.Adj k v} (depthOf pre depths g) := by
  have hg : g ∈ groups a := hgroups ▸ List.mem_append_right _ List.mem_cons_self
  -- what leads into the group from outside is in an earlier group
  have hbefore {u w : Nat} (hw : w ∈ g) (hadj : a.Adj u w) (hu : u ∉ g) :
      IsGreatest {k | UnitChain a.Adj k u} (depths[u]?.getD 0) :=
    h.greatest u ((groups_ordered hclosed hgroups hw hadj).resolve_left hu)
  constructor
  · show UnitChain a.Adj (depthOf pre depths g) v
    rcases foldl_max_eq_zero_or_mem
        ((outside pre g).map fun u => depths[u]?.getD 0 + 1) with hzero | hmem
    · rw [depthOf, hzero]
      exact .start v
    · obtain ⟨u, hu, hdepth⟩ := List.mem_map.mp hmem
      obtain ⟨hout, w, hw, hadj⟩ := (mem_outside hpre).mp hu
      obtain ⟨hwv, hvw⟩ := (mem_group_iff hclosed hg hw).mp hv
      rw [depthOf, ← hdepth]
      refine .next (hbefore hw hadj hout).1 hadj (fun hreach => hout ?_) hwv hvw
      exact (mem_group_iff hclosed hg hw).mpr ⟨hreach, .single hadj⟩
  · rintro k (hchain : UnitChain a.Adj k v)
    cases hchain with
    | start => exact Nat.zero_le _
    | @next k u w _ hchain hadj hapart hwv hvw =>
      have hw : w ∈ g := (mem_group_iff hclosed hg hv).mpr ⟨hvw, hwv⟩
      have hout : u ∉ g := fun hu => hapart ((mem_group_iff hclosed hg hw).mp hu).1
      have hle : k ≤ depths[u]?.getD 0 := (hbefore hw hadj hout).2 hchain
      have hmem : depths[u]?.getD 0 + 1 ∈ 0 :: (outside pre g).map fun u => depths[u]?.getD 0 + 1 :=
        List.mem_cons_of_mem _ (List.mem_map.mpr ⟨u, (mem_outside hpre).mpr ⟨hout, w, hw, hadj⟩, rfl⟩)
      exact (Nat.succ_le_succ hle).trans (List.le_max_of_mem hmem)

/-- **One group more.** -/
theorem DeepTo.step (hgroups : groups a = l₁ ++ g :: l₂) (h : DeepTo a l₁ depths) :
    DeepTo a (l₁ ++ [g]) (deepen pre depths g) where
  size := (size_deepen pre depths g).trans h.size
  greatest v hv := by
    have hlt : v < depths.size := by
      rw [h.size, ← mem_flatten_groups hclosed, hgroups]
      simp only [List.flatten_append, List.flatten_cons, List.mem_append] at hv ⊢
      rcases hv with hv | hv | hv
      · exact .inl hv
      · exact .inr (.inl hv)
      · cases hv
    rw [getElem?_deepen pre g hlt]
    split
    case isTrue hmem => exact isGreatest_depthOf hclosed hpre hgroups h hmem
    case isFalse hnot =>
      refine h.greatest v ?_
      rw [List.flatten_append, List.mem_append] at hv
      exact hv.resolve_right fun hg => hnot (by simpa using hg)

/-- **All groups.** -/
theorem DeepTo.run (hgroups : groups a = l₁ ++ l₂) (h : DeepTo a l₁ depths) :
    DeepTo a (groups a) (l₂.foldl (deepen pre) depths) := by
  induction l₂ generalizing l₁ depths with
  | nil =>
    rw [hgroups, List.append_nil]
    exact h
  | cons g l₂ ih =>
    have hnext : groups a = (l₁ ++ [g]) ++ l₂ := by
      rw [hgroups, List.append_assoc, List.singleton_append]
    exact ih hnext (h.step hclosed hpre hgroups)

end Groups

end Plan

namespace GraphBuilder

open Adjacency

variable {b : GraphBuilder} {v : Nat} {n : Node}

/-- The precedents of each cell. -/
def precedents (b : GraphBuilder) : Adjacency :=
  .ofPairs b.withImplicit.size (b.withImplicit.edges.map fun e => (e.target, e.source))

theorem mem_next_precedents (h : b.Indexed) (u v : Nat) :
    u ∈ b.precedents.next v ↔ b.build.dependents.Adj u v := by
  have hpairs : (v, u) ∈ b.build.edges.map (fun e => (e.target, e.source)) ↔ b.build.Adj u v := by
    simp only [List.mem_map, Prod.mk.injEq, Graph.Adj]
    exact exists_congr fun e => and_congr_right fun _ => and_comm
  have hnext : u ∈ b.precedents.next v ↔
      v < b.withImplicit.size ∧ (v, u) ∈ b.build.edges.map fun e => (e.target, e.source) :=
    adj_ofPairs
  rw [hnext, hpairs, adj_dependents_build h]
  refine ⟨fun hadj => hadj.2, fun hadj => ⟨?_, hadj⟩⟩
  have hlt := (adj_lt_size h hadj).2
  rwa [size_nodes_build] at hlt

theorem deepTo_build (h : b.Indexed) : Plan.DeepTo b.build.dependents b.groups
    ((Plan.ofAdjacency b.build.dependents).depths b.precedents) := by
  have hschedule : (Plan.ofAdjacency b.build.dependents).schedule = b.build.schedule := rfl
  rw [Plan.depths_eq_foldl, hschedule, map_members_plan h]
  refine Plan.DeepTo.run (closed_dependents_build h) (mem_next_precedents h)
    (List.nil_append _).symm ⟨?_, ?_⟩
  · rw [Array.size_replicate, size_dependents_build, size_nodes_build, precedents, size_ofPairs]
    rfl
  · rintro v hv
    cases hv

/-- The depth field of a node. -/
theorem depth_of_node? (hn : b.build.node? v = some n) : n.depth =
    if (Plan.ofAdjacency b.build.dependents).cycles.flatten.contains v then none
    else ((Plan.ofAdjacency b.build.dependents).depths b.precedents)[v]? := by
  simp only [Graph.node?, build, Array.getElem?_mapIdx, Option.map_eq_some_iff] at hn
  obtain ⟨cell, -, rfl⟩ := hn
  rfl

theorem mem_flatten_cycles_iff (h : b.Indexed) :
    v ∈ (Plan.ofAdjacency b.build.dependents).cycles.flatten ↔ TransGen b.build.Adj v v := by
  rw [plan_build h, Plan.cycles_steps, List.mem_flatten]
  constructor
  · rintro ⟨g, hg, hv⟩
    exact transGen_of_mem_cycleGroups h hg hv
  · intro hv
    obtain ⟨k, g, hg, hv⟩ := exists_cycleGroup h hv
    exact ⟨g, List.mem_of_getElem? hg, hv⟩

/-- **A cell outside cycles has the length of the longest chain before it**, and a cell on a cycle
has no depth. -/
theorem depth_build (h : b.Indexed) (hn : b.build.node? v = some n) :
    (TransGen b.build.Adj v v ∧ n.depth = none) ∨ (¬ TransGen b.build.Adj v v ∧
      ∃ d, n.depth = some d ∧ IsGreatest {k | UnitChain b.build.Adj k v} d) := by
  have hv : v < b.build.nodes.size := (Array.getElem?_eq_some_iff.mp hn).1
  have hdeep := deepTo_build h
  have hget := Array.getElem?_eq_getElem (hdeep.size.symm ▸ (size_dependents_build b).symm ▸ hv)
  rw [depth_of_node? hn]
  by_cases hcycle : TransGen b.build.Adj v v
  · rw [if_pos (List.contains_iff_mem.mpr ((mem_flatten_cycles_iff h).mpr hcycle))]
    exact .inl ⟨hcycle, rfl⟩
  · rw [if_neg fun hmem => hcycle ((mem_flatten_cycles_iff h).mp (List.contains_iff_mem.mp hmem))]
    refine .inr ⟨hcycle, _, hget, ?_⟩
    have hgreatest := hdeep.greatest v ((mem_flatten_groups_build h).mpr hv)
    rwa [hget, Option.getD_some, adj_dependents_build_eq h] at hgreatest

end GraphBuilder

end Recalc
