/-
Recalc/Proofs/Graph/Plan.lean

A plan lists the classes of mutual reach so that edges only lead forward.  With the
groups of a graph, which are the peeled numbers one by one and then the units in the
order they are peeled,

    ofAdjacency a = steps a 0 (groups a)                   (ofAdjacency_eq_steps),

and everything about plans is read off the groups: they hold every number once
(`nodup_flatten_groups`, `mem_flatten_groups`), two numbers share a group exactly if they
are mutual (`mem_group_iff`), and an edge comes from its own group or from one before
(`groups_ordered`).

Design.  What peeling leaves is closed under edges, so reaching among it is reaching in
the whole graph and no cycle is lost.  The units cannot form a cycle, since two units on
one would be one class; so peeling the units takes all of them.
-/
import Recalc.Graph.Plan
import Recalc.Proofs.Graph.Components
import Recalc.Proofs.Graph.Peel

open Relation

namespace Recalc

/-- The number of a step that is a cycle. -/
def Step.cycle? : Step → Option Nat
  | .node _ => none
  | .cycle index => some index

namespace Plan

open Adjacency

variable {a : Adjacency} {u v : Nat}

/-! ### Steps of groups -/

section Steps

variable {k : Nat} {gs : List (List Nat)}

theorem eq_singleton_of_not_isCycle {g : List Nat} (h : isCycle a g = false) :
    ∃ v, g = [v] ∧ ¬ a.Adj v v := by
  unfold isCycle at h
  split at h
  · exact ⟨_, rfl, by simpa [Adj] using h⟩
  · cases h

theorem isCycle_singleton : isCycle a [v] = true ↔ a.Adj v v := by
  simp [isCycle, Adj]

theorem cycles_steps : (steps a k gs).cycles = gs.filter (isCycle a) := by
  induction gs generalizing k with
  | nil => rfl
  | cons g gs ih =>
      by_cases hg : isCycle a g
      · simp [steps, hg, ih]
      · simp [steps, hg, ih]

/-- The members of the steps are the groups, given the cycles before. -/
theorem map_members_steps {p : Plan} {before : List (List Nat)} (hlen : before.length = k)
    (hcycles : p.cycles = before ++ (steps a k gs).cycles) :
    (steps a k gs).schedule.map p.members = gs := by
  induction gs generalizing k before with
  | nil => rfl
  | cons g gs ih =>
      by_cases hg : isCycle a g
      · simp only [steps, hg, if_true, List.map_cons] at hcycles ⊢
        have hself : p.members (.cycle k) = g := by
          simp [members, hcycles, ← hlen]
        have hbefore : p.cycles = (before ++ [g]) ++ (steps a (k + 1) gs).cycles := by
          rw [hcycles, List.append_assoc, List.singleton_append]
        rw [hself, ih (by simp [hlen]) hbefore]
      · obtain ⟨v, rfl, -⟩ := eq_singleton_of_not_isCycle (by simpa using hg)
        simp only [steps, hg, if_false, List.map_cons, Bool.false_eq_true] at hcycles ⊢
        rw [ih hlen hcycles]
        rfl

theorem node_mem_steps (h : Step.node v ∈ (steps a k gs).schedule) :
    [v] ∈ gs ∧ ¬ a.Adj v v := by
  induction gs generalizing k with
  | nil => cases h
  | cons g gs ih =>
      by_cases hg : isCycle a g
      · simp only [steps, hg, if_true, List.mem_cons, reduceCtorEq, false_or] at h
        exact ⟨List.mem_cons_of_mem _ (ih h).1, (ih h).2⟩
      · obtain ⟨w, rfl, hw⟩ := eq_singleton_of_not_isCycle (by simpa using hg)
        simp only [steps, hg, if_false, List.mem_cons, Bool.false_eq_true, List.headD_cons,
          Step.node.injEq] at h
        rcases h with rfl | h
        · exact ⟨List.mem_cons_self, hw⟩
        · exact ⟨List.mem_cons_of_mem _ (ih h).1, (ih h).2⟩

/-- Cycles are numbered in the order they are taken. -/
theorem cycleIds_steps :
    (steps a k gs).schedule.filterMap Step.cycle? = List.range' k (steps a k gs).cycles.length := by
  induction gs generalizing k with
  | nil => rfl
  | cons g gs ih =>
      by_cases hg : isCycle a g
      · simp only [steps, hg, if_true, List.filterMap_cons, Step.cycle?, List.length_cons,
          List.range'_succ, ih]
      · simp only [steps, hg, if_false, List.filterMap_cons, Step.cycle?, Bool.false_eq_true, ih]

/-- Single numbers without an edge to themselves become steps as they are. -/
theorem steps_singletons_append {l : List Nat} (hl : ∀ v ∈ l, ¬ a.Adj v v) :
    steps a k (l.map (fun v => [v]) ++ gs) =
      ⟨l.map .node ++ (steps a k gs).schedule, (steps a k gs).cycles⟩ := by
  induction l with
  | nil => rfl
  | cons v l ih =>
      have hv : isCycle a [v] = false := by
        rw [← Bool.not_eq_true, isCycle_singleton]
        exact hl v List.mem_cons_self
      rw [List.map_cons, List.cons_append, steps, hv,
        ih fun w hw => hl w (List.mem_cons_of_mem _ hw)]
      rfl

end Steps

/-! ### Edges between units -/

section Units

variable {n : Nat} {units : List (List Nat)}

/-- The owner of a number is the unit that has it, units being counted from `k` on. -/
theorem getElem?_foldl_units (hnodup : units.flatten.Nodup) (owner : Array Nat) (k : Nat)
    (hv : v < owner.size) :
    ((units.zipIdx k).foldl
        (fun owner (members, u) => members.foldl (fun owner v => owner.setIfInBounds v u) owner)
        owner)[v]?
      = if v ∈ units.flatten then some (k + units.findIdx (v ∈ ·)) else owner[v]? := by
  induction units generalizing owner k with
  | nil => simp
  | cons c units ih =>
      rw [List.flatten_cons] at hnodup
      have hrest := hnodup.of_append_right
      rw [List.zipIdx_cons, List.foldl_cons,
        ih hrest _ _ (by rw [size_foldl_setIfInBounds]; exact hv),
        getElem?_foldl_setIfInBounds _ _ _ hv]
      by_cases hc : v ∈ c
      · have hnot : v ∉ units.flatten := List.disjoint_of_nodup_append hnodup hc
        simp [hc, hnot, List.findIdx_cons]
      · by_cases hr : v ∈ units.flatten
        · simp [hc, hr, List.findIdx_cons, Nat.add_assoc, Nat.add_comm]
        · simp [hc, hr]

/-- Two places of a list without repetition hold different members. -/
theorem index_unique (hnodup : units.flatten.Nodup) {i j : Nat} {c d : List Nat}
    (hi : units[i]? = some c) (hj : units[j]? = some d) (hc : v ∈ c) (hd : v ∈ d) : i = j := by
  obtain ⟨hi', rfl⟩ := List.getElem?_eq_some_iff.mp hi
  obtain ⟨hj', rfl⟩ := List.getElem?_eq_some_iff.mp hj
  have hdisj := (List.nodup_flatten.mp hnodup).2
  rcases Nat.lt_trichotomy i j with hlt | heq | hgt
  · exact absurd hd (List.pairwise_iff_getElem.mp hdisj i j hi' hj' hlt hc)
  · exact heq
  · exact absurd hc (List.pairwise_iff_getElem.mp hdisj j i hj' hi' hgt hd)

theorem getElem?_unitOf (hnodup : units.flatten.Nodup) (hv : v < n) {i : Nat}
    (hi : i < units.length) :
    (unitOf n units)[v]? = some i ↔ ∃ c, units[i]? = some c ∧ v ∈ c := by
  rw [unitOf, getElem?_foldl_units hnodup _ _ (by simpa using hv)]
  by_cases hmem : v ∈ units.flatten
  · obtain ⟨c, hc, hvc⟩ := List.mem_flatten.mp hmem
    have hfind : units.findIdx (v ∈ ·) < units.length :=
      List.findIdx_lt_length_of_exists ⟨c, hc, by simpa using hvc⟩
    have hfound : v ∈ units[units.findIdx (v ∈ ·)] := by
      have := List.findIdx_getElem (w := hfind)
      simpa using this
    have hget : units[units.findIdx (v ∈ ·)]? = some units[units.findIdx (v ∈ ·)] :=
      List.getElem?_eq_getElem hfind
    rw [if_pos hmem]
    simp only [Nat.zero_add, Option.some.injEq]
    constructor
    · rintro rfl
      exact ⟨_, hget, hfound⟩
    · rintro ⟨d, hd, hvd⟩
      exact index_unique hnodup hget hd hfound hvd
  · rw [if_neg hmem]
    simp only [Array.getElem?_replicate, hv, if_true, Option.some.injEq]
    constructor
    · intro heq
      omega
    · rintro ⟨c, hc, hvc⟩
      exact absurd (List.mem_flatten.mpr ⟨c, List.mem_of_getElem? hc, hvc⟩) hmem

@[simp] theorem size_unitEdges : (unitEdges a units).size = units.length := by
  simp [unitEdges]

theorem adj_unitEdges (hclosed : a.Closed) (hnodup : units.flatten.Nodup) {i j : Nat} :
    (unitEdges a units).Adj i j ↔ i ≠ j ∧ ∃ c d, units[i]? = some c ∧ units[j]? = some d ∧
      ∃ u ∈ c, ∃ v ∈ d, a.Adj u v := by
  by_cases hi : i < units.length
  · have hc : units[i]? = some units[i] := List.getElem?_eq_getElem hi
    have hnext : (unitEdges a units).next i = (units[i].flatMap a.next).filterMap fun v =>
        (unitOf a.size units)[v]?.bind fun w =>
          if w ≠ i ∧ w < units.length then some w else none := by
      simp only [next, unitEdges, List.getElem?_toArray, List.getElem?_map, List.getElem?_zipIdx,
        hc, Option.map_some, Option.getD_some, Nat.zero_add]
      refine List.filterMap_congr fun v _ => ?_
      cases (unitOf a.size units)[v]? <;> rfl
    rw [Adj, hnext, List.mem_filterMap]
    constructor
    · rintro ⟨v, hv, howner⟩
      obtain ⟨u, hu, huv⟩ := List.mem_flatMap.mp hv
      obtain ⟨w, hw, hleaves⟩ := Option.bind_eq_some_iff.mp howner
      split at hleaves
      · rename_i hcond
        obtain rfl := Option.some.inj hleaves
        obtain ⟨d, hd, hvd⟩ := (getElem?_unitOf hnodup (hclosed huv) hcond.2).mp hw
        exact ⟨Ne.symm hcond.1, _, d, hc, hd, u, hu, v, hvd, huv⟩
      · cases hleaves
    · rintro ⟨hne, c, d, hc', hd, u, hu, v, hvd, huv⟩
      obtain rfl := Option.some.inj (hc.symm.trans hc')
      have hj := (List.getElem?_eq_some_iff.mp hd).1
      refine ⟨v, List.mem_flatMap.mpr ⟨u, hu, huv⟩, ?_⟩
      rw [(getElem?_unitOf hnodup (hclosed huv) hj).mpr ⟨d, hd, hvd⟩]
      simp [Ne.symm hne, hj]
  · have hle : units.length ≤ i := Nat.le_of_not_lt hi
    rw [Adj, next_of_size_le (by simpa using hle)]
    simp [List.getElem?_eq_none hle]

end Units

/-! ### What peeling leaves -/

/-- The number is not peeled off. -/
def isLeft (a : Adjacency) (v : Nat) : Bool :=
  (a.peel.foldl (fun m v => m.setIfInBounds v true) (Array.replicate a.size false))[v]?
    == some false

theorem isLeft_iff : isLeft a v = true ↔ v < a.size ∧ v ∉ a.peel := by
  unfold isLeft
  by_cases hv : v < a.size
  · rw [getElem?_foldl_setIfInBounds _ _ _ (by simpa using hv)]
    by_cases hp : v ∈ a.peel <;> simp [hv, hp]
  · rw [Array.getElem?_eq_none (by rw [size_foldl_setIfInBounds]; simpa using hv)]
    simp [hv]

/-- What is left is closed under edges, so reaching in it is reaching in the whole graph. -/
theorem reflTransGen_restrict_isLeft (hclosed : a.Closed) (hu : isLeft a u = true) :
    ReflTransGen (a.restrict (isLeft a)).Adj u v ↔ ReflTransGen a.Adj u v := by
  constructor
  · exact reaches_of_restrict
  · intro hpath
    have key : ReflTransGen (a.restrict (isLeft a)).Adj u v ∧ isLeft a v = true := by
      induction hpath with
      | refl => exact ⟨ReflTransGen.refl, hu⟩
      | @tail x y _ hxy ih =>
          have hy : isLeft a y = true := by
            refine isLeft_iff.mpr ⟨hclosed hxy, fun hpeel => ?_⟩
            exact (isLeft_iff.mp ih.2).2 (((mem_peel_iff hclosed).mp hpeel).2 x hxy)
          exact ⟨ih.1.tail (adj_restrict.mpr ⟨ih.2, hy, hxy⟩), hy⟩
    exact key.1

/-- The components of what is left. -/
def leftComponents (a : Adjacency) : List (List Nat) :=
  a.components (isLeft a) ((List.range a.size).filter (isLeft a))

/-- The units that are left, by their least members. -/
def units (a : Adjacency) : List (List Nat) :=
  ((leftComponents a).map (·.mergeSort)).mergeSort fun c d => c.headD 0 ≤ d.headD 0

theorem mem_units {c : List Nat} : c ∈ units a ↔ ∃ d ∈ leftComponents a, d.mergeSort = c := by
  rw [units, List.mem_mergeSort, List.mem_map]

theorem flatten_units_perm (a : Adjacency) : (units a).flatten.Perm (leftComponents a).flatten := by
  refine (List.mergeSort_perm _ _).flatten.trans ?_
  rw [← List.flatMap_def, ← List.flatMap_id]
  exact List.Perm.flatMap_left _ fun c _ => List.mergeSort_perm c _

theorem isLeft_of_mem_filter : ∀ r ∈ (List.range a.size).filter (isLeft a), isLeft a r = true :=
  fun _ hr => (List.mem_filter.mp hr).2

theorem visited_iff_isLeft :
    a.Visited (isLeft a) ((List.range a.size).filter (isLeft a)) v ↔ isLeft a v = true := by
  refine ⟨Visited.accepted, fun hv => ?_⟩
  have hlt := (isLeft_iff.mp hv).1
  exact ⟨hlt, v, List.mem_filter.mpr ⟨List.mem_range.mpr hlt, hv⟩, hv, ReflTransGen.refl⟩

theorem nodup_flatten_units (a : Adjacency) : (units a).flatten.Nodup :=
  (flatten_units_perm a).nodup_iff.mpr (nodup_flatten_components isLeft_of_mem_filter)

theorem mem_flatten_units : v ∈ (units a).flatten ↔ isLeft a v = true := by
  rw [(flatten_units_perm a).mem_iff, leftComponents, mem_flatten_components isLeft_of_mem_filter,
    visited_iff_isLeft]

/-- A unit is a class of mutual reach of the whole graph. -/
theorem mem_unit_iff (hclosed : a.Closed) {c : List Nat} (hc : c ∈ units a) (hu : u ∈ c) :
    v ∈ c ↔ a.Mutual u v := by
  have hleft : ∀ {x}, x ∈ c → isLeft a x = true := fun hx =>
    mem_flatten_units.mp (List.mem_flatten.mpr ⟨c, hc, hx⟩)
  obtain ⟨d, hd, rfl⟩ := mem_units.mp hc
  rw [List.mem_mergeSort, mem_of_mem_components isLeft_of_mem_filter hd (List.mem_mergeSort.mp hu)]
  constructor
  · rintro ⟨huv, hvu⟩
    exact ⟨reaches_of_restrict huv, reaches_of_restrict hvu⟩
  · rintro ⟨huv, hvu⟩
    have huv' := (reflTransGen_restrict_isLeft hclosed (hleft hu)).mpr huv
    have hv : isLeft a v = true := by
      rcases ReflTransGen.cases_tail huv' with rfl | ⟨w, -, hwv⟩
      · exact hleft hu
      · exact (adj_restrict.mp hwv).2.1
    exact ⟨huv', (reflTransGen_restrict_isLeft hclosed hv).mpr hvu⟩

/-! ### Units in order -/

/-- A path of units is a path between any of their members. -/
theorem reaches_of_transGen_unitEdges (hclosed : a.Closed) {i j : Nat}
    (h : TransGen (unitEdges a (units a)).Adj i j) {c d : List Nat} (hc : (units a)[i]? = some c)
    (hd : (units a)[j]? = some d) (hu : u ∈ c) (hv : v ∈ d) : ReflTransGen a.Adj u v := by
  have hstep : ∀ {i j : Nat} {c d : List Nat} {u v : Nat}, (unitEdges a (units a)).Adj i j →
      (units a)[i]? = some c → (units a)[j]? = some d → u ∈ c → v ∈ d →
      ReflTransGen a.Adj u v := by
    intro i j c d u v hij hc hd hu hv
    obtain ⟨-, c', d', hc', hd', x, hx, y, hy, hxy⟩ :=
      (adj_unitEdges hclosed (nodup_flatten_units a)).mp hij
    obtain rfl := Option.some.inj (hc'.symm.trans hc)
    obtain rfl := Option.some.inj (hd'.symm.trans hd)
    have hux := (mem_unit_iff hclosed (List.mem_of_getElem? hc) hu).mp hx
    have hyv := (mem_unit_iff hclosed (List.mem_of_getElem? hd) hy).mp hv
    exact (hux.1.tail hxy).trans hyv.1
  induction h generalizing d v with
  | single hij => exact hstep hij hc hd hu hv
  | tail _ hjk ih =>
      obtain ⟨-, c', -, hc', -, x, hx, -⟩ :=
        (adj_unitEdges hclosed (nodup_flatten_units a)).mp hjk
      exact (ih hc' hx).trans (hstep hjk hc' hd hx hv)

theorem unitEdges_acyclic (hclosed : a.Closed) (i : Nat) :
    ¬ TransGen (unitEdges a (units a)).Adj i i := by
  intro hcycle
  obtain ⟨j, hij, hji⟩ := TransGen.head'_iff.mp hcycle
  obtain ⟨hne, c, d, hc, hd, u, hu, v, hv, -⟩ :=
    (adj_unitEdges hclosed (nodup_flatten_units a)).mp hij
  have huv := reaches_of_transGen_unitEdges hclosed (TransGen.single hij) hc hd hu hv
  have hvu : ReflTransGen a.Adj v u := by
    rcases reflTransGen_iff_eq_or_transGen.mp hji with heq | hpath
    · exact absurd heq hne
    · exact reaches_of_transGen_unitEdges hclosed hpath hd hc hv hu
  -- the two units are one class, so they are one unit
  have hvc := (mem_unit_iff hclosed (List.mem_of_getElem? hc) hu).mpr ⟨huv, hvu⟩
  exact hne (index_unique (nodup_flatten_units a) hc hd hvc hv)

theorem unitEdges_closed (hclosed : a.Closed) : (unitEdges a (units a)).Closed := by
  intro i j hij
  obtain ⟨-, -, d, -, hd, -⟩ := (adj_unitEdges hclosed (nodup_flatten_units a)).mp hij
  rw [size_unitEdges]
  exact (List.getElem?_eq_some_iff.mp hd).1

theorem peel_unitEdges_perm (hclosed : a.Closed) :
    (unitEdges a (units a)).peel.Perm (List.range (units a).length) := by
  have hE := unitEdges_closed hclosed
  refine (List.perm_ext_iff_of_nodup (nodup_peel hE) List.nodup_range).mpr fun i => ?_
  rw [List.mem_range]
  constructor
  · intro hi
    simpa using ((mem_peel_iff hE).mp hi).1
  · intro hi
    exact mem_peel_of_acyclic hE (unitEdges_acyclic hclosed) (by simpa using hi)

/-- The units in the order they are peeled. -/
def orderedUnits (a : Adjacency) : List (List Nat) :=
  (unitEdges a (units a)).peel.filterMap ((units a)[·]?)

theorem orderedUnits_perm (hclosed : a.Closed) : (orderedUnits a).Perm (units a) := by
  have hall : (List.range (units a).length).filterMap ((units a)[·]?) = units a := by
    apply List.ext_getElem?
    intro i
    rw [List.filterMap_congr (g := fun i => some ((units a)[i]?.getD [])), List.filterMap_eq_map']
    · by_cases hi : i < (units a).length <;> simp [hi]
    · intro j hj
      have hj' := List.mem_range.mp hj
      simp [hj']
  have hperm := (peel_unitEdges_perm hclosed).filterMap ((units a)[·]?)
  rw [hall] at hperm
  exact hperm

/-- Every unit comes behind the units with an edge to it. -/
theorem orderedUnits_ordered (hclosed : a.Closed) {m₁ m₂ : List (List Nat)} {g : List Nat}
    (h : orderedUnits a = m₁ ++ g :: m₂) (hv : v ∈ g) (hadj : a.Adj u v)
    (hu : isLeft a u = true) : u ∈ g ∨ u ∈ m₁.flatten := by
  have hE := unitEdges_closed hclosed
  have hnodup := nodup_flatten_units a
  have hmap : orderedUnits a = (unitEdges a (units a)).peel.map fun i => (units a)[i]?.getD [] := by
    rw [orderedUnits, List.filterMap_congr (g := fun i => some ((units a)[i]?.getD [])),
      List.filterMap_eq_map']
    intro i hi
    have hlt := ((mem_peel_iff hE).mp hi).1
    rw [size_unitEdges] at hlt
    simp [hlt]
  rw [hmap] at h
  obtain ⟨o₁, o₂, horder, rfl, htail⟩ := List.map_eq_append_iff.mp h
  obtain ⟨j, o₂', rfl, rfl, -⟩ := List.map_eq_cons_iff.mp htail
  -- `j` is the unit of `v`, and `i` the unit of `u`
  obtain ⟨d, hd⟩ : ∃ d, (units a)[j]? = some d := by
    cases hd : (units a)[j]? with
    | none => simp [hd] at hv
    | some d => exact ⟨d, rfl⟩
  simp only [hd, Option.getD_some] at hv ⊢
  obtain ⟨c, hc, huc⟩ := List.mem_flatten.mp (mem_flatten_units.mpr hu)
  obtain ⟨i, hi⟩ := List.mem_iff_getElem?.mp hc
  by_cases hij : i = j
  · subst hij
    obtain rfl := Option.some.inj (hi.symm.trans hd)
    exact .inl huc
  · have hedge : (unitEdges a (units a)).Adj i j :=
      (adj_unitEdges hclosed hnodup).mpr ⟨hij, c, d, hi, hd, u, huc, v, hv, hadj⟩
    have hbefore := peel_ordered hE horder hedge
    refine .inr (List.mem_flatten.mpr ⟨c, List.mem_map.mpr ⟨i, hbefore, ?_⟩, huc⟩)
    rw [hi]
    rfl

/-! ### Groups -/

/-- The peeled numbers one by one, and then the units. -/
def groups (a : Adjacency) : List (List Nat) :=
  a.peel.map (fun v => [v]) ++ orderedUnits a

theorem ofAdjacency_eq_steps (hclosed : a.Closed) : ofAdjacency a = steps a 0 (groups a) := by
  rw [groups, steps_singletons_append]
  · rfl
  · intro v hv hself
    exact not_mem_peel_of_cycle hclosed (TransGen.single hself) hv

theorem flatten_groups : (groups a).flatten = a.peel ++ (orderedUnits a).flatten := by
  rw [groups, List.flatten_append]
  congr 1
  induction a.peel with
  | nil => rfl
  | cons v l ih => rw [List.map_cons, List.flatten_cons, ih]; rfl

theorem mem_flatten_orderedUnits (hclosed : a.Closed) :
    v ∈ (orderedUnits a).flatten ↔ isLeft a v = true := by
  rw [(orderedUnits_perm hclosed).flatten.mem_iff, mem_flatten_units]

theorem nodup_flatten_groups (hclosed : a.Closed) : (groups a).flatten.Nodup := by
  rw [flatten_groups]
  refine List.Nodup.append (nodup_peel hclosed) ?_ ?_
  · exact (orderedUnits_perm hclosed).flatten.nodup_iff.mpr (nodup_flatten_units a)
  · intro v hpeel hunit
    exact (isLeft_iff.mp ((mem_flatten_orderedUnits hclosed).mp hunit)).2 hpeel

theorem mem_flatten_groups (hclosed : a.Closed) : v ∈ (groups a).flatten ↔ v < a.size := by
  rw [flatten_groups, List.mem_append, mem_flatten_orderedUnits hclosed, isLeft_iff]
  constructor
  · rintro (hpeel | ⟨hv, -⟩)
    · exact ((mem_peel_iff hclosed).mp hpeel).1
    · exact hv
  · intro hv
    by_cases hpeel : v ∈ a.peel
    · exact .inl hpeel
    · exact .inr ⟨hv, hpeel⟩

theorem ne_nil_of_mem_groups (hclosed : a.Closed) {g : List Nat} (hg : g ∈ groups a) : g ≠ [] := by
  rcases List.mem_append.mp hg with hpeel | hunit
  · obtain ⟨w, -, rfl⟩ := List.mem_map.mp hpeel
    exact List.cons_ne_nil w []
  · obtain ⟨c, hc, rfl⟩ := mem_units.mp ((orderedUnits_perm hclosed).mem_iff.mp hunit)
    have hsorted := List.mergeSort_perm c (· ≤ ·)
    intro hnil
    rw [hnil] at hsorted
    exact ne_nil_of_mem_components isLeft_of_mem_filter hc hsorted.nil_eq.symm

/-- Two different mutual numbers lie on a cycle. -/
theorem transGen_of_mutual (h : a.Mutual u v) (hne : u ≠ v) : TransGen a.Adj u u := by
  rcases reflTransGen_iff_eq_or_transGen.mp h.1 with heq | hpath
  · exact absurd heq.symm hne
  · exact hpath.trans_left h.2

/-- **The groups are the classes of mutual reach.** -/
theorem mem_group_iff (hclosed : a.Closed) {g : List Nat} (hg : g ∈ groups a) (hu : u ∈ g) :
    v ∈ g ↔ a.Mutual u v := by
  rcases List.mem_append.mp hg with hpeel | hunit
  · obtain ⟨w, hw, rfl⟩ := List.mem_map.mp hpeel
    obtain rfl := List.mem_singleton.mp hu
    rw [List.mem_singleton]
    constructor
    · rintro rfl
      exact Mutual.refl a v
    · intro h
      by_contra hne
      exact not_mem_peel_of_cycle hclosed (transGen_of_mutual h (Ne.symm hne)) hw
  · exact mem_unit_iff hclosed ((orderedUnits_perm hclosed).mem_iff.mp hunit) hu

/-- **Edges lead forward.** -/
theorem groups_ordered (hclosed : a.Closed) {l₁ l₂ : List (List Nat)} {g : List Nat}
    (h : groups a = l₁ ++ g :: l₂) (hv : v ∈ g) (hadj : a.Adj u v) : u ∈ g ∨ u ∈ l₁.flatten := by
  have hunit : ∀ m, l₁ = a.peel.map (fun v => [v]) ++ m → orderedUnits a = m ++ g :: l₂ →
      u ∈ g ∨ u ∈ l₁.flatten := by
    rintro m rfl hunits
    by_cases hu : u ∈ a.peel
    · refine .inr (List.mem_flatten.mpr ⟨[u], ?_, List.mem_singleton_self u⟩)
      exact List.mem_append_left _ (List.mem_map.mpr ⟨u, hu, rfl⟩)
    · have hleft : isLeft a u = true := isLeft_iff.mpr ⟨hadj.lt_size, hu⟩
      rcases orderedUnits_ordered hclosed hunits hv hadj hleft with hin | hin
      · exact .inl hin
      · exact .inr (by rw [List.flatten_append]; exact List.mem_append_right _ hin)
  rcases List.append_eq_append_iff.mp h with ⟨m, hl₁, hunits⟩ | ⟨m, hpeel, hcons⟩
  · exact hunit m hl₁ hunits
  · cases m with
    | nil => exact hunit [] (by simpa using hpeel.symm) hcons.symm
    | cons x m =>
        obtain ⟨rfl, -⟩ := List.cons.inj hcons
        obtain ⟨p₁, p₂, hp, rfl, htail⟩ := List.map_eq_append_iff.mp hpeel
        obtain ⟨w, p₂', rfl, rfl, -⟩ := List.map_eq_cons_iff.mp htail
        obtain rfl := List.mem_singleton.mp hv
        have hbefore := peel_ordered hclosed hp hadj
        exact .inr (List.mem_flatten.mpr
          ⟨[u], List.mem_map.mpr ⟨u, hbefore, rfl⟩, List.mem_singleton_self u⟩)

/-- A group is a cycle exactly if its members lie on one. -/
theorem isCycle_iff (hclosed : a.Closed) {g : List Nat} (hg : g ∈ groups a) (hv : v ∈ g) :
    isCycle a g = true ↔ TransGen a.Adj v v := by
  constructor
  · intro hcycle
    match g, hg, hv, hcycle with
    | [w], _, hv, hcycle =>
        obtain rfl := List.mem_singleton.mp hv
        exact TransGen.single (isCycle_singleton.mp hcycle)
    | x :: y :: rest, hg, hv, _ =>
        -- some member differs from `v`
        have hnodup := (List.nodup_flatten.mp (nodup_flatten_groups hclosed)).1 _ hg
        have hxy : x ≠ y := fun heq => (List.nodup_cons.mp hnodup).1 (heq ▸ List.mem_cons_self)
        by_cases hvx : v = x
        · have hy := (mem_group_iff hclosed hg hv).mp (List.mem_cons_of_mem _ List.mem_cons_self)
          exact transGen_of_mutual hy (hvx ▸ hxy)
        · exact transGen_of_mutual ((mem_group_iff hclosed hg hv).mp List.mem_cons_self) hvx
  · intro hpath
    by_contra hnot
    obtain ⟨w, rfl, hself⟩ := eq_singleton_of_not_isCycle (by simpa using hnot)
    obtain rfl := List.mem_singleton.mp hv
    obtain ⟨x, hvx, hxv⟩ := TransGen.head'_iff.mp hpath
    have hx := (mem_group_iff hclosed hg List.mem_cons_self).mpr
      ⟨ReflTransGen.single hvx, hxv⟩
    obtain rfl := List.mem_singleton.mp hx
    exact hself hvx

end Plan

end Recalc
