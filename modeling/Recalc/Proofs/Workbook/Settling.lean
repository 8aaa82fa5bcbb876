/-
Recalc/Proofs/Workbook/Settling.lean

How the cycles of a built graph are resolved.  A cycle that may not be repeated leaves a
circular fault in each member.  Any other one is swept: its members start at 0 and are
evaluated by coordinate, each against what the sweep has changed already, and the first
sweep that leaves a value which is no number, or changes no member by the threshold or
more, is the last; so is the last one allowed.

Design.  `IsSweep` says of two bindings that one sweep leads from one to the other, and
`Sweeps` of a sequence that it starts at 0 and is swept on without end.  `Ending` tells
where such a sequence is cut off and what is bound then, by looking at it and not at the
repetition that stops early:  the sweep that fails is left in its middle, but whether it
fails can be seen from its end (`sweep_eq`).
-/
import Recalc.Proofs.Workbook.Consistency

namespace Recalc

namespace Value

/-- The value takes part in a repetition: it is a number, a date or a blank. -/
def Counts (v : Value) : Prop := v.type = .number ∨ v.type = .date ∨ v.type = .empty

instance (v : Value) : Decidable v.Counts :=
  inferInstanceAs (Decidable (v.type = .number ∨ v.type = .date ∨ v.type = .empty))

/-- The number that a value counts for: 0 if it is no number. -/
def measure (v : Value) : Float := v.number?.getD 0.0

end Value

/-- The cells of a cycle. -/
def Graph.cycleCells (g : Graph) (r : CircularRef) : List GraphCell :=
  (g.nodesOf r.members).map Node.cell

namespace ClusterRun

open Binding

/-! ### Sweeps and their ends -/

/-- One sweep over the members leads from one binding to another. -/
structure IsSweep (engine : Engine) (members : List GraphCell) (b b' : Binding) : Prop where
  constants : b'.constants = b.constants
  outside : ∀ c, c ∉ members.map GraphCell.coordinate → b'.own[c]? = b.own[c]?
  /-- A member sees the new values of those before it and the old values of all others. -/
  turn : ∀ before m after, members = before ++ m :: after →
    ∃ (midway : Binding) (v : Value), midway.constants = b.constants ∧
      (∀ c, midway.own[c]? =
        if c ∈ before.map GraphCell.coordinate then b'.own[c]? else b.own[c]?) ∧
      compute engine m midway = some v ∧ b'.own[m.coordinate]? = some v

/-- Sweep after sweep, from a binding in which all members are 0. -/
structure Sweeps (engine : Engine) (members : List GraphCell) (b : Binding)
    (swept : Nat → Binding) : Prop where
  constants : (swept 0).constants = b.constants
  start : ∀ c, (swept 0).own[c]? =
    if c ∈ members.map GraphCell.coordinate then some (.number 0.0) else b.own[c]?
  next : ∀ k, IsSweep engine members (swept k) (swept (k + 1))

/-- All members are numbers, dates or blanks. -/
def AllCount (members : List GraphCell) (b : Binding) : Prop :=
  ∀ m ∈ members, (b.value m.coordinate).Counts

instance (members : List GraphCell) (b : Binding) : Decidable (AllCount members b) :=
  inferInstanceAs (Decidable (∀ m ∈ members, (b.value m.coordinate).Counts))

/-- By how much each member changed. -/
def changes (members : List GraphCell) (b b' : Binding) : List Float :=
  members.map fun m => ((b'.value m.coordinate).measure - (b.value m.coordinate).measure).abs

/-- By how much any member changed at most. -/
def largestChange (members : List GraphCell) (b b' : Binding) : Float :=
  (changes members b b').foldl Binary64.greater 0.0

/-- After sweep `k + 1` another one is due, if the limits allow it. -/
def GoesOn (members : List GraphCell) (threshold : Float) (swept : Nat → Binding) (k : Nat) :
    Prop :=
  AllCount members (swept (k + 1)) ∧
    ¬ largestChange members (swept k) (swept (k + 1)) < threshold

/-- Every member has a value of its own, the one that is given. -/
def Holds (members : List GraphCell) (b : Binding) (value : Coordinate → Value) : Prop :=
  ∀ m ∈ members, b.own[m.coordinate]? = some (value m.coordinate)

/-- **How a repetition ends**, and what it leaves bound. -/
inductive Ending (index : Nat) (members : List GraphCell) (limits : Iteration)
    (swept : Nat → Binding) : CycleOutcome → Binding → Prop
  /-- A member of this sweep is no number. -/
  | nonNumeric {k : Nat} {b' : Binding} (within : k < limits.maxIterations)
      (before : ∀ j < k, GoesOn members limits.threshold swept j)
      (fails : ¬ AllCount members (swept (k + 1)))
      (bound : Holds members b' fun _ => .error .circular) :
      Ending index members limits swept ⟨index, .nonNumeric, k + 1⟩ b'
  /-- This sweep changed next to nothing. -/
  | converged {k : Nat} {b' : Binding} (within : k < limits.maxIterations)
      (before : ∀ j < k, GoesOn members limits.threshold swept j)
      (counts : AllCount members (swept (k + 1)))
      (small : largestChange members (swept k) (swept (k + 1)) < limits.threshold)
      (bound : Holds members b' (swept (k + 1)).value) :
      Ending index members limits swept ⟨index, .converged, k + 1⟩ b'
  /-- All sweeps are used up. -/
  | didNotConverge {b' : Binding}
      (before : ∀ j < limits.maxIterations, GoesOn members limits.threshold swept j)
      (bound : Holds members b' fun _ => .error .noConverge) :
      Ending index members limits swept ⟨index, .didNotConverge, limits.maxIterations⟩ b'

/-- What it means to resolve a cycle of a graph over a binding. -/
structure Resolved (engine : Engine) (g : Graph) (index : Nat) (r : CircularRef) (b : Binding)
    (outcome : CycleOutcome) (b' : Binding) : Prop where
  /-- The members are swept by coordinate. -/
  ordered : ((g.cycleCells r).map GraphCell.coordinate).Pairwise fun c d => compare c d = .lt
  rejected : r.iteration = none →
    outcome = ⟨index, .rejected, 0⟩ ∧ Holds (g.cycleCells r) b' fun _ => .error .circular
  repeated : ∀ limits, r.iteration = some limits →
    ∃ swept, Sweeps engine (g.cycleCells r) b swept ∧
      Ending index (g.cycleCells r) limits swept outcome b'
  constants : b'.constants = b.constants
  outside : ∀ c, c ∉ (g.cycleCells r).map GraphCell.coordinate → b'.own[c]? = b.own[c]?

/-! ### Members in turn -/

variable {engine : Engine} {members : List GraphCell} {b b' : Binding}

/-- One member takes its turn. -/
def turn (engine : Engine) (b : Binding) (cell : GraphCell) : Binding :=
  b.set cell.coordinate ((compute engine cell b).getD .empty)

/-- The binding after some full sweeps. -/
def swept (engine : Engine) (members : List GraphCell) (b : Binding) : Nat → Binding
  | 0 => b.fill (members.map GraphCell.coordinate) (.number 0.0)
  | k + 1 => members.foldl (turn engine) (swept engine members b k)

theorem writes_foldl_turn (engine : Engine) (members : List GraphCell) (b : Binding) :
    Writes (members.map GraphCell.coordinate) b (members.foldl (turn engine) b) := by
  have hturns {cs : List Coordinate} (hcs : ∀ m ∈ members, m.coordinate ∈ cs) :
      Writes cs b (members.foldl (turn engine) b) := by
    induction members generalizing b with
    | nil => exact .refl cs b
    | cons cell rest ih =>
      have hfirst := writes_set (hcs cell List.mem_cons_self) b
        ((compute engine cell b).getD .empty)
      exact hfirst.trans (ih (turn engine b cell) fun m hm => hcs m (List.mem_cons_of_mem _ hm))
  exact hturns fun m hm => List.mem_map_of_mem hm

theorem getElem?_fill (b : Binding) (cs : List Coordinate) (v : Value) (c : Coordinate) :
    (b.fill cs v).own[c]? = if c ∈ cs then some v else b.own[c]? := by
  have hown : ∀ (cs : List Coordinate) (b : Binding),
      (b.fill cs v).own = cs.foldl (fun m c => m.insert c v) b.own := by
    intro cs
    induction cs with
    | nil => exact fun _ => rfl
    | cons d cs ih => exact fun b => ih (b.set d v)
  rw [hown]
  exact getElem?_foldl_insert_value (fun _ => v) cs b.own c

theorem holds_fill (members : List GraphCell) (b : Binding) (v : Value) :
    Holds members (b.fill (members.map GraphCell.coordinate) v) fun _ => v := by
  intro m hm
  rw [getElem?_fill, if_pos (List.mem_map_of_mem hm)]

/-- The turn of a cell decides its value. -/
theorem getElem?_foldl_turn_cons {cell : GraphCell} {rest : List GraphCell}
    (hnodup : ((cell :: rest).map GraphCell.coordinate).Nodup) (b : Binding) :
    ((cell :: rest).foldl (turn engine) b).own[cell.coordinate]? =
      some ((compute engine cell b).getD .empty) := by
  have hrest : cell.coordinate ∉ rest.map GraphCell.coordinate := (List.nodup_cons.mp hnodup).1
  rw [List.foldl_cons, (writes_foldl_turn engine rest _).outside _ hrest]
  exact Std.TreeMap.getElem?_insert_self

/-- **Taking turns is a sweep.** -/
theorem isSweep_foldl_turn (hnodup : (members.map GraphCell.coordinate).Nodup)
    (hcomputes : ∀ m ∈ members, ∀ b, (compute engine m b).isSome = true) (b : Binding) :
    IsSweep engine members b (members.foldl (turn engine) b) where
  constants := (writes_foldl_turn engine members b).constants
  outside := (writes_foldl_turn engine members b).outside
  turn := by
    rintro before m after rfl
    have hbefore := writes_foldl_turn engine before b
    obtain ⟨v, hv⟩ := Option.isSome_iff_exists.mp
      (hcomputes m (by simp) (before.foldl (ClusterRun.turn engine) b))
    rw [List.map_append] at hnodup
    refine ⟨before.foldl (ClusterRun.turn engine) b, v, hbefore.constants, fun c => ?_, hv, ?_⟩
    · split
      case isTrue hc =>
        -- no cell has a second turn
        have hlater : c ∉ (m :: after).map GraphCell.coordinate :=
          fun hc' => (List.nodup_append.mp hnodup).2.2 c hc c hc' rfl
        rw [List.foldl_append, (writes_foldl_turn engine (m :: after) _).outside c hlater]
      case isFalse hc => exact hbefore.outside c hc
    · rw [List.foldl_append, getElem?_foldl_turn_cons (List.nodup_append.mp hnodup).2.1, hv]
      rfl

theorem sweeps_swept (hnodup : (members.map GraphCell.coordinate).Nodup)
    (hcomputes : ∀ m ∈ members, ∀ b, (compute engine m b).isSome = true) (b : Binding) :
    Sweeps engine members b (swept engine members b) where
  constants := (writes_fill (fun _ hc => hc) b _).constants
  start := getElem?_fill b _ _
  next _ := isSweep_foldl_turn hnodup hcomputes _

/-- The members have values of their own from the start. -/
theorem holds_swept (engine : Engine) (members : List GraphCell) (b : Binding) (k : Nat) :
    Holds members (swept engine members b k) (swept engine members b k).value := by
  intro m hm
  have hown : ((swept engine members b k).own[m.coordinate]?).isSome = true := by
    induction k with
    | zero => exact isSome_fill (List.mem_map_of_mem hm) b _
    | succ k ih => exact (writes_foldl_turn engine members _).keeps _ ih
  obtain ⟨v, hv⟩ := Option.isSome_iff_exists.mp hown
  rw [Binding.value, hv]
  rfl

/-! ### A sweep that may stop early -/

theorem distanceNumber?_eq (v : Value) :
    distanceNumber? v = if v.Counts then some v.measure else none := by
  cases v with
  | number x => rfl
  | date x => rfl
  | empty => rfl
  | text s => rfl
  | boolean x => rfl
  | error f => rfl

theorem getD_distanceNumber? (v : Value) : (distanceNumber? v).getD 0.0 = v.measure := by
  cases v with
  | empty => rfl
  | number x => rfl
  | date x => rfl
  | text s => rfl
  | boolean x => rfl
  | error f => rfl

section Turns

variable {cell : GraphCell} {rest : List GraphCell}
  (hnodup : ((cell :: rest).map GraphCell.coordinate).Nodup) (b : Binding)
include hnodup

theorem value_foldl_turn_cons : ((cell :: rest).foldl (turn engine) b).value cell.coordinate =
    (compute engine cell b).getD .empty := by
  rw [Binding.value, getElem?_foldl_turn_cons hnodup]
  rfl

theorem allCount_foldl_turn_cons :
    AllCount (cell :: rest) ((cell :: rest).foldl (turn engine) b) ↔
      ((compute engine cell b).getD .empty).Counts ∧
        AllCount rest (rest.foldl (turn engine) (turn engine b cell)) := by
  rw [AllCount, List.forall_mem_cons, value_foldl_turn_cons hnodup]
  rfl

/-- The turn of a cell is none of the changes of the others. -/
theorem changes_foldl_turn_cons :
    changes (cell :: rest) b ((cell :: rest).foldl (turn engine) b) =
      (((compute engine cell b).getD .empty).measure - (b.value cell.coordinate).measure).abs ::
        changes rest (turn engine b cell) (rest.foldl (turn engine) (turn engine b cell)) := by
  have hothers : changes rest b ((cell :: rest).foldl (turn engine) b) =
      changes rest (turn engine b cell) (rest.foldl (turn engine) (turn engine b cell)) := by
    refine List.map_congr_left fun m hm => ?_
    have hother : m.coordinate ∉ [cell.coordinate] := by
      intro heq
      refine (List.nodup_cons.mp hnodup).1 ?_
      rw [← List.mem_singleton.mp heq]
      exact List.mem_map_of_mem hm
    have hsame : (turn engine b cell).get? m.coordinate = b.get? m.coordinate :=
      (writes_set List.mem_cons_self b _).get? hother
    rw [value_eq b, value_eq (turn engine b cell), hsame]
    rfl
  rw [← hothers, ← value_foldl_turn_cons hnodup]
  rfl

end Turns

/-- **A sweep is all turns, unless a member is no number** at the end of them. -/
theorem sweep_eq (hnodup : (members.map GraphCell.coordinate).Nodup) (delta : Float)
    (b : Binding) :
    sweep engine members delta b =
      if AllCount members (members.foldl (turn engine) b) then
        some ((changes members b (members.foldl (turn engine) b)).foldl Binary64.greater delta,
          members.foldl (turn engine) b)
      else none := by
  induction members generalizing delta b with
  | nil => rfl
  | cons cell rest ih =>
    have hall : AllCount (cell :: rest) ((cell :: rest).foldl (turn engine) b) ↔ _ :=
      allCount_foldl_turn_cons hnodup b
    rw [sweep, distanceNumber?_eq, getD_distanceNumber?]
    by_cases hcounts : ((compute engine cell b).getD .empty).Counts
    · simp only [if_pos hcounts]
      rw [← turn, ih (List.nodup_cons.mp hnodup).2]
      by_cases hrest : AllCount rest (rest.foldl (turn engine) (turn engine b cell))
      · rw [if_pos hrest, if_pos (hall.mpr ⟨hcounts, hrest⟩), changes_foldl_turn_cons hnodup]
        rfl
      · rw [if_neg hrest, if_neg (fun h => hrest (hall.mp h).2)]
    · -- the sweep stops here, and the turns after it do not change this value
      simp only [if_neg hcounts]
      rw [if_neg (fun h => hcounts (hall.mp h).1)]

/-! ### The repetition -/

/-- **The repetition ends as the sequence of sweeps tells**: `done` sweeps passed, and each of them
asked for another. -/
theorem ending_settle (hnodup : (members.map GraphCell.coordinate).Nodup) (index : Nat)
    (limits : Iteration) (b : Binding) {done left : Nat}
    (hdone : done + left = limits.maxIterations)
    (hbefore : ∀ j < done, GoesOn members limits.threshold (swept engine members b) j) :
    Ending index members limits (swept engine members b)
      (settle engine index members limits.threshold done left (swept engine members b done)).1
      (settle engine index members limits.threshold done left (swept engine members b done)).2 := by
  -- on the sweeps left; the binding reached is always that of `done` full sweeps
  induction left generalizing done with
  | zero =>
    obtain rfl : done = limits.maxIterations := hdone
    exact .didNotConverge hbefore (holds_fill members _ _)
  | succ left ih =>
    have hwithin : done < limits.maxIterations := by omega
    rw [settle, sweep_eq hnodup]
    by_cases hall : AllCount members (swept engine members b (done + 1))
    · rw [← swept, if_pos hall]
      dsimp only
      by_cases hsmall : largestChange members (swept engine members b done)
          (swept engine members b (done + 1)) < limits.threshold
      · rw [← largestChange, if_pos hsmall]
        exact .converged hwithin hbefore hall hsmall (holds_swept engine members b _)
      · rw [← largestChange, if_neg hsmall]
        refine ih (by omega) fun j hj => ?_
        rcases Nat.lt_succ_iff_lt_or_eq.mp hj with hlt | rfl
        · exact hbefore j hlt
        · exact ⟨hall, hsmall⟩
    · rw [← swept, if_neg hall]
      exact .nonNumeric hwithin hbefore hall (holds_fill members _ _)

end ClusterRun

/-! ### The cycles of a built graph -/

namespace GraphBuilder

open ClusterRun

variable {b : GraphBuilder} {cells : List GraphCell} {index : Nat} {r : CircularRef}

/-- The members of a cycle stand by coordinate, and each computes a value. -/
theorem ordered_cycleCells (h : b.Indexed) (hr : b.build.cycles[index]? = some r) :
    ((b.build.cycleCells r).map GraphCell.coordinate).Pairwise (fun c d => compare c d = .lt) ∧
      ∀ engine, ∀ m ∈ b.build.cycleCells r, ∀ binding,
        (compute engine m binding).isSome = true := by
  constructor
  · obtain ⟨group, hgroup, rfl⟩ := (mem_cycles_build h).mp (List.mem_of_getElem? hr)
    obtain ⟨-, hlisted, hpairwise⟩ := listed_members h hgroup
    rw [Graph.cycleCells, List.map_map]
    rw [hlisted] at hpairwise
    exact hpairwise
  · intro engine m hm binding
    obtain ⟨n, hn, rfl⟩ := List.mem_map.mp hm
    obtain ⟨id, hid, hnode⟩ := List.mem_filterMap.mp hn
    have hmem : id ∈ b.build.members (.cycle index) := by
      rw [Graph.members, hr]
      exact hid
    have hexpr := isSome_expr_of_mem_cycle h hmem hnode
    rw [compute]
    split
    · rfl
    · rw [Option.isSome_map]
      exact hexpr

/-- **A cycle of a built graph is resolved as its limits say**, whatever was bound before: the step
of the schedule resolves it over the binding reached, and tells how it ended. -/
theorem resolved_step_cycle (h : cells.foldlM add empty = .ok b)
    (hr : b.build.cycles[index]? = some r) (engine : Engine) (s : ClusterRun.State) :
    ∃ outcome, (ClusterRun.step engine b.build s (.cycle index)).run.cycles =
        s.run.cycles ++ [outcome] ∧
      (outcome, (ClusterRun.step engine b.build s (.cycle index)).binding) =
        resolveCycle engine index (b.build.cycleCells r) r.iteration s.binding ∧
      Resolved engine b.build index r s.binding outcome
        (ClusterRun.step engine b.build s (.cycle index)).binding := by
  have hidx := (indexed_of_foldlM indexed_empty h).1
  obtain ⟨hordered, hcomputes⟩ := ordered_cycleCells hidx hr
  have hnodup : ((b.build.cycleCells r).map GraphCell.coordinate).Nodup := by
    refine hordered.imp fun hlt heq => ?_
    rw [heq, Std.ReflOrd.compare_self] at hlt
    cases hlt
  have hcells : (r.members.filterMap fun id => (b.build.node? id).map Node.cell) =
      b.build.cycleCells r := by
    rw [Graph.cycleCells, Graph.nodesOf, List.map_filterMap]
  have hwrites := (writes_resolveCycle engine index (b.build.cycleCells r) r.iteration
    s.binding).1
  rw [ClusterRun.step]
  simp only [hr, hcells]
  refine ⟨_, rfl, rfl, hordered, fun hnone => ?_, fun limits hlimits => ?_, hwrites.constants,
    hwrites.outside⟩
  · rw [hnone]
    exact ⟨rfl, holds_fill _ _ _⟩
  · rw [hlimits]
    refine ⟨_, sweeps_swept hnodup (hcomputes engine) s.binding, ?_⟩
    exact ending_settle hnodup index limits s.binding (Nat.zero_add _)
      fun j hj => absurd hj (Nat.not_lt_zero j)

/-- Two cells that refer to each other, and both may be repeated. -/
def countingCells : List GraphCell :=
  let place (column : Nat) : Coordinate := ⟨"S", column, 1⟩
  let refer (column : Nat) : Expr := .reference ⟨.cell (place column), none⟩
  [ ⟨place 2, .formula, some (.binary .add (refer 1) (.literal (.number 1.0))), false,
      some ⟨100, 0.001⟩⟩,
    ⟨place 1, .output, some (refer 2), false, some ⟨50, 0.1⟩⟩ ]

theorem resolved_countingCells : ∃ b k r limits, countingCells.foldlM add empty = .ok b ∧
    b.build.cycles[k]? = some r ∧ 0 ∈ r.members ∧ r.iteration = some limits ∧
    ∀ s : ClusterRun.State, ∃ outcome, Resolved Engine.plain b.build k r s.binding outcome
      (ClusterRun.step Engine.plain b.build s (.cycle k)).binding := by
  have hadd : countingCells.foldlM add empty = .ok (countingCells.foldl push empty) := rfl
  have hidx := (indexed_of_foldlM indexed_empty hadd).1
  have hforth : (countingCells.foldl push empty).build.Adj 0 1 :=
    ⟨⟨0, 1, .direct⟩, by decide +kernel, rfl, rfl⟩
  have hback : (countingCells.foldl push empty).build.Adj 1 0 :=
    ⟨⟨1, 0, .direct⟩, by decide +kernel, rfl, rfl⟩
  obtain ⟨k, group, hgroup, hmem⟩ := exists_cycleGroup hidx (.tail (.single hforth) hback)
  have hcycle := List.mem_of_getElem? hgroup
  have hr := getElem?_cycles_build hidx k
  rw [hgroup, Option.map_some] at hr
  obtain ⟨limits, hlimits⟩ := Option.isSome_iff_exists.mp
    ((listed_iterative_iff hidx hcycle).mpr fun n hn => by
      obtain ⟨id, -, hnode⟩ := List.mem_filterMap.mp hn
      have hall : ∀ n ∈ (countingCells.foldl push empty).build.nodes.toList,
          n.cell.iteration.isSome = true := by decide +kernel
      exact hall n (Array.mem_def.mp (Array.mem_of_getElem? hnode)))
  refine ⟨_, k, _, limits, hadd, hr, (members_circularRef_perm hidx hcycle).mem_iff.mpr hmem,
    hlimits, fun s => ?_⟩
  obtain ⟨outcome, -, -, hresolved⟩ := resolved_step_cycle hadd hr Engine.plain s
  exact ⟨outcome, hresolved⟩

end GraphBuilder

end Recalc
