/-
Recalc/Proofs/Workbook/Run.lean

What a step of a run writes.  A step changes the values of its own cells only, and what it
computes it also binds, so the binding of a run is its computed values over the overrides:

    s.binding.own[c]? = s.run.computed[c]?.or overrides[c]?      (State.Tracks).

Design.  `Binding.Writes cs b b'` says that only cells in `cs` changed and that no entry was
lost.  It composes, so sweeps, repetitions and whole cycles are one lemma each.
-/
import Recalc.Proofs.Eval.Source
import Recalc.Proofs.Graph.Schedule
import Recalc.Workbook.ClusterRun

namespace Recalc

/-! ### Bindings that differ in some cells -/

/-- Only the own values of some cells changed, and none was lost. -/
structure Binding.Writes (cs : List Coordinate) (b b' : Binding) : Prop where
  constants : b'.constants = b.constants
  outside : ∀ c, c ∉ cs → b'.own[c]? = b.own[c]?
  keeps : ∀ c : Coordinate, b.own[c]?.isSome = true → b'.own[c]?.isSome = true

namespace Binding

variable {cs ds : List Coordinate} {b b' b'' : Binding} {c : Coordinate} {v : Value}

namespace Writes

theorem refl (cs : List Coordinate) (b : Binding) : Writes cs b b :=
  ⟨rfl, fun _ _ => rfl, fun _ hc => hc⟩

theorem trans (h : Writes cs b b') (h' : Writes cs b' b'') : Writes cs b b'' where
  constants := h'.constants.trans h.constants
  outside c hc := (h'.outside c hc).trans (h.outside c hc)
  keeps c hc := h'.keeps c (h.keeps c hc)

theorem get? (h : Writes cs b b') (hc : c ∉ cs) : b'.get? c = b.get? c := by
  rw [Binding.get?, Binding.get?, h.outside c hc, h.constants]

end Writes

theorem isSome_set (b : Binding) (c : Coordinate) (v : Value) :
    ((b.set c v).own[c]?).isSome = true := by
  show ((b.own.insert c v)[c]?).isSome = true
  rw [Std.TreeMap.getElem?_insert_self]
  rfl

theorem writes_set (hc : c ∈ cs) (b : Binding) (v : Value) : Writes cs b (b.set c v) where
  constants := rfl
  outside d hd := by
    refine CellMap.getElem?_insert_of_ne ?_ v
    rintro rfl
    exact hd hc
  keeps d hd := by
    by_cases heq : c = d
    · exact heq ▸ isSome_set b c v
    · show ((b.own.insert c v)[d]?).isSome = true
      rwa [CellMap.getElem?_insert_of_ne heq]

theorem writes_fill (hsub : ∀ c ∈ ds, c ∈ cs) (b : Binding) (v : Value) :
    Writes cs b (b.fill ds v) := by
  induction ds generalizing b with
  | nil => exact .refl cs b
  | cons d ds ih =>
    have hfirst := writes_set (hsub d List.mem_cons_self) b v
    exact hfirst.trans (ih (fun c hc => hsub c (List.mem_cons_of_mem _ hc)) (b.set d v))

/-- Every cell filled has a value of its own. -/
theorem isSome_fill (hc : c ∈ ds) (b : Binding) (v : Value) :
    ((b.fill ds v).own[c]?).isSome = true := by
  induction ds generalizing b with
  | nil => exact absurd hc List.not_mem_nil
  | cons d ds ih =>
    by_cases hrest : c ∈ ds
    · exact ih hrest (b.set d v)
    · obtain rfl : c = d := (List.mem_cons.mp hc).resolve_right hrest
      have hrest : Writes ds (b.set c v) ((b.set c v).fill ds v) :=
        writes_fill (fun _ hd => hd) (b.set c v) v
      exact hrest.keeps c (isSome_set b c v)

end Binding

/-! ### The cells of a step -/

/-- The coordinates of the cells of a step. -/
def Graph.stepCoordinates (g : Graph) (step : Step) : List Coordinate :=
  (g.nodesOf (g.members step)).map Node.coordinate

theorem Graph.mem_stepCoordinates {g : Graph} {step : Step} {c : Coordinate} :
    c ∈ g.stepCoordinates step ↔
      ∃ id ∈ g.members step, ∃ n, g.node? id = some n ∧ n.coordinate = c := by
  simp only [stepCoordinates, nodesOf, List.mem_map, List.mem_filterMap]
  constructor
  · rintro ⟨n, ⟨id, hid, hn⟩, hc⟩
    exact ⟨id, hid, n, hn, hc⟩
  · rintro ⟨id, hid, n, hn, hc⟩
    exact ⟨n, ⟨id, hid, hn⟩, hc⟩

/-- The coordinates that a cycle lists are those of its members. -/
def Graph.CyclesListed (g : Graph) : Prop :=
  ∀ r ∈ g.cycles, r.cycle = (g.nodesOf r.members).map Node.coordinate

namespace ClusterRun

open Binding

variable {engine : Engine} {g : Graph} {members : List GraphCell} {cs : List Coordinate}
  {b b' : Binding} {delta delta' : Float}

/-! ### Cycles write their members -/

theorem writes_sweep (hcs : ∀ m ∈ members, m.coordinate ∈ cs)
    (h : sweep engine members delta b = some (delta', b')) : Writes cs b b' := by
  induction members generalizing delta b with
  | nil =>
    obtain ⟨-, rfl⟩ := Prod.mk.inj (Option.some.inj h)
    exact .refl cs b
  | cons cell rest ih =>
    rw [sweep] at h
    split at h
    · have hfirst := writes_set (hcs cell List.mem_cons_self) b
        ((compute engine cell b).getD .empty)
      exact hfirst.trans (ih (fun m hm => hcs m (List.mem_cons_of_mem _ hm)) h)
    · cases h

theorem writes_settle (engine : Engine) (members : List GraphCell) (index : Nat)
    (threshold : Float) (done left : Nat) (b : Binding) :
    Writes (members.map GraphCell.coordinate) b
      (settle engine index members threshold done left b).2 := by
  induction left generalizing done b with
  | zero => exact writes_fill (fun _ hc => hc) b _
  | succ left ih =>
    rw [settle]
    split
    · -- a sweep that gets no number ends the repetition with a fault
      exact writes_fill (fun _ hc => hc) b _
    · rename_i delta swept hsweep
      have hswept : Writes (members.map GraphCell.coordinate) b swept :=
        writes_sweep (fun m hm => List.mem_map_of_mem hm) hsweep
      split
      · exact hswept
      · exact hswept.trans (ih (done + 1) swept)

/-- **A cycle writes its members**, each of them. -/
theorem writes_resolveCycle (engine : Engine) (index : Nat) (members : List GraphCell)
    (iteration : Option Iteration) (b : Binding) :
    Writes (members.map GraphCell.coordinate) b
        (resolveCycle engine index members iteration b).2 ∧
      ∀ c ∈ members.map GraphCell.coordinate,
        ((resolveCycle engine index members iteration b).2.own[c]?).isSome = true := by
  cases iteration with
  | none => exact ⟨writes_fill (fun _ hc => hc) b _, fun c hc => isSome_fill hc b _⟩
  | some limits =>
    -- all members start with a value, and no later write takes it away
    have hstart : Writes (members.map GraphCell.coordinate) b
        (b.fill (members.map GraphCell.coordinate) (.number 0.0)) :=
      writes_fill (fun _ hc => hc) b _
    have hsettle := writes_settle engine members index limits.threshold 0 limits.maxIterations
      (b.fill (members.map GraphCell.coordinate) (.number 0.0))
    exact ⟨hstart.trans hsettle, fun c hc => hsettle.keeps c (isSome_fill hc b _)⟩

/-! ### Steps write their cells -/

variable {s : State} {id index : Nat} {n : Node} {r : CircularRef} {st : Step} {c : Coordinate}
  {v : Value}

theorem step_node_none (hn : g.node? id = some n) (hv : compute engine n.cell s.binding = none) :
    ClusterRun.step engine g s (.node id) = s := by
  rw [ClusterRun.step]
  simp only [hn, hv]

theorem step_node_some (hn : g.node? id = some n)
    (hv : compute engine n.cell s.binding = some v) :
    ClusterRun.step engine g s (.node id) =
      ⟨s.binding.set n.coordinate v,
        { s.run with computed := s.run.computed.insert n.coordinate v }⟩ := by
  rw [ClusterRun.step]
  simp only [hn, hv]

theorem map_coordinate_members (g : Graph) (ids : List Nat) :
    (ids.filterMap fun id => (g.node? id).map Node.cell).map GraphCell.coordinate =
      (g.nodesOf ids).map Node.coordinate := by
  induction ids with
  | nil => rfl
  | cons id ids ih =>
    rw [Graph.nodesOf, List.filterMap_cons, List.filterMap_cons]
    cases hn : g.node? id with
    | none => exact ih
    | some n => exact congrArg (n.coordinate :: ·) ih

theorem stepCoordinates_cycle (hr : g.cycles[index]? = some r) :
    g.stepCoordinates (.cycle index) = (g.nodesOf r.members).map Node.coordinate := by
  rw [Graph.stepCoordinates, Graph.members, hr]
  rfl

/-- What a cycle step binds: every member gets a value, and nothing else changes. -/
theorem step_cycle (engine : Engine) (s : State) (hr : g.cycles[index]? = some r) :
    Writes (g.stepCoordinates (.cycle index)) s.binding
        (ClusterRun.step engine g s (.cycle index)).binding ∧
      (∀ c ∈ g.stepCoordinates (.cycle index),
        ((ClusterRun.step engine g s (.cycle index)).binding.own[c]?).isSome = true) ∧
      (ClusterRun.step engine g s (.cycle index)).run.computed = r.cycle.foldl (fun m c =>
        m.insert c ((ClusterRun.step engine g s (.cycle index)).binding.value c))
        s.run.computed := by
  have hwrites := writes_resolveCycle engine index
    (r.members.filterMap fun id => (g.node? id).map Node.cell) r.iteration s.binding
  rw [map_coordinate_members, ← stepCoordinates_cycle hr] at hwrites
  rw [ClusterRun.step]
  simp only [hr]
  exact ⟨hwrites.1, hwrites.2, trivial⟩

/-- **A step binds values of its own cells only.** -/
theorem writes_step (engine : Engine) (g : Graph) (s : State) (st : Step) :
    Writes (g.stepCoordinates st) s.binding (ClusterRun.step engine g s st).binding := by
  cases st with
  | node id =>
    cases hn : g.node? id with
    | none =>
      rw [ClusterRun.step]
      simp only [hn]
      exact .refl _ _
    | some n =>
      cases hv : compute engine n.cell s.binding with
      | none =>
        rw [step_node_none hn hv]
        exact .refl _ _
      | some v =>
        rw [step_node_some hn hv]
        exact writes_set (Graph.mem_stepCoordinates.mpr ⟨id, List.mem_cons_self, n, hn, rfl⟩) _ v
  | cycle index =>
    cases hr : g.cycles[index]? with
    | none =>
      rw [ClusterRun.step]
      simp only [hr]
      exact .refl _ _
    | some r => exact (step_cycle engine s hr).1

theorem getElem?_foldl_insert_value (f : Coordinate → Value) (cs : List Coordinate) (m : CellMap)
    (c : Coordinate) : (cs.foldl (fun m c => m.insert c (f c)) m)[c]? =
      if c ∈ cs then some (f c) else m[c]? := by
  have hentry (v : Value) : (c, v) ∈ cs.map (fun d => (d, f d)) ↔
      (if c ∈ cs then some (f c) else none) = some v := by
    split
    case isTrue hc =>
      rw [Option.some.injEq, List.mem_map]
      constructor
      · rintro ⟨d, -, heq⟩
        obtain ⟨rfl, rfl⟩ := Prod.mk.inj heq
        rfl
      · rintro rfl
        exact ⟨c, hc, rfl⟩
    case isFalse hc =>
      refine iff_of_false (fun hmem => ?_) (by simp)
      obtain ⟨d, hd, heq⟩ := List.mem_map.mp hmem
      exact hc ((Prod.mk.inj heq).1 ▸ hd)
  have hfold := CellMap.getElem?_foldl_insert hentry m
  rw [List.foldl_map] at hfold
  refine hfold.trans ?_
  split
  · rfl
  · rfl

/-- The binding is what was computed over the overrides. -/
def State.Tracks (s : State) (overrides : CellMap) : Prop :=
  ∀ c : Coordinate, s.binding.own[c]? = s.run.computed[c]?.or overrides[c]?

/-- The values computed by a cycle are those bound by it. -/
theorem computed_step_cycle (engine : Engine) (s : State) (hg : g.CyclesListed)
    (hr : g.cycles[index]? = some r) (c : Coordinate) :
    (ClusterRun.step engine g s (.cycle index)).run.computed[c]? =
      if c ∈ g.stepCoordinates (.cycle index) then
        (ClusterRun.step engine g s (.cycle index)).binding.own[c]?
      else s.run.computed[c]? := by
  obtain ⟨-, hbound, hcomputed⟩ := step_cycle engine s hr
  rw [hcomputed, getElem?_foldl_insert_value, hg r (List.mem_of_getElem? hr),
    ← stepCoordinates_cycle hr]
  split
  case isFalse => rfl
  case isTrue hc =>
    obtain ⟨w, hw⟩ := Option.isSome_iff_exists.mp (hbound c hc)
    rw [Binding.value, hw]
    rfl

/-- A step computes values of its own cells only. -/
theorem computed_step_of_not_mem (engine : Engine) (s : State) (hg : g.CyclesListed)
    (hc : c ∉ g.stepCoordinates st) :
    (ClusterRun.step engine g s st).run.computed[c]? = s.run.computed[c]? := by
  cases st with
  | node id =>
    cases hn : g.node? id with
    | none =>
      rw [ClusterRun.step]
      simp only [hn]
    | some n =>
      cases hv : compute engine n.cell s.binding with
      | none => rw [step_node_none hn hv]
      | some v =>
        rw [step_node_some hn hv]
        refine CellMap.getElem?_insert_of_ne (fun heq => hc ?_) v
        exact Graph.mem_stepCoordinates.mpr ⟨id, List.mem_cons_self, n, hn, heq⟩
  | cycle index =>
    cases hr : g.cycles[index]? with
    | none =>
      rw [ClusterRun.step]
      simp only [hr]
    | some r => rw [computed_step_cycle engine s hg hr, if_neg hc]

/-- **Steps keep binding and computed values together.** -/
theorem State.Tracks.step {overrides : CellMap} (h : s.Tracks overrides) (engine : Engine)
    (hg : g.CyclesListed) (st : Step) :
    (ClusterRun.step engine g s st).Tracks overrides := by
  intro c
  by_cases hc : c ∈ g.stepCoordinates st
  case neg =>
    -- neither side changes elsewhere
    rw [(writes_step engine g s st).outside c hc, computed_step_of_not_mem engine s hg hc]
    exact h c
  case pos =>
    cases st with
    | node id =>
      obtain ⟨id', hid, n, hn, rfl⟩ := Graph.mem_stepCoordinates.mp hc
      obtain rfl := List.mem_singleton.mp hid
      cases hv : compute engine n.cell s.binding with
      | none =>
        rw [step_node_none hn hv]
        exact h _
      | some v =>
        rw [step_node_some hn hv]
        show (s.binding.own.insert n.coordinate v)[n.coordinate]? =
          ((s.run.computed.insert n.coordinate v)[n.coordinate]?).or overrides[n.coordinate]?
        rw [Std.TreeMap.getElem?_insert_self, Std.TreeMap.getElem?_insert_self, Option.some_or]
    | cycle index =>
      cases hr : g.cycles[index]? with
      | none =>
        rw [Graph.stepCoordinates, Graph.members, hr] at hc
        exact absurd hc List.not_mem_nil
      | some r =>
        obtain ⟨w, hw⟩ := Option.isSome_iff_exists.mp ((step_cycle engine s hr).2.1 c hc)
        rw [computed_step_cycle engine s hg hr, if_pos hc, hw, Option.some_or]

end ClusterRun

end Recalc
