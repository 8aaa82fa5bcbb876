/-
Recalc/Proofs/Workbook/Independence.lean

Cells that do not matter to each other.  There are two such regions of a built graph.

* The cells of a cluster.  Clusters that are run one by one give what one run of the whole
  schedule gives, in one binding for all cells (`independent_build`).

* The cells that do not depend on a given input.  Whatever that input is set to, a run
  gives them the same values, and ends the cycles among them alike (`unaffected_run`).
-/
import Recalc.Proofs.Workbook.Agreement

open Relation

namespace Recalc

/-! ### What is stated -/

/-- Clusters run alone give what one run of the whole schedule gives. -/
structure Graph.Independent (g : Graph) (engine : Engine) (constants overrides : CellMap) :
    Prop where
  /-- Every cell is in one cluster. -/
  owned : ∀ id < g.nodes.size, ∃! c, c ∈ g.clusters ∧ c.contains id = true
  /-- A cell with a formula, readable or not, has one value in both runs. -/
  value : ∀ c ∈ g.clusters, ∀ id n, c.contains id = true → g.node? id = some n →
    n.hasLogic = true → ∃ v,
      (c.run engine g constants overrides).computed[n.coordinate]? = some v ∧
      (ClusterRun.ofSchedule engine g constants overrides g.schedule).computed[n.coordinate]? =
        some v
  /-- The whole run tells one outcome for every cycle. -/
  listed : (ClusterRun.ofSchedule engine g constants overrides g.schedule).cycles.map
    CycleOutcome.cycle = List.range g.cycles.length
  /-- A cluster tells those of its own cycles. -/
  outcomes : ∀ c ∈ g.clusters, (c.run engine g constants overrides).cycles =
    (ClusterRun.ofSchedule engine g constants overrides g.schedule).cycles.filter
      fun o => decide (.cycle o.cycle ∈ c.schedule)
  /-- Every cycle is in a cluster. -/
  covered : ∀ k < g.cycles.length, ∃ c ∈ g.clusters, .cycle k ∈ c.schedule

/-- The runs give a cell the same value. -/
def ClusterRun.SameValue (run run' : ClusterRun) (x : Coordinate) : Prop :=
  ∃ v, run.computed[x]? = some v ∧ run'.computed[x]? = some v

/-- The runs tell one outcome of a cycle, the same one. -/
def ClusterRun.SameOutcome (run run' : ClusterRun) (k : Nat) : Prop :=
  ∃ o, o.cycle = k ∧ run.cycles.filter (·.cycle == k) = [o] ∧
    run'.cycles.filter (·.cycle == k) = [o]

namespace GraphBuilder

variable {b : GraphBuilder} {cells : List GraphCell} {c : Cluster} {step : Step} {u v : Nat}
  {engine : Engine} {constants overrides : CellMap}

/-! ### Clusters are regions -/

/-- Cells with all that they depend on are a region: the members of a step depend on each other. -/
theorem region_of_precedent (h : b.Indexed) {K : Nat → Bool}
    (hK : ∀ {x y}, b.build.Adj x y → K y = true → K x = true) :
    b.build.Region K b.build.schedule where
  precedent := hK
  undivided st hst x hx y hy hin := by
    have hback {x y : Nat} (hpath : ReflTransGen b.build.Adj y x) (hx : K x = true) :
        K y = true := by
      induction hpath with
      | refl => exact hx
      | tail _ hadj ih => exact ih (hK hadj hx)
    exact hback ((mem_members_iff_mutual h hst hx).mp hy).2 hin

theorem region_cluster (h : b.Indexed) (hc : c ∈ b.build.clusters) :
    b.build.Region c.contains b.build.schedule :=
  region_of_precedent h fun hadj hv => (contains_of_adj h hc hadj).mpr hv

/-- A cluster keeps a step of the schedule exactly if the step is one of its own. -/
theorem keeps_contains_iff (h : b.Indexed) (hc : c ∈ b.build.clusters)
    (hstep : step ∈ b.build.schedule) :
    b.build.keeps c.contains step = true ↔ step ∈ c.schedule := by
  constructor
  · intro hkeeps
    obtain ⟨x, hx⟩ := List.exists_mem_of_ne_nil _ (members_ne_nil h hstep)
    have hin : c.contains x = true := List.all_eq_true.mp hkeeps x hx
    exact (mem_schedule_iff h hc hx).mpr ⟨hstep, (contains_iff_clusterOf? hc).mp hin⟩
  · intro hown
    refine List.all_eq_true.mpr fun x hx => ?_
    exact (contains_iff_exists_step h hc).mpr ⟨step, hown, hx⟩

theorem schedule_eq_filter_keeps (h : b.Indexed) (hc : c ∈ b.build.clusters) :
    c.schedule = b.build.schedule.filter (b.build.keeps c.contains) := by
  have hmem : ∀ st ∈ b.build.schedule, (st ∈ c.schedule ↔ b.build.keeps c.contains st = true) :=
    fun st hst => (keeps_contains_iff h hc hst).symm
  rw [schedule_eq_filter hc] at hmem ⊢
  refine List.filter_congr fun st hst => ?_
  have hiff := hmem st hst
  rw [List.mem_filter] at hiff
  rw [Bool.eq_iff_iff, ← hiff]
  exact ⟨fun howner => ⟨hst, howner⟩, fun hboth => hboth.2⟩

/-! ### Runs of built graphs -/

theorem mem_filterMap_cycle? {steps : List Step} {k : Nat} :
    k ∈ steps.filterMap Step.cycle? ↔ .cycle k ∈ steps := by
  rw [List.mem_filterMap]
  constructor
  · rintro ⟨st, hst, hcycle⟩
    cases st with
    | node id => cases hcycle
    | cycle index =>
      obtain rfl := Option.some.inj hcycle
      exact hst
  · intro hstep
    exact ⟨.cycle k, hstep, rfl⟩

/-- The cycles of a graph are those of its schedule. -/
theorem cycle_mem_schedule_iff (h : b.Indexed) {k : Nat} :
    .cycle k ∈ b.build.schedule ↔ k < b.build.cycles.length := by
  rw [← mem_filterMap_cycle?, cycleIds_build h, List.mem_range]

/-- A part of the schedule computes all its cells with a formula. -/
theorem isSome_computed_ofSchedule (h : cells.foldlM add empty = .ok b)
    (hcells : ∀ cell ∈ cells, cell.Plain) (hfunctions : engine.functions = .builtin)
    (constants overrides : CellMap) {steps : List Step} (hsub : steps.Sublist b.build.schedule)
    (hstep : step ∈ steps) {id : Nat} {n : Node} (hid : id ∈ b.build.members step)
    (hn : b.build.node? id = some n) (hlogic : n.hasLogic = true) :
    ((ClusterRun.ofSchedule engine b.build constants overrides steps).computed[n.coordinate]?).isSome
      = true := by
  have hidx := (indexed_of_foldlM indexed_empty h).1
  have hl : b.build.Sequence ([] ++ steps) := (sequence_build hidx).sublist hsub
  have hend := (ClusterRun.progress_start engine b.build constants overrides).run hfunctions
    (faithful_build h hcells) hl
  exact (hend.computed_iff n.coordinate).mpr ⟨step, hstep, id, hid, n, hn, hlogic, rfl⟩

/-- A part of the schedule tells one outcome for each of its cycles. -/
theorem map_cycle_ofSchedule (h : b.Indexed) (engine : Engine) (constants overrides : CellMap)
    {steps : List Step} (hsub : steps.Sublist b.build.schedule) :
    (ClusterRun.ofSchedule engine b.build constants overrides steps).cycles.map
      CycleOutcome.cycle = steps.filterMap Step.cycle? := by
  have hcycles : ∀ index, .cycle index ∈ steps → index < b.build.cycles.length :=
    fun index hindex => (cycle_mem_schedule_iff h).mp (hsub.subset hindex)
  exact ClusterRun.map_cycle_run engine ⟨⟨constants, overrides⟩, ⟨∅, []⟩⟩ hcycles

/-! ### Clusters are independent -/

/-- A cluster's run agrees with the whole run on the cluster. -/
theorem agree_cluster (h : cells.foldlM add empty = .ok b) (hcells : ∀ cell ∈ cells, cell.Plain)
    (hfunctions : engine.functions = .builtin) (constants overrides : CellMap)
    (hc : c ∈ b.build.clusters) :
    ClusterRun.State.Agree b.build c.contains
      (b.build.schedule.foldl (ClusterRun.step engine b.build) ⟨⟨constants, overrides⟩, ⟨∅, []⟩⟩)
      (c.schedule.foldl (ClusterRun.step engine b.build) ⟨⟨constants, overrides⟩, ⟨∅, []⟩⟩) := by
  have hidx := (indexed_of_foldlM indexed_empty h).1
  rw [schedule_eq_filter_keeps hidx hc]
  exact (ClusterRun.State.Agree.refl _ _ _).run hfunctions (faithful_build h hcells)
    (region_cluster hidx hc)

/-- The outcomes of a cluster are those of the whole run that belong to it. -/
theorem cycles_run_cluster (h : cells.foldlM add empty = .ok b)
    (hcells : ∀ cell ∈ cells, cell.Plain) (hfunctions : engine.functions = .builtin)
    (constants overrides : CellMap) (hc : c ∈ b.build.clusters) :
    (c.run engine b.build constants overrides).cycles =
      (ClusterRun.ofSchedule engine b.build constants overrides b.build.schedule).cycles.filter
        fun o => decide (.cycle o.cycle ∈ c.schedule) := by
  have hidx := (indexed_of_foldlM indexed_empty h).1
  -- an outcome that a part of the schedule tells is that of one of its steps
  have hstep {steps : List Step} (hsub : steps.Sublist b.build.schedule) {o : CycleOutcome}
      (ho : o ∈ (ClusterRun.ofSchedule engine b.build constants overrides steps).cycles) :
      .cycle o.cycle ∈ steps := by
    rw [← mem_filterMap_cycle?, ← map_cycle_ofSchedule hidx engine constants overrides hsub]
    exact List.mem_map_of_mem ho
  have hagree := (agree_cluster h hcells hfunctions constants overrides hc).cycles
  have hwhole : (ClusterRun.ofSchedule engine b.build constants overrides
      b.build.schedule).cycles.filter (fun o => decide (.cycle o.cycle ∈ c.schedule)) =
      (ClusterRun.ofSchedule engine b.build constants overrides
        b.build.schedule).cycles.filter (fun o => b.build.keeps c.contains (.cycle o.cycle)) := by
    refine List.filter_congr fun o ho => ?_
    rw [Bool.eq_iff_iff, decide_eq_true_eq, keeps_contains_iff hidx hc (hstep (.refl _) ho)]
  have hown : (c.run engine b.build constants overrides).cycles.filter
      (fun o => b.build.keeps c.contains (.cycle o.cycle)) =
      (c.run engine b.build constants overrides).cycles := by
    refine List.filter_eq_self.mpr fun o ho => ?_
    have hin := hstep (schedule_sublist hc) ho
    exact (keeps_contains_iff hidx hc ((schedule_sublist hc).subset hin)).mpr hin
  rw [hwhole, ← hown, Cluster.run, ClusterRun.ofSchedule, ClusterRun.ofSchedule]
  exact hagree.symm

/-- **Clusters are independent**: run one by one they give every formula the value, and every cycle
the outcome, that one run of the whole schedule gives, whatever the constants and the overrides
are. -/
theorem independent_build (h : cells.foldlM add empty = .ok b)
    (hcells : ∀ cell ∈ cells, cell.Plain) (hfunctions : engine.functions = .builtin)
    (constants overrides : CellMap) :
    b.build.Independent engine constants overrides := by
  have hidx := (indexed_of_foldlM indexed_empty h).1
  refine ⟨fun id hid => existsUnique_cluster hidx hid, fun c hc id n hid hn hlogic => ?_,
    ?_, fun c hc => cycles_run_cluster h hcells hfunctions constants overrides hc, fun k hk => ?_⟩
  · obtain ⟨step, hstep, hmem⟩ := (contains_iff_exists_step hidx hc).mp hid
    obtain ⟨v, hv⟩ := Option.isSome_iff_exists.mp (isSome_computed_ofSchedule h hcells hfunctions
      constants overrides (schedule_sublist hc) hstep hmem hn hlogic)
    have hsees := (faithful_build h hcells).sees hn hid
    refine ⟨v, hv, ?_⟩
    rw [← hv, ClusterRun.ofSchedule, ClusterRun.ofSchedule]
    exact (agree_cluster h hcells hfunctions constants overrides hc).computed _ hsees
  · rw [map_cycle_ofSchedule hidx engine constants overrides (.refl _), cycleIds_build hidx]
  · -- a cycle has a member, and the step of the member is in the member's cluster
    have hstep := (cycle_mem_schedule_iff hidx).mpr hk
    obtain ⟨x, hx⟩ := List.exists_mem_of_ne_nil _ (members_ne_nil hidx hstep)
    obtain ⟨c, ⟨hc, hcontains⟩, -⟩ :=
      existsUnique_cluster hidx ((members_build hidx hstep).2 x hx)
    exact ⟨c, hc, (mem_schedule_iff hidx hc hx).mpr
      ⟨hstep, (contains_iff_clusterOf? hc).mp hcontains⟩⟩

theorem independent_loopCells : ∃ b, loopCells.foldlM add empty = .ok b ∧
    (∀ cell ∈ loopCells, cell.Plain) ∧ Engine.plain.functions = .builtin ∧
    b.build.Independent Engine.plain Engine.testedCells ∅ := by
  have hadd : loopCells.foldlM add empty = .ok (loopCells.foldl push empty) := rfl
  have hfunctions : Engine.plain.functions = .builtin := rfl
  exact ⟨_, hadd, plain_loopCells, hfunctions,
    independent_build hadd plain_loopCells hfunctions _ _⟩

/-! ### Cells that do not depend on an input -/

/-- The cell is neither a given one nor depends on it. -/
def apart (g : Graph) (u v : Nat) : Bool := v != u && !(g.forwardReachable [u]).contains v

theorem apart_iff (h : b.Indexed) :
    apart b.build u v = true ↔ v ≠ u ∧ ¬ TransGen b.build.Adj u v := by
  have hreach : v ∈ b.build.forwardReachable [u] ↔ TransGen b.build.Adj u v := by
    rw [mem_forwardReachable h]
    simp
  rw [← hreach]
  simp [apart]

/-- What does not depend on a cell is a region. -/
theorem region_apart (h : b.Indexed) (u : Nat) :
    b.build.Region (apart b.build u) b.build.schedule := by
  refine region_of_precedent h fun {x y} hadj hy => ?_
  rw [apart_iff h] at hy ⊢
  refine ⟨?_, fun hpath => hy.2 (hpath.tail hadj)⟩
  rintro rfl
  exact hy.2 (.single hadj)

/-- Runs that differ in the value of an input agree on what does not depend on it. -/
theorem agree_apart (h : cells.foldlM add empty = .ok b) (hcells : ∀ cell ∈ cells, cell.Plain)
    (hfunctions : engine.functions = .builtin) (constants : CellMap) {n : Node}
    (hn : b.build.node? u = some n) {overrides' : CellMap}
    (hdiffer : ∀ x, x ≠ n.coordinate → overrides[x]? = overrides'[x]?) {steps : List Step}
    (hsub : steps.Sublist b.build.schedule) :
    ClusterRun.State.Agree b.build (apart b.build u)
      (steps.foldl (ClusterRun.step engine b.build) ⟨⟨constants, overrides⟩, ⟨∅, []⟩⟩)
      (steps.foldl (ClusterRun.step engine b.build) ⟨⟨constants, overrides'⟩, ⟨∅, []⟩⟩) := by
  have hidx := (indexed_of_foldlM indexed_empty h).1
  have hg := faithful_build h hcells
  have hregion : b.build.Region (apart b.build u) steps := (region_apart hidx u).sublist hsub
  have hstart : ClusterRun.State.Agree b.build (apart b.build u)
      ⟨⟨constants, overrides⟩, ⟨∅, []⟩⟩ ⟨⟨constants, overrides'⟩, ⟨∅, []⟩⟩ := by
    refine ⟨fun x hx => ?_, fun _ _ => rfl, rfl⟩
    have hne : x ≠ n.coordinate := by
      rintro rfl
      have hself := (apart_iff hidx).mp (hx u n hn rfl)
      exact hself.1 rfl
    show overrides[x]?.or constants[x]? = overrides'[x]?.or constants[x]?
    rw [hdiffer x hne]
  -- both agree with the run of the steps that do not depend on the input
  have hself := (ClusterRun.State.Agree.refl b.build (apart b.build u)
    ⟨⟨constants, overrides'⟩, ⟨∅, []⟩⟩).run hfunctions hg hregion
  exact (hstart.run hfunctions hg hregion).trans hself.symm

theorem filter_cycle_eq_singleton {outcomes : List CycleOutcome} {k : Nat}
    (hnodup : (outcomes.map CycleOutcome.cycle).Nodup)
    (hk : k ∈ outcomes.map CycleOutcome.cycle) :
    ∃ o, o.cycle = k ∧ outcomes.filter (·.cycle == k) = [o] := by
  induction outcomes with
  | nil => cases hk
  | cons o rest ih =>
    rw [List.map_cons, List.nodup_cons] at hnodup
    by_cases hcycle : o.cycle = k
    · refine ⟨o, hcycle, ?_⟩
      rw [List.filter_cons_of_pos (by simpa using hcycle), List.filter_eq_nil_iff.mpr]
      intro o' ho'
      rw [beq_iff_eq]
      intro heq
      exact hnodup.1 (hcycle.trans heq.symm ▸ List.mem_map_of_mem ho')
    · have hrest : k ∈ rest.map CycleOutcome.cycle := by
        rcases List.mem_cons.mp hk with heq | hrest
        · exact absurd heq.symm hcycle
        · exact hrest
      rw [List.filter_cons_of_neg (by simpa using hcycle)]
      exact ih hnodup.2 hrest

theorem existsUnique_outcome (h : b.Indexed) (engine : Engine) (constants overrides : CellMap)
    {steps : List Step} (hsub : steps.Sublist b.build.schedule) {k : Nat}
    (hk : .cycle k ∈ steps) :
    ∃ o, o.cycle = k ∧ (ClusterRun.ofSchedule engine b.build constants overrides steps).cycles.filter
      (·.cycle == k) = [o] := by
  have hlist := map_cycle_ofSchedule h engine constants overrides hsub
  have hnodup : (b.build.schedule.filterMap Step.cycle?).Nodup := by
    rw [cycleIds_build h]
    exact List.nodup_range
  apply filter_cycle_eq_singleton
  · rw [hlist]
    exact hnodup.sublist (hsub.filterMap _)
  · rw [hlist]
    exact mem_filterMap_cycle?.mpr hk

/-- The outcomes of one cycle are among those of the cycles that a region keeps. -/
theorem filter_cycle_congr {g : Graph} {K : Nat → Bool} {k : Nat}
    {outcomes outcomes' : List CycleOutcome} (hkeeps : g.keeps K (.cycle k) = true)
    (heq : outcomes.filter (fun o => g.keeps K (.cycle o.cycle)) =
      outcomes'.filter fun o => g.keeps K (.cycle o.cycle)) :
    outcomes.filter (·.cycle == k) = outcomes'.filter (·.cycle == k) := by
  have hfilter (l : List CycleOutcome) : l.filter (·.cycle == k) =
      (l.filter fun o => g.keeps K (.cycle o.cycle)).filter (·.cycle == k) := by
    rw [List.filter_filter]
    refine List.filter_congr fun o _ => ?_
    by_cases hcycle : o.cycle = k
    · simp [hcycle, hkeeps]
    · simp [hcycle]
  rw [hfilter outcomes, hfilter outcomes', heq]

/-- **Impact analysis is sound**: setting an input to another value changes no value of a formula
and no outcome of a cycle that is not told to depend on it. -/
theorem unaffected_run (h : cells.foldlM add empty = .ok b) (hcells : ∀ cell ∈ cells, cell.Plain)
    (hfunctions : engine.functions = .builtin) (constants : CellMap)
    (hc : c ∈ b.build.clusters) {n : Node} (hn : b.build.node? u = some n)
    (hinput : n.hasLogic = false) {overrides' : CellMap}
    (hdiffer : ∀ x, x ≠ n.coordinate → overrides[x]? = overrides'[x]?) :
    (∀ v m, c.contains v = true → b.build.node? v = some m → m.hasLogic = true →
        v ∉ b.build.forwardReachable [u] →
        (c.run engine b.build constants overrides).SameValue
          (c.run engine b.build constants overrides') m.coordinate) ∧
      ∀ k, .cycle k ∈ c.schedule →
        (∀ v ∈ b.build.members (.cycle k), v ∉ b.build.forwardReachable [u]) →
        (c.run engine b.build constants overrides).SameOutcome
          (c.run engine b.build constants overrides') k := by
  have hidx := (indexed_of_foldlM indexed_empty h).1
  have hg := faithful_build h hcells
  have hsub := schedule_sublist hc
  have hagree := agree_apart h hcells hfunctions constants hn hdiffer hsub
  -- a cell with a formula is not the input
  have hapart {v : Nat} {m : Node} (hm : b.build.node? v = some m) (hlogic : m.hasLogic = true)
      (hv : v ∉ b.build.forwardReachable [u]) : apart b.build u v = true := by
    have hne : v ≠ u := by
      rintro rfl
      rw [Option.some.inj (hm.symm.trans hn), hinput] at hlogic
      cases hlogic
    simp [apart, hne, hv]
  constructor
  · intro v m hv hm hlogic hout
    obtain ⟨step, hstep, hmem⟩ := (contains_iff_exists_step hidx hc).mp hv
    obtain ⟨w, hw⟩ := Option.isSome_iff_exists.mp (isSome_computed_ofSchedule h hcells hfunctions
      constants overrides hsub hstep hmem hm hlogic)
    refine ⟨w, hw, ?_⟩
    rw [← hw]
    exact (hagree.computed _ (hg.sees hm (hapart hm hlogic hout))).symm
  · intro k hk hout
    have hkeeps : b.build.keeps (apart b.build u) (.cycle k) = true := by
      refine List.all_eq_true.mpr fun v hv => ?_
      have hlt := (members_build hidx (hsub.subset hk)).2 v hv
      obtain ⟨m, hm⟩ : ∃ m, b.build.node? v = some m := ⟨_, Array.getElem?_eq_getElem hlt⟩
      exact hapart hm (Bool.or_eq_true_iff.mpr (.inl (hg.cyclic hv hm))) (hout v hv)
    obtain ⟨o, ho, hsingle⟩ := existsUnique_outcome hidx engine constants overrides hsub hk
    refine ⟨o, ho, hsingle, ?_⟩
    rw [← hsingle]
    exact (filter_cycle_congr hkeeps hagree.cycles).symm

/-- Two inputs, a loop that reads the first, a copy of the second and their sum. -/
def sideCells : List GraphCell :=
  let place (column : Nat) : Coordinate := ⟨"S", column, 1⟩
  let refer (column : Nat) : Expr := .reference ⟨.cell (place column), none⟩
  [ .input (place 1), .input (place 2),
    ⟨place 3, .formula, some (refer 4), false, none⟩,
    ⟨place 4, .formula, some (.binary .add (refer 3) (refer 1)), false, none⟩,
    ⟨place 5, .formula, some (refer 2), false, none⟩,
    ⟨place 6, .output, some (.binary .add (refer 4) (refer 5)), false, none⟩ ]

theorem plain_sideCells : ∀ cell ∈ sideCells, cell.Plain := by
  have hcheck : ∀ cell ∈ sideCells, (cell.expr.all fun e =>
      e.references.all (fun r => r.target.cell?.isSome) && e.targetCalls.isEmpty) = true := by
    decide
  exact fun cell hcell => plain_of_single (hcheck cell hcell)

/-- Only the copy of the second input and the sum depend on it. -/
theorem forwardReachable_sideCells :
    ∀ v ∈ (sideCells.foldl push empty).build.forwardReachable [1], v = 4 ∨ v = 5 := by
  have hidx := indexed_of_foldlM indexed_empty
    (show sideCells.foldlM add empty = .ok (sideCells.foldl push empty) from rfl)
  have hclosed : ∀ e ∈ (sideCells.foldl push empty).build.edges,
      e.source = 1 ∨ e.source = 4 ∨ e.source = 5 → e.target = 4 ∨ e.target = 5 := by
    decide +kernel
  intro v hv
  obtain ⟨s, hs, hpath⟩ := (mem_forwardReachable hidx.1).mp hv
  obtain rfl := List.mem_singleton.mp hs
  induction hpath with
  | single hadj =>
    obtain ⟨e, he, hsource, rfl⟩ := hadj
    exact hclosed e he (.inl hsource)
  | tail _ hadj ih =>
    obtain ⟨e, he, hsource, rfl⟩ := hadj
    exact hclosed e he (.inr (hsource ▸ ih ((mem_forwardReachable hidx.1).mpr ⟨_, hs, ‹_›⟩)))

/-- The loop is in one cluster with the second input, but does not depend on it. -/
theorem unaffected_run_sideCells : ∃ b c k, sideCells.foldlM add empty = .ok b ∧
    c ∈ b.build.clusters ∧ c.contains 1 = true ∧ .cycle k ∈ c.schedule ∧
    3 ∈ b.build.members (.cycle k) ∧ ∀ x : Value,
      (c.run Engine.plain b.build ∅ ∅).SameValue
        (c.run Engine.plain b.build ∅ ((∅ : CellMap).insert ⟨"S", 2, 1⟩ x)) ⟨"S", 4, 1⟩ ∧
      (c.run Engine.plain b.build ∅ ∅).SameOutcome
        (c.run Engine.plain b.build ∅ ((∅ : CellMap).insert ⟨"S", 2, 1⟩ x)) k := by
  have hadd : sideCells.foldlM add empty = .ok (sideCells.foldl push empty) := rfl
  have hidx := (indexed_of_foldlM indexed_empty hadd).1
  obtain ⟨c, hc, hin⟩ : ∃ c ∈ (sideCells.foldl push empty).build.clusters,
      (c.contains 1 && c.contains 3) = true := List.any_eq_true.mp (by decide +kernel)
  rw [Bool.and_eq_true] at hin
  obtain ⟨step, hstep, hmem⟩ := (contains_iff_exists_step hidx hc).mp hin.2
  have hmutual {v : Nat} := mem_members_iff_mutual (v := v) hidx ((schedule_sublist hc).subset hstep) hmem
  cases step with
  | node id =>
    -- the other cell of the loop is a member too
    have hback : (sideCells.foldl push empty).build.Adj 2 3 :=
      ⟨⟨2, 3, .direct⟩, by decide +kernel, rfl, rfl⟩
    have hforth : (sideCells.foldl push empty).build.Adj 3 2 :=
      ⟨⟨3, 2, .direct⟩, by decide +kernel, rfl, rfl⟩
    have htwo : 2 ∈ [id] := hmutual.mpr ⟨.single hforth, .single hback⟩
    have hthree : 3 ∈ [id] := hmem
    simp only [List.mem_singleton] at htwo hthree
    omega
  | cycle k =>
    refine ⟨_, c, k, hadd, hc, hin.1, hstep, hmem, fun x => ?_⟩
    have hdiffer : ∀ y, y ≠ (⟨"S", 2, 1⟩ : Coordinate) →
        (∅ : CellMap)[y]? = ((∅ : CellMap).insert ⟨"S", 2, 1⟩ x)[y]? := by
      intro y hy
      rw [Std.TreeMap.getElem?_insert, if_neg]
      intro heq
      exact hy (Std.LawfulEqOrd.eq_of_compare heq).symm
    have hrun := unaffected_run hadd plain_sideCells
      (show Engine.plain.functions = .builtin from rfl) ∅ hc (u := 1) rfl rfl hdiffer
    have hthree : 3 ∉ (sideCells.foldl push empty).build.forwardReachable [1] := by
      intro hreach
      have hcases := forwardReachable_sideCells 3 hreach
      omega
    refine ⟨hrun.1 3 _ hin.2 rfl rfl hthree, hrun.2 k hstep fun v hv hreach => hthree ?_⟩
    -- what leads to a member leads to all of them
    rw [mem_forwardReachable hidx] at hreach ⊢
    obtain ⟨s, hs, hpath⟩ := hreach
    exact ⟨s, hs, hpath.trans_left (hmutual.mp hv).2⟩

end GraphBuilder

end Recalc
