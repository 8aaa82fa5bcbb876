/-
Recalc/Proofs/Workbook/Consistency.lean

Runs leave no stale value.  When a cluster has been run, every cell with a formula has a
value, and the value of a single cell is what its formula gives over the values at the
end of the run, not only over those at the time it was computed:

    run.computed[n.coordinate]? = some (engine.evaluate e (run.final constants overrides).source).

Design.  A step writes its own cells only, and what a formula reads it refers to, so an
edge leads from every cell read.  No edge leads back along a schedule: later steps write
nothing that an earlier formula reads.  `Progress` says what holds after some steps; a
step keeps it (`Progress.step`), hence a run does (`Progress.run`).
-/
import Recalc.Proofs.Eval.Footprint
import Recalc.Proofs.Graph.Clusters
import Recalc.Proofs.Workbook.Run

namespace Recalc

/-! ### Graphs and schedules that can be run -/

/-- The formula, if it could be read, has well-formed ranges and selects from no range in the shape
of another one. -/
structure GraphCell.Plain (cell : GraphCell) : Prop where
  wellFormed : ∀ e, cell.expr = some e → e.WellFormed
  untargeted : ∀ e, cell.expr = some e → e.targetCalls = []

namespace Graph

/-- The graph tells its cells apart, knows what they refer to, and has formulas on its cycles. -/
structure Faithful (g : Graph) : Prop where
  plain : ∀ {id n}, g.node? id = some n → n.cell.Plain
  distinct : ∀ {i j m n}, g.node? i = some m → g.node? j = some n →
    m.coordinate = n.coordinate → i = j
  edge : ∀ {i j m n e}, g.node? i = some m → g.node? j = some n → n.cell.expr = some e →
    e.Refers m.coordinate → g.Adj i j
  listed : g.CyclesListed
  cyclic : ∀ {index id n}, id ∈ g.members (.cycle index) → g.node? id = some n →
    n.cell.expr.isSome = true

/-- Steps without a common cell, along which no edge leads back. -/
structure Sequence (g : Graph) (steps : List Step) : Prop where
  apart : (steps.flatMap g.members).Nodup
  forward : steps.Pairwise fun earlier later =>
    ∀ v ∈ g.members earlier, ∀ u ∈ g.members later, ¬ g.Adj u v
  alone : ∀ v, .node v ∈ steps → ¬ g.Adj v v

theorem Sequence.sublist {g : Graph} {steps steps' : List Step} (h : g.Sequence steps)
    (hsub : steps'.Sublist steps) : g.Sequence steps' where
  apart := by
    rw [List.flatMap_def]
    have hnodup := h.apart
    rw [List.flatMap_def] at hnodup
    exact hnodup.sublist (hsub.map _).flatten
  forward := h.forward.sublist hsub
  alone v hv := h.alone v (hsub.subset hv)

end Graph

/-! ### What holds after some steps -/

namespace ClusterRun

/-- What a run has done after some steps. -/
structure Progress (engine : Engine) (g : Graph) (constants overrides : CellMap)
    (done : List Step) (s : State) : Prop where
  constants : s.binding.constants = constants
  tracks : s.Tracks overrides
  /-- The cells with a formula have a value, and no others. -/
  computed_iff : ∀ c : Coordinate, s.run.computed[c]?.isSome = true ↔ ∃ st ∈ done,
    ∃ id ∈ g.members st, ∃ n, g.node? id = some n ∧ n.hasLogic = true ∧ n.coordinate = c
  failed : ∀ st ∈ done, ∀ id ∈ g.members st, ∀ n, g.node? id = some n → n.cell.failed = true →
    n.cell.expr = none → s.run.computed[n.coordinate]? = some (.error .invalid)
  /-- A single cell has the value of its formula over the values so far. -/
  evaluated : ∀ id n e, .node id ∈ done → g.node? id = some n → n.cell.failed = false →
    n.cell.expr = some e →
      s.run.computed[n.coordinate]? = some (engine.evaluate e s.binding.source)

variable {engine : Engine} {g : Graph} {constants overrides : CellMap} {done rest : List Step}
  {s : State} {st : Step} {id : Nat} {n : Node} {e : Expr} {c : Coordinate}

theorem progress_start (engine : Engine) (g : Graph) (constants overrides : CellMap) :
    Progress engine g constants overrides [] ⟨⟨constants, overrides⟩, ⟨∅, []⟩⟩ where
  constants := rfl
  tracks c := by
    show overrides[c]? = ((∅ : CellMap)[c]?).or overrides[c]?
    rw [Std.TreeMap.getElem?_emptyc, Option.none_or]
  computed_iff c := by
    show ((∅ : CellMap)[c]?).isSome = true ↔ _
    rw [Std.TreeMap.getElem?_emptyc]
    simp
  failed st hst := absurd hst List.not_mem_nil
  evaluated id n e hid := absurd hid List.not_mem_nil

/-! ### One step -/

/-- A later step does not write a cell of an earlier one. -/
theorem not_mem_stepCoordinates (hg : g.Faithful) (hl : g.Sequence (done ++ [st])) {earlier : Step}
    (hearlier : earlier ∈ done) (hid : id ∈ g.members earlier) (hn : g.node? id = some n) :
    n.coordinate ∉ g.stepCoordinates st := by
  intro hc
  obtain ⟨j, hj, m, hm, heq⟩ := Graph.mem_stepCoordinates.mp hc
  obtain rfl := hg.distinct hm hn heq
  have hapart := hl.apart
  rw [List.flatMap_append, List.flatMap_singleton] at hapart
  exact (List.nodup_append.mp hapart).2.2 j (List.mem_flatMap.mpr ⟨earlier, hearlier, hid⟩) j hj
    rfl

/-- A step that no edge leads from to a cell leaves the value of the cell's formula. -/
theorem evaluate_step (hfunctions : engine.functions = .builtin) (hg : g.Faithful)
    (hn : g.node? id = some n) (he : n.cell.expr = some e)
    (hedge : ∀ u ∈ g.members st, ¬ g.Adj u id) :
    engine.evaluate e (ClusterRun.step engine g s st).binding.source =
      engine.evaluate e s.binding.source := by
  refine Engine.evaluate_congr hfunctions ((hg.plain hn).wellFormed e he)
    (Binding.agreeOn fun c hc => ?_)
  rw [Expr.footprint_iff_refers ((hg.plain hn).untargeted e he)] at hc
  refine (writes_step engine g s st).get? fun hwritten => ?_
  obtain ⟨u, hu, m, hm, rfl⟩ := Graph.mem_stepCoordinates.mp hwritten
  exact hedge u hu (hg.edge hm hn he hc)

/-- A cell computes something exactly if it has a formula, readable or not. -/
theorem isSome_compute (engine : Engine) (n : Node) (b : Binding) :
    (compute engine n.cell b).isSome = n.hasLogic := by
  rw [compute, Node.hasLogic]
  cases n.cell.failed with
  | true => exact (Bool.or_true _).symm
  | false => exact (Option.isSome_map ..).trans (Bool.or_false _).symm

theorem compute_of_failed (hfailed : n.cell.failed = true) (engine : Engine) (b : Binding) :
    compute engine n.cell b = some (.error .invalid) := by
  rw [compute, if_pos hfailed]

theorem compute_of_expr (hread : n.cell.failed = false) (he : n.cell.expr = some e)
    (engine : Engine) (b : Binding) :
    compute engine n.cell b = some (engine.evaluate e b.source) := by
  rw [compute, hread, he]
  rfl

theorem computed_step_node {v : Value} (hn : g.node? id = some n)
    (hv : compute engine n.cell s.binding = some v) :
    (ClusterRun.step engine g s (.node id)).run.computed[n.coordinate]? = some v := by
  rw [step_node_some hn hv]
  exact Std.TreeMap.getElem?_insert_self

/-- A step gives a value to its cells with a formula, and to no other cell of its own. -/
theorem computed_step_iff (h : Progress engine g constants overrides done s) (hg : g.Faithful)
    (hl : g.Sequence (done ++ [st])) (hid : id ∈ g.members st) (hn : g.node? id = some n) :
    (ClusterRun.step engine g s st).run.computed[n.coordinate]?.isSome = true ↔
      n.hasLogic = true := by
  have hc : n.coordinate ∈ g.stepCoordinates st := Graph.mem_stepCoordinates.mpr ⟨id, hid, n, hn, rfl⟩
  cases st with
  | cycle index =>
    have hlogic : n.hasLogic = true := Bool.or_eq_true_iff.mpr (.inl (hg.cyclic hid hn))
    refine iff_of_true ?_ hlogic
    cases hr : g.cycles[index]? with
    | none =>
      rw [Graph.members, hr] at hid
      exact absurd hid List.not_mem_nil
    | some r =>
      rw [computed_step_cycle engine s hg.listed hr, if_pos hc]
      exact (step_cycle engine s hr).2.1 _ hc
  | node id' =>
    obtain rfl := List.mem_singleton.mp hid
    rw [← isSome_compute engine n s.binding]
    cases hv : compute engine n.cell s.binding with
    | none =>
      rw [step_node_none hn hv, h.computed_iff]
      refine iff_of_false ?_ (by decide)
      -- a value from before would be that of an earlier cell
      rintro ⟨earlier, hearlier, j, hj, m, hm, -, heq⟩
      exact not_mem_stepCoordinates hg hl hearlier hj hm (heq ▸ hc)
    | some v =>
      rw [computed_step_node hn hv]

/-- A step leaves the values of earlier cells. -/
theorem computed_step_of_done (engine : Engine) (s : State) (hg : g.Faithful)
    (hl : g.Sequence (done ++ [st])) {earlier : Step} (hearlier : earlier ∈ done)
    (hid : id ∈ g.members earlier) (hn : g.node? id = some n) :
    (ClusterRun.step engine g s st).run.computed[n.coordinate]? =
      s.run.computed[n.coordinate]? :=
  computed_step_of_not_mem engine s hg.listed (not_mem_stepCoordinates hg hl hearlier hid hn)

theorem Progress.isSome_computed_step (h : Progress engine g constants overrides done s)
    (hg : g.Faithful) (hl : g.Sequence (done ++ [st])) (c : Coordinate) :
    (ClusterRun.step engine g s st).run.computed[c]?.isSome = true ↔ ∃ st' ∈ done ++ [st],
      ∃ id ∈ g.members st', ∃ n, g.node? id = some n ∧ n.hasLogic = true ∧ n.coordinate = c := by
  by_cases hc : c ∈ g.stepCoordinates st
  case pos =>
    -- a coordinate stands for one cell only, so the cell is that of the step
    obtain ⟨id, hid, n, hn, rfl⟩ := Graph.mem_stepCoordinates.mp hc
    rw [computed_step_iff h hg hl hid hn]
    constructor
    · intro hlogic
      exact ⟨st, List.mem_append_right _ List.mem_cons_self, id, hid, n, hn, hlogic, rfl⟩
    · rintro ⟨st', hst', j, hj, m, hm, hlogic, heq⟩
      obtain rfl := hg.distinct hm hn heq
      obtain rfl := Option.some.inj (hm.symm.trans hn)
      exact hlogic
  case neg =>
    rw [computed_step_of_not_mem engine s hg.listed hc, h.computed_iff]
    constructor
    · rintro ⟨st', hst', hrest⟩
      exact ⟨st', List.mem_append_left _ hst', hrest⟩
    · rintro ⟨st', hst', j, hj, m, hm, hlogic, rfl⟩
      rcases List.mem_append.mp hst' with hold | hnew
      · exact ⟨st', hold, j, hj, m, hm, hlogic, rfl⟩
      · obtain rfl := List.mem_singleton.mp hnew
        exact absurd (Graph.mem_stepCoordinates.mpr ⟨j, hj, m, hm, rfl⟩) hc

/-- A step gives a formula that could not be read its fault. -/
theorem computed_step_of_failed (engine : Engine) (s : State)
    (hsingle : ∀ index, id ∉ g.members (.cycle index)) (hid : id ∈ g.members st)
    (hn : g.node? id = some n) (hfailed : n.cell.failed = true) :
    (ClusterRun.step engine g s st).run.computed[n.coordinate]? = some (.error .invalid) := by
  cases st with
  | node id' =>
    obtain rfl := List.mem_singleton.mp hid
    exact computed_step_node hn (compute_of_failed hfailed engine _)
  | cycle index => exact absurd hid (hsingle index)

theorem Progress.evaluated_step (h : Progress engine g constants overrides done s)
    (hfunctions : engine.functions = .builtin) (hg : g.Faithful)
    (hl : g.Sequence (done ++ [st])) (hid : .node id ∈ done ++ [st])
    (hn : g.node? id = some n) (hread : n.cell.failed = false) (he : n.cell.expr = some e) :
    (ClusterRun.step engine g s st).run.computed[n.coordinate]? =
      some (engine.evaluate e (ClusterRun.step engine g s st).binding.source) := by
  rcases List.mem_append.mp hid with hold | hnew
  · -- an earlier formula reads nothing that this step writes
    have hedge : ∀ u ∈ g.members st, ¬ g.Adj u id :=
      (List.pairwise_append.mp hl.forward).2.2 _ hold st List.mem_cons_self id List.mem_cons_self
    rw [evaluate_step hfunctions hg hn he hedge,
      computed_step_of_done engine s hg hl hold List.mem_cons_self hn]
    exact h.evaluated id n e hold hn hread he
  · -- nor does the formula of this step read its own cell
    obtain rfl := List.mem_singleton.mp hnew
    have hself : ∀ u ∈ g.members (.node id), ¬ g.Adj u id := fun u hu => by
      rw [List.mem_singleton.mp hu]
      exact hl.alone id hid
    rw [evaluate_step hfunctions hg hn he hself]
    exact computed_step_node hn (compute_of_expr hread he engine _)

/-- **One step more.** -/
theorem Progress.step (h : Progress engine g constants overrides done s)
    (hfunctions : engine.functions = .builtin) (hg : g.Faithful)
    (hl : g.Sequence (done ++ [st])) :
    Progress engine g constants overrides (done ++ [st]) (ClusterRun.step engine g s st) where
  constants := (writes_step engine g s st).constants.trans h.constants
  tracks := h.tracks.step engine hg.listed st
  computed_iff := h.isSome_computed_step hg hl
  failed st' hst' id hid n hn hfailed hnone := by
    rcases List.mem_append.mp hst' with hold | hnew
    · rw [computed_step_of_done engine s hg hl hold hid hn]
      exact h.failed st' hold id hid n hn hfailed hnone
    · obtain rfl := List.mem_singleton.mp hnew
      refine computed_step_of_failed engine s (fun index hcycle => ?_) hid hn hfailed
      -- a cell on a cycle has a formula that refers to something
      have hexpr := hg.cyclic hcycle hn
      rw [hnone] at hexpr
      cases hexpr
  evaluated id n e hid hn hread he := h.evaluated_step hfunctions hg hl hid hn hread he

/-- **A whole run.** -/
theorem Progress.run (h : Progress engine g constants overrides done s)
    (hfunctions : engine.functions = .builtin) (hg : g.Faithful)
    (hl : g.Sequence (done ++ rest)) :
    Progress engine g constants overrides (done ++ rest)
      (rest.foldl (ClusterRun.step engine g) s) := by
  induction rest generalizing done s with
  | nil => rwa [List.append_nil]
  | cons st rest ih =>
    have happend : done ++ st :: rest = (done ++ [st]) ++ rest := by simp
    rw [happend] at hl ⊢
    exact ih (h.step hfunctions hg (hl.sublist (List.sublist_append_left _ _))) hl

/-! ### The binding at the end -/

/-- The computed values over the overrides over the constants. -/
def final (run : ClusterRun) (constants overrides : CellMap) : Binding :=
  ⟨constants, run.computed.toList.foldl (fun m (c, v) => m.insert c v) overrides⟩

theorem get?_final (run : ClusterRun) (constants overrides : CellMap) (c : Coordinate) :
    (run.final constants overrides).get? c =
      run.computed[c]?.or (overrides[c]?.or constants[c]?) := by
  have hentry (v : Value) : (c, v) ∈ run.computed.toList ↔ run.computed[c]? = some v :=
    Std.TreeMap.mem_toList_iff_getElem?_eq_some
  rw [Binding.get?, final, CellMap.getElem?_foldl_insert hentry, Option.or_assoc]

/-- A run ends with that binding. -/
theorem Progress.get?_binding (h : Progress engine g constants overrides done s)
    (c : Coordinate) : s.binding.get? c = (s.run.final constants overrides).get? c := by
  rw [get?_final, Binding.get?, h.tracks c, h.constants, Option.or_assoc]

end ClusterRun

/-! ### Built graphs -/

namespace GraphBuilder

variable {b : GraphBuilder} {cells : List GraphCell}

/-- A cell of the graph is one that was given, or has no formula. -/
theorem mem_or_input_of_node? (h : cells.foldlM add empty = .ok b) {v : Nat} {n : Node}
    (hn : b.build.node? v = some n) :
    n.cell ∈ cells ∨ n.cell.expr = none ∧ n.cell.failed = false := by
  obtain ⟨hidx, hgiven⟩ := indexed_of_foldlM indexed_empty h
  obtain ⟨more, hcells, hmore⟩ := withImplicit_extends hidx
  have hmem := Array.mem_of_getElem? (cell_of_node? hn)
  rw [hcells, hgiven] at hmem
  rcases Array.mem_append.mp hmem with hold | hnew
  · exact .inl (by simpa [empty] using hold)
  · exact .inr ⟨(hmore n.cell hnew).1, (hmore n.cell hnew).2.1⟩

theorem plain_node? (h : cells.foldlM add empty = .ok b) (hcells : ∀ cell ∈ cells, cell.Plain)
    {id : Nat} {n : Node} (hn : b.build.node? id = some n) : n.cell.Plain := by
  rcases mem_or_input_of_node? h hn with hgiven | ⟨hexpr, -⟩
  · exact hcells n.cell hgiven
  · have hnone (e : Expr) : n.cell.expr ≠ some e := by
      rw [hexpr]
      exact (Option.some_ne_none e).symm
    exact ⟨fun e he => absurd he (hnone e), fun e he => absurd he (hnone e)⟩

/-- A cell that something leads to has a formula. -/
theorem isSome_expr_of_adj (h : b.Indexed) {u v : Nat} {n : Node} (hadj : b.build.Adj u v)
    (hn : b.build.node? v = some n) : n.cell.expr.isSome = true := by
  obtain ⟨source, target, -, htarget, r, hr, -⟩ := (adj_build_iff h).mp hadj
  obtain rfl := Option.some.inj (htarget.symm.trans (cell_of_node? hn))
  cases he : n.cell.expr with
  | some e => rfl
  | none =>
    rw [GraphCell.references, he] at hr
    exact absurd hr List.not_mem_nil

/-- A cell on a cycle is led to, so it has a formula. -/
theorem isSome_expr_of_mem_cycle (h : b.Indexed) {index id : Nat} {n : Node}
    (hid : id ∈ b.build.members (.cycle index)) (hn : b.build.node? id = some n) :
    n.cell.expr.isSome = true := by
  rw [Graph.members, getElem?_cycles_build h] at hid
  cases hgroup : b.cycleGroups[index]? with
  | none =>
    rw [hgroup] at hid
    exact absurd hid List.not_mem_nil
  | some group =>
    rw [hgroup] at hid
    have hmem := List.mem_of_getElem? hgroup
    have hcycle := transGen_of_mem_cycleGroups h hmem
      ((members_circularRef_perm h hmem).mem_iff.mp hid)
    obtain ⟨u, -, hadj⟩ := Relation.TransGen.tail'_iff.mp hcycle
    exact isSome_expr_of_adj h hadj hn

theorem cyclesListed_build (h : b.Indexed) : b.build.CyclesListed := by
  intro r hr
  obtain ⟨group, hgroup, rfl⟩ := (mem_cycles_build h).mp hr
  exact (listed_members h hgroup).2.1

theorem faithful_build (h : cells.foldlM add empty = .ok b)
    (hcells : ∀ cell ∈ cells, cell.Plain) : b.build.Faithful := by
  have hidx := (indexed_of_foldlM indexed_empty h).1
  refine ⟨fun hn => plain_node? h hcells hn, fun {i j m n} hm hn heq => ?_,
    fun {i j m n e} hm hn he hrefers => ?_, cyclesListed_build hidx,
    fun {index id n} hid hn => isSome_expr_of_mem_cycle hidx hid hn⟩
  · exact number_unique hidx hm hn heq
  · refine (adj_build_iff hidx).mpr ⟨m.cell, n.cell, cell_of_node? hm, cell_of_node? hn, ?_⟩
    rw [GraphCell.references, he]
    exact hrefers

theorem sequence_build (h : b.Indexed) : b.build.Sequence b.build.schedule := by
  have hget {i : Nat} (hi : i < b.build.schedule.length) {v : Nat}
      (hv : v ∈ b.build.members b.build.schedule[i]) : b.build.StepOf v i :=
    ⟨_, List.getElem?_eq_getElem hi, hv⟩
  refine ⟨?_, ?_, fun v => not_adj_self_of_node h⟩
  · rw [List.flatMap_def, List.nodup_flatten, List.pairwise_map, List.pairwise_iff_getElem]
    refine ⟨fun l hl => ?_, fun i j hi hj hij v hvi hvj => ?_⟩
    · obtain ⟨step, hstep, rfl⟩ := List.mem_map.mp hl
      exact (members_build h hstep).1
    · have hlt := (members_build h (List.getElem_mem hi)).2 v hvi
      have hunique := (existsUnique_stepOf h hlt).unique (hget hi hvi) (hget hj hvj)
      omega
  · rw [List.pairwise_iff_getElem]
    intro i j hi hj hij v hv u hu hadj
    have hlt := stepOf_lt_of_adj h hadj (hget hj hu) (hget hi hv) (Nat.ne_of_gt hij)
    omega

/-- A formula that refers to single cells only, and selects none of them, is plain. -/
theorem plain_of_single {cell : GraphCell} (hexpr : (cell.expr.all fun e =>
      e.references.all (fun r => r.target.cell?.isSome) && e.targetCalls.isEmpty) = true) :
    cell.Plain := by
  refine ⟨fun e he r hr => ?_, fun e he => ?_⟩
  · rw [he, Option.all_some, Bool.and_eq_true] at hexpr
    have hsingle := List.all_eq_true.mp hexpr.1 r hr
    cases htarget : r.target with
    | cell c => trivial
    | range range =>
      rw [htarget] at hsingle
      cases hsingle
  · rw [he, Option.all_some, Bool.and_eq_true] at hexpr
    exact List.isEmpty_iff.mp hexpr.2

theorem plain_loopCells : ∀ cell ∈ loopCells, cell.Plain := by
  have hcheck : ∀ cell ∈ loopCells, (cell.expr.all fun e =>
      e.references.all (fun r => r.target.cell?.isSome) && e.targetCalls.isEmpty) = true := by
    decide
  exact fun cell hcell => plain_of_single (hcheck cell hcell)

end GraphBuilder

end Recalc
