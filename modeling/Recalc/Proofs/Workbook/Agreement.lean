/-
Recalc/Proofs/Workbook/Agreement.lean

Two runs that agree on some cells.  A region is a set of cells that holds every cell its
members depend on, and no part of a step without the rest of it.  What lies outside of a
region does not show inside: a run agrees there with the run of the region's own steps,

    s.Agree g K t → (run s steps).Agree g K (run t (steps.filter (g.keeps K))).

Design.  Agreement is about the coordinates that a region sees: those of its own cells,
and those of no cell at all, whose values are constants.  A step inside a region reads
such coordinates only, so it does the same in both runs; a step outside writes no such
coordinate, so one run may skip it.
-/
import Recalc.Proofs.Workbook.Consistency

namespace Recalc

/-! ### Regions -/

namespace Graph

variable {g : Graph} {K : Nat → Bool} {steps : List Step} {st : Step} {c : Coordinate}

/-- The set of cells has all members of a step. -/
def keeps (g : Graph) (K : Nat → Bool) (st : Step) : Bool := (g.members st).all K

/-- The coordinate belongs to no cell outside of the set. -/
def Sees (g : Graph) (K : Nat → Bool) (c : Coordinate) : Prop :=
  ∀ id n, g.node? id = some n → n.coordinate = c → K id = true

/-- A set of cells that others do not lead into and that divides no step. -/
structure Region (g : Graph) (K : Nat → Bool) (steps : List Step) : Prop where
  precedent : ∀ {u v}, g.Adj u v → K v = true → K u = true
  undivided : ∀ st ∈ steps, ∀ u ∈ g.members st, ∀ v ∈ g.members st, K u = true → K v = true

theorem Region.sublist {steps' : List Step} (h : g.Region K steps) (hsub : steps'.Sublist steps) :
    g.Region K steps' where
  precedent := h.precedent
  undivided st' hst' := h.undivided st' (hsub.subset hst')

/-- A step that is not kept has no coordinate that the region sees. -/
theorem Region.not_sees (h : g.Region K steps) (hst : st ∈ steps) (hk : g.keeps K st = false)
    (hc : c ∈ g.stepCoordinates st) : ¬ g.Sees K c := by
  intro hsees
  obtain ⟨id, hid, n, hn, hcoordinate⟩ := mem_stepCoordinates.mp hc
  have hin : K id = true := hsees id n hn hcoordinate
  have hall : g.keeps K st = true :=
    List.all_eq_true.mpr fun v hv => h.undivided st hst id hid v hv hin
  rw [hk] at hall
  cases hall

/-- A region sees the coordinates of its cells. -/
theorem Faithful.sees (hg : g.Faithful) {id : Nat} {n : Node} (hn : g.node? id = some n)
    (hid : K id = true) : g.Sees K n.coordinate := by
  intro j m hm heq
  rw [hg.distinct hm hn heq]
  exact hid

end Graph

/-! ### Bindings that agree -/

/-- The bindings have the same entries for the coordinates of a set. -/
def Binding.Agree (P : Coordinate → Prop) (b b' : Binding) : Prop :=
  ∀ c, P c → b.get? c = b'.get? c

/-- The cell and all that its formula reads are in a set. -/
structure GraphCell.Within (P : Coordinate → Prop) (cell : GraphCell) : Prop where
  coordinate : P cell.coordinate
  reads : ∀ e, cell.expr = some e → e.Within P

/-- What a cell of a region reads is seen by the region. -/
theorem Graph.Region.within {g : Graph} {K : Nat → Bool} {steps : List Step}
    (h : g.Region K steps) (hg : g.Faithful) {id : Nat} {n : Node} (hn : g.node? id = some n)
    (hid : K id = true) : n.cell.Within (g.Sees K) where
  coordinate := hg.sees hn hid
  reads e he := by
    refine ⟨(hg.plain hn).wellFormed e he, fun c hc => ?_⟩
    rw [Expr.footprint_iff_refers ((hg.plain hn).untargeted e he)] at hc
    intro j m hm hcoordinate
    subst hcoordinate
    exact h.precedent (hg.edge hm hn he hc) hid

namespace Binding

variable {P : Coordinate → Prop} {b b' : Binding}

theorem get?_set (b : Binding) (c d : Coordinate) (v : Value) :
    (b.set c v).get? d = if c = d then some v else b.get? d := by
  show ((b.own.insert c v)[d]?).or b.constants[d]? = _
  by_cases hcd : c = d
  · subst hcd
    rw [Std.TreeMap.getElem?_insert_self, if_pos rfl, Option.some_or]
  · rw [CellMap.getElem?_insert_of_ne hcd, if_neg hcd]
    rfl

theorem Agree.value (h : Agree P b b') {c : Coordinate} (hc : P c) : b.value c = b'.value c := by
  rw [value_eq, value_eq, h c hc]

theorem Agree.set (h : Agree P b b') (c : Coordinate) (v : Value) :
    Agree P (b.set c v) (b'.set c v) := by
  intro d hd
  rw [get?_set, get?_set, h d hd]

theorem Agree.fill (h : Agree P b b') (cs : List Coordinate) (v : Value) :
    Agree P (b.fill cs v) (b'.fill cs v) := by
  induction cs generalizing b b' with
  | nil => exact h
  | cons c cs ih => exact ih (h.set c v)

end Binding

/-! ### Steps inside a region -/

namespace ClusterRun

variable {engine : Engine} {g : Graph} {K : Nat → Bool} {P : Coordinate → Prop}
  {members : List GraphCell} {b b' : Binding}

theorem compute_agree (hfunctions : engine.functions = .builtin) {cell : GraphCell}
    (hcell : cell.Within P) (h : b.Agree P b') :
    compute engine cell b = compute engine cell b' := by
  rw [compute, compute]
  cases he : cell.expr with
  | none => rfl
  | some e =>
    have hwithin := hcell.reads e he
    have heval : engine.evaluate e b.source = engine.evaluate e b'.source :=
      Engine.evaluate_congr hfunctions hwithin.wellFormed
        (Binding.agreeOn fun c hc => h c (hwithin.footprint c hc))
    simp only [Option.map_some, heval]

/-- Sweeps over bindings that agree end alike, and agree again. -/
theorem sweep_agree (hfunctions : engine.functions = .builtin)
    (hmembers : ∀ m ∈ members, m.Within P) (delta : Float) (h : b.Agree P b') :
    (sweep engine members delta b = none ∧ sweep engine members delta b' = none) ∨
      ∃ delta' c c', sweep engine members delta b = some (delta', c) ∧
        sweep engine members delta b' = some (delta', c') ∧ c.Agree P c' := by
  induction members generalizing delta b b' with
  | nil => exact .inr ⟨delta, b, b', rfl, rfl, h⟩
  | cons cell rest ih =>
    have hcell := hmembers cell List.mem_cons_self
    rw [sweep, sweep, ← compute_agree hfunctions hcell h, ← h.value hcell.coordinate]
    cases hnumber : distanceNumber? ((compute engine cell b).getD .empty) with
    | none => exact .inl ⟨rfl, rfl⟩
    | some current =>
      exact ih (fun m hm => hmembers m (List.mem_cons_of_mem _ hm)) _ (h.set _ _)

theorem settle_agree (hfunctions : engine.functions = .builtin)
    (hmembers : ∀ m ∈ members, m.Within P) (index : Nat) (threshold : Float) (done left : Nat)
    (h : b.Agree P b') :
    (settle engine index members threshold done left b).1 =
        (settle engine index members threshold done left b').1 ∧
      (settle engine index members threshold done left b).2.Agree P
        (settle engine index members threshold done left b').2 := by
  induction left generalizing done b b' with
  | zero => exact ⟨rfl, h.fill _ _⟩
  | succ left ih =>
    rw [settle, settle]
    rcases sweep_agree hfunctions hmembers 0.0 h with ⟨hs, hs'⟩ | ⟨delta, c, c', hs, hs', hagree⟩
    · rw [hs, hs']
      exact ⟨rfl, h.fill _ _⟩
    · rw [hs, hs']
      dsimp only
      split
      · exact ⟨rfl, hagree⟩
      · exact ih (done + 1) hagree

/-- **A cycle ends alike over bindings that agree on all it reads.** -/
theorem resolveCycle_agree (hfunctions : engine.functions = .builtin)
    (hmembers : ∀ m ∈ members, m.Within P) (index : Nat) (iteration : Option Iteration)
    (h : b.Agree P b') :
    (resolveCycle engine index members iteration b).1 =
        (resolveCycle engine index members iteration b').1 ∧
      (resolveCycle engine index members iteration b).2.Agree P
        (resolveCycle engine index members iteration b').2 := by
  cases iteration with
  | none => exact ⟨rfl, h.fill _ _⟩
  | some limits => exact settle_agree hfunctions hmembers index _ 0 _ (h.fill _ _)

theorem cycle_settle (engine : Engine) (index : Nat) (members : List GraphCell)
    (threshold : Float) (done left : Nat) (b : Binding) :
    (settle engine index members threshold done left b).1.cycle = index := by
  induction left generalizing done b with
  | zero => rfl
  | succ left ih =>
    rw [settle]
    split
    · rfl
    · split
      · rfl
      · exact ih _ _

/-- The outcome of a cycle is told under its number. -/
theorem cycle_resolveCycle (engine : Engine) (index : Nat) (members : List GraphCell)
    (iteration : Option Iteration) (b : Binding) :
    (resolveCycle engine index members iteration b).1.cycle = index := by
  cases iteration with
  | none => rfl
  | some limits => exact cycle_settle _ _ _ _ _ _ _

/-! ### Runs that agree -/

/-- Two runs on their way agree on what a region sees. -/
structure State.Agree (g : Graph) (K : Nat → Bool) (s t : State) : Prop where
  binding : s.binding.Agree (g.Sees K) t.binding
  computed : ∀ c : Coordinate, g.Sees K c → s.run.computed[c]? = t.run.computed[c]?
  /-- The cycles of the region ended alike, in the same order. -/
  cycles : s.run.cycles.filter (fun o => g.keeps K (.cycle o.cycle)) =
    t.run.cycles.filter (fun o => g.keeps K (.cycle o.cycle))

variable {s t u : State} {steps : List Step} {st : Step} {id index : Nat}

namespace State.Agree

theorem refl (g : Graph) (K : Nat → Bool) (s : State) : s.Agree g K s :=
  ⟨fun _ _ => rfl, fun _ _ => rfl, rfl⟩

theorem symm (h : s.Agree g K t) : t.Agree g K s :=
  ⟨fun c hc => (h.binding c hc).symm, fun c hc => (h.computed c hc).symm, h.cycles.symm⟩

theorem trans (h : s.Agree g K t) (h' : t.Agree g K u) : s.Agree g K u :=
  ⟨fun c hc => (h.binding c hc).trans (h'.binding c hc),
    fun c hc => (h.computed c hc).trans (h'.computed c hc), h.cycles.trans h'.cycles⟩

theorem step_node (h : s.Agree g K t) (hfunctions : engine.functions = .builtin)
    (hg : g.Faithful) (hr : g.Region K steps) (hk : g.keeps K (.node id) = true) :
    (ClusterRun.step engine g s (.node id)).Agree g K
      (ClusterRun.step engine g t (.node id)) := by
  cases hn : g.node? id with
  | none =>
    rw [ClusterRun.step, ClusterRun.step]
    simp only [hn]
    exact h
  | some n =>
    have hid : K id = true := List.all_eq_true.mp hk id List.mem_cons_self
    have hcompute : compute engine n.cell s.binding = compute engine n.cell t.binding :=
      compute_agree hfunctions (hr.within hg hn hid) h.binding
    cases hv : compute engine n.cell s.binding with
    | none =>
      rw [step_node_none hn hv, step_node_none hn (hcompute ▸ hv)]
      exact h
    | some v =>
      rw [step_node_some hn hv, step_node_some hn (hcompute ▸ hv)]
      refine ⟨h.binding.set _ _, fun c hc => ?_, h.cycles⟩
      show (s.run.computed.insert n.coordinate v)[c]? = (t.run.computed.insert n.coordinate v)[c]?
      rw [Std.TreeMap.getElem?_insert, Std.TreeMap.getElem?_insert, h.computed c hc]

theorem step_cycle (h : s.Agree g K t) (hfunctions : engine.functions = .builtin)
    (hg : g.Faithful) (hr : g.Region K steps) (hk : g.keeps K (.cycle index) = true) :
    (ClusterRun.step engine g s (.cycle index)).Agree g K
      (ClusterRun.step engine g t (.cycle index)) := by
  cases hcycle : g.cycles[index]? with
  | none =>
    rw [ClusterRun.step, ClusterRun.step]
    simp only [hcycle]
    exact h
  | some r =>
    have hmembers : ∀ m ∈ r.members.filterMap (fun id => (g.node? id).map Node.cell),
        m.Within (g.Sees K) := by
      intro m hm
      obtain ⟨id, hid, hcell⟩ := List.mem_filterMap.mp hm
      obtain ⟨n, hn, rfl⟩ := Option.map_eq_some_iff.mp hcell
      refine hr.within hg hn (List.all_eq_true.mp hk id ?_)
      rw [Graph.members, hcycle]
      exact hid
    obtain ⟨houtcome, hbinding⟩ :=
      resolveCycle_agree hfunctions hmembers index r.iteration h.binding
    rw [ClusterRun.step, ClusterRun.step]
    simp only [hcycle]
    refine ⟨hbinding, fun c hc => ?_, ?_⟩
    · rw [getElem?_foldl_insert_value, getElem?_foldl_insert_value, hbinding.value hc,
        h.computed c hc]
    · rw [List.filter_append, List.filter_append, h.cycles, houtcome]

/-- **A step inside the region keeps the runs together.** -/
theorem step (h : s.Agree g K t) (hfunctions : engine.functions = .builtin) (hg : g.Faithful)
    (hr : g.Region K steps) (hk : g.keeps K st = true) :
    (ClusterRun.step engine g s st).Agree g K (ClusterRun.step engine g t st) := by
  cases st with
  | node id => exact h.step_node hfunctions hg hr hk
  | cycle index => exact h.step_cycle hfunctions hg hr hk

end State.Agree

/-! ### Steps outside a region -/

/-- A step outside of the region leaves the outcomes of the region's cycles. -/
theorem filter_cycles_step (engine : Engine) (s : State) (hk : g.keeps K st = false) :
    (ClusterRun.step engine g s st).run.cycles.filter (fun o => g.keeps K (.cycle o.cycle)) =
      s.run.cycles.filter (fun o => g.keeps K (.cycle o.cycle)) := by
  cases st with
  | node id =>
    rw [ClusterRun.step]
    split
    · rfl
    · split <;> rfl
  | cycle index =>
    cases hcycle : g.cycles[index]? with
    | none =>
      rw [ClusterRun.step]
      simp only [hcycle]
    | some r =>
      rw [ClusterRun.step]
      simp only [hcycle]
      rw [List.filter_append, List.filter_singleton, cycle_resolveCycle, hk]
      exact List.append_nil _

/-- **A step outside of the region does not show.** -/
theorem State.Agree.skip (h : s.Agree g K t) (engine : Engine) (hg : g.Faithful)
    (hr : g.Region K steps) (hst : st ∈ steps) (hk : g.keeps K st = false) :
    (ClusterRun.step engine g s st).Agree g K t where
  binding c hc := by
    rw [(writes_step engine g s st).get? fun hwritten => hr.not_sees hst hk hwritten hc]
    exact h.binding c hc
  computed c hc := by
    rw [computed_step_of_not_mem engine s hg.listed fun hwritten => hr.not_sees hst hk hwritten hc]
    exact h.computed c hc
  cycles := (filter_cycles_step engine s hk).trans h.cycles

/-- **A run agrees with the run of the region's steps alone.** -/
theorem State.Agree.run (h : s.Agree g K t) (hfunctions : engine.functions = .builtin)
    (hg : g.Faithful) (hr : g.Region K steps) :
    (steps.foldl (ClusterRun.step engine g) s).Agree g K
      ((steps.filter (g.keeps K)).foldl (ClusterRun.step engine g) t) := by
  induction steps generalizing s t with
  | nil => exact h
  | cons st steps ih =>
    cases hk : g.keeps K st with
    | true =>
      rw [List.filter_cons_of_pos hk]
      exact ih (h.step hfunctions hg hr hk) (hr.sublist (List.sublist_cons_self st steps))
    | false =>
      rw [List.filter_cons_of_neg (by rw [hk]; exact Bool.false_ne_true)]
      exact ih (h.skip engine hg hr List.mem_cons_self hk) (hr.sublist (List.sublist_cons_self st steps))

/-! ### The cycles of a run -/

/-- A cycle step tells one outcome more, under the number of the cycle. -/
theorem map_cycle_step (engine : Engine) (s : State)
    (hnumbered : ∀ index, st = .cycle index → index < g.cycles.length) :
    (ClusterRun.step engine g s st).run.cycles.map CycleOutcome.cycle =
      s.run.cycles.map CycleOutcome.cycle ++ st.cycle?.toList := by
  cases st with
  | node id =>
    have hnone : (Step.node id).cycle?.toList = [] := rfl
    rw [hnone, List.append_nil, ClusterRun.step]
    split
    · rfl
    · split <;> rfl
  | cycle index =>
    obtain ⟨r, hr⟩ : ∃ r, g.cycles[index]? = some r :=
      ⟨_, List.getElem?_eq_getElem (hnumbered index rfl)⟩
    rw [ClusterRun.step]
    simp only [hr]
    rw [List.map_append, List.map_singleton, cycle_resolveCycle]
    rfl

/-- **A run tells the outcome of every cycle that it takes**, in the order of its steps. -/
theorem map_cycle_run (engine : Engine) (s : State)
    (hnumbered : ∀ index, .cycle index ∈ steps → index < g.cycles.length) :
    (steps.foldl (ClusterRun.step engine g) s).run.cycles.map CycleOutcome.cycle =
      s.run.cycles.map CycleOutcome.cycle ++ steps.filterMap Step.cycle? := by
  induction steps generalizing s with
  | nil => exact (List.append_nil _).symm
  | cons st steps ih =>
    rw [List.foldl_cons, ih _ fun index hindex => hnumbered index (List.mem_cons_of_mem _ hindex),
      map_cycle_step engine s fun index hst => hnumbered index (hst ▸ List.mem_cons_self),
      List.append_assoc]
    cases st with
    | node id => rfl
    | cycle index => rfl

end ClusterRun

end Recalc
