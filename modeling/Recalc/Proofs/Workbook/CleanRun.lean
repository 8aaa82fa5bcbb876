/-
Recalc/Proofs/Workbook/CleanRun.lean

Runs that spread no fault of their own.  A region is sound if its formulas could be read and
are supported, and its cycles may be repeated and settle.  A run that starts with clean
values keeps the values of a sound region clean, whatever happens elsewhere:

    s.binding.CleanOn (g.Sees K) → (run s steps).binding.CleanOn (g.Sees K).

Design.  A formula of the region reads what the region sees, and a source that hides all
other faults looks the same to it (`Binding.agreeOn_cleaned`).  A cycle that settles ends
with numbers and blanks, so nothing has to be known of its formulas.
-/
import Recalc.Proofs.Eval.Faults
import Recalc.Proofs.Workbook.Agreement

namespace Recalc

/-! ### Sources without faults of their own -/

/-- The value, or a blank in place of a fault that cannot be spelled out. -/
def Value.cleaned : Value → Value
  | .error f => if f ∈ Fault.spelled then .error f else .empty
  | v => v

theorem Value.clean_cleaned (v : Value) : v.cleaned.Clean := by
  cases v with
  | error f =>
    rw [cleaned]
    split
    case isTrue hf => exact Value.clean_error.mpr hf
    case isFalse => exact Value.clean_empty
  | _ => exact Value.clean_of_fault? rfl

theorem Value.Clean.cleaned_eq {v : Value} (h : v.Clean) : v.cleaned = v := by
  cases v with
  | error f => exact if_pos (Value.clean_error.mp h)
  | _ => rfl

namespace Binding

variable {P : Coordinate → Prop} {b : Binding}

/-- The entries for the cells of a set are clean. -/
def CleanOn (P : Coordinate → Prop) (b : Binding) : Prop :=
  ∀ c v, P c → b.get? c = some v → v.Clean

/-- A binding as a source that hides faults that cannot be spelled out. -/
def cleaned (b : Binding) : CellSource where
  value c := (b.value c).cleaned
  boundIn r := (b.boundIn r).map fun p => (p.1, p.2.cleaned)

theorem clean_cleaned (b : Binding) : b.cleaned.Clean where
  value c := Value.clean_cleaned _
  boundIn r p hp := by
    obtain ⟨q, -, rfl⟩ := List.mem_map.mp hp
    exact Value.clean_cleaned _

theorem CleanOn.value (h : b.CleanOn P) {c : Coordinate} (hc : P c) : (b.value c).Clean := by
  rw [value_eq]
  cases hv : b.get? c with
  | none => exact Value.clean_empty
  | some v => exact h c v hc hv

/-- Where all entries are clean there is nothing to hide. -/
theorem CleanOn.agreeOn_cleaned (h : b.CleanOn P) : b.source.AgreeOn P b.cleaned where
  value c hc := (h.value hc).cleaned_eq.symm
  boundIn r hr := by
    have hsame : (b.boundIn r).map (fun p => (p.1, p.2.cleaned)) = (b.boundIn r).map id := by
      refine List.map_congr_left fun ⟨c, v⟩ hp => ?_
      obtain ⟨hc, hv⟩ := mem_boundIn.mp hp
      rw [(h c v (hr c hc) hv).cleaned_eq]
      rfl
    exact (hsame.trans (List.map_id _)).symm

theorem CleanOn.set (h : b.CleanOn P) (c : Coordinate) {v : Value} (hv : v.Clean) :
    (b.set c v).CleanOn P := by
  intro d w hd hw
  rw [get?_set] at hw
  split at hw
  · exact Option.some.inj hw ▸ hv
  · exact h d w hd hw

theorem CleanOn.fill (h : b.CleanOn P) (cs : List Coordinate) {v : Value} (hv : v.Clean) :
    (b.fill cs v).CleanOn P := by
  induction cs generalizing b with
  | nil => exact h
  | cons c cs ih => exact ih (h.set c hv)

end Binding

namespace ClusterRun

variable {engine : Engine} {P : Coordinate → Prop} {b b' : Binding} {members : List GraphCell}

/-! ### Cycles that settle -/

theorem clean_of_distanceNumber? {v : Value} (h : (distanceNumber? v).isSome = true) : v.Clean := by
  cases v with
  | error f => cases h
  | _ => exact Value.clean_of_fault? rfl

theorem cleanOn_sweep {delta delta' : Float} (hb : b.CleanOn P)
    (h : sweep engine members delta b = some (delta', b')) : b'.CleanOn P := by
  induction members generalizing delta b with
  | nil =>
    obtain ⟨-, rfl⟩ := Prod.mk.inj (Option.some.inj h)
    exact hb
  | cons cell rest ih =>
    rw [sweep] at h
    split at h
    case h_1 current hcurrent =>
      exact ih (hb.set _ (clean_of_distanceNumber? (Option.isSome_of_eq_some hcurrent))) h
    case h_2 => cases h

theorem cleanOn_settle {index : Nat} {threshold : Float} {done left : Nat} (hb : b.CleanOn P)
    (h : (settle engine index members threshold done left b).1.status = .converged) :
    (settle engine index members threshold done left b).2.CleanOn P := by
  induction left generalizing done b with
  | zero => cases h
  | succ left ih =>
    rw [settle] at h ⊢
    split at h
    case h_1 => cases h
    case h_2 delta swept hswept =>
      have hclean := cleanOn_sweep hb hswept
      split at h
      case isTrue hdelta =>
        rw [if_pos hdelta]
        exact hclean
      case isFalse hdelta =>
        rw [if_neg hdelta]
        exact ih hclean h

/-- **A cycle that settles leaves clean values.** -/
theorem cleanOn_resolveCycle {index : Nat} {iteration : Option Iteration} (hb : b.CleanOn P)
    (h : (resolveCycle engine index members iteration b).1.status = .converged) :
    (resolveCycle engine index members iteration b).2.CleanOn P := by
  cases iteration with
  | none => cases h
  | some limits => exact cleanOn_settle (hb.fill _ (Value.clean_number 0.0)) h

/-! ### Formulas that are supported -/

/-- The cell has no formula, or one that was read without anything unsupported in it. -/
def Supported (engine : Engine) (cell : GraphCell) : Prop :=
  cell.failed = false ∧ ∀ e, cell.expr = some e → ∃ source sheet f,
    engine.compile source sheet = .ok f ∧ f.expr = e ∧ f.unsupported = []

theorem clean_compute (hfunctions : engine.functions = .builtin) {cell : GraphCell}
    (hcell : cell.Within P) (hsupported : Supported engine cell) (hb : b.CleanOn P) {v : Value}
    (h : compute engine cell b = some v) : v.Clean := by
  rw [compute, hsupported.1] at h
  obtain ⟨e, he, rfl⟩ := Option.map_eq_some_iff.mp h
  obtain ⟨source, sheet, f, hf, rfl, hstatic⟩ := hsupported.2 e he
  have hwithin := hcell.reads f.expr he
  have hagree : b.source.AgreeOn f.expr.Footprint b.cleaned :=
    ⟨fun c hc => hb.agreeOn_cleaned.value c (hwithin.footprint c hc),
      fun r hr => hb.agreeOn_cleaned.boundIn r fun c hc => hwithin.footprint c (hr c hc)⟩
  rw [Engine.evaluate_congr hfunctions hwithin.wellFormed hagree]
  exact Engine.clean_evaluate hf hstatic b.clean_cleaned

/-! ### Runs -/

/-- The formulas of the region are supported. -/
def SoundRegion (engine : Engine) (g : Graph) (K : Nat → Bool) : Prop :=
  ∀ id n, K id = true → g.node? id = some n → Supported engine n.cell

/-- The cycles of the region that were run have settled. -/
def Settled (g : Graph) (K : Nat → Bool) (run : ClusterRun) : Prop :=
  ∀ o ∈ run.cycles, g.keeps K (.cycle o.cycle) = true → o.status = .converged

variable {g : Graph} {K : Nat → Bool} {s : State} {steps : List Step} {st : Step}

/-- **A step keeps a sound region clean.** -/
theorem cleanOn_step (hfunctions : engine.functions = .builtin) (hg : g.Faithful)
    (hregion : g.Region K steps) (hsound : SoundRegion engine g K) (hst : st ∈ steps)
    (hb : s.binding.CleanOn (g.Sees K)) (hsettled : Settled g K (step engine g s st).run) :
    (step engine g s st).binding.CleanOn (g.Sees K) := by
  cases hk : g.keeps K st with
  | false =>
    -- a step elsewhere does not show
    intro c v hc hv
    rw [(writes_step engine g s st).get? fun hw => hregion.not_sees hst hk hw hc] at hv
    exact hb c v hc hv
  | true =>
    cases st with
    | node id =>
      cases hn : g.node? id with
      | none =>
        rw [ClusterRun.step]
        simp only [hn]
        exact hb
      | some n =>
        have hid : K id = true := List.all_eq_true.mp hk id List.mem_cons_self
        cases hv : compute engine n.cell s.binding with
        | none => rwa [step_node_none hn hv]
        | some v =>
          rw [step_node_some hn hv]
          exact hb.set _ (clean_compute hfunctions (hregion.within hg hn hid)
            (hsound id n hid hn) hb hv)
    | cycle index =>
      cases hr : g.cycles[index]? with
      | none =>
        rw [ClusterRun.step]
        simp only [hr]
        exact hb
      | some r =>
        rw [ClusterRun.step] at hsettled ⊢
        simp only [hr] at hsettled ⊢
        refine cleanOn_resolveCycle hb (hsettled _ (List.mem_append_right _ List.mem_cons_self) ?_)
        rw [cycle_resolveCycle]
        exact hk

theorem mem_cycles_step {o : CycleOutcome} (ho : o ∈ s.run.cycles) (st : Step) :
    o ∈ (step engine g s st).run.cycles := by
  cases st with
  | node id =>
    rw [ClusterRun.step]
    split
    · exact ho
    · split <;> exact ho
  | cycle index =>
    rw [ClusterRun.step]
    split
    · exact ho
    · exact List.mem_append_left _ ho

theorem mem_cycles_foldl {o : CycleOutcome} (ho : o ∈ s.run.cycles) :
    o ∈ (steps.foldl (step engine g) s).run.cycles := by
  induction steps generalizing s with
  | nil => exact ho
  | cons st steps ih => exact ih (mem_cycles_step ho st)

/-- An outcome is that of a cycle of the graph, and the cycles without leave to repeat are those
that are rejected. -/
def FromCycle (g : Graph) (o : CycleOutcome) : Prop :=
  ∃ r, g.cycles[o.cycle]? = some r ∧ (o.status = .rejected ↔ r.iteration = none)

theorem status_settle_ne_rejected (engine : Engine) (index : Nat) (members : List GraphCell)
    (threshold : Float) (done left : Nat) (b : Binding) :
    (settle engine index members threshold done left b).1.status ≠ .rejected := by
  induction left generalizing done b with
  | zero => exact CycleStatus.noConfusion
  | succ left ih =>
    rw [settle]
    split
    · exact CycleStatus.noConfusion
    · split
      · exact CycleStatus.noConfusion
      · exact ih _ _

theorem fromCycle_step (hs : ∀ o ∈ s.run.cycles, FromCycle g o) (st : Step) :
    ∀ o ∈ (step engine g s st).run.cycles, FromCycle g o := by
  cases st with
  | node id =>
    rw [ClusterRun.step]
    split
    · exact hs
    · split <;> exact hs
  | cycle index =>
    cases hr : g.cycles[index]? with
    | none =>
      rw [ClusterRun.step]
      simp only [hr]
      exact hs
    | some r =>
      rw [ClusterRun.step]
      simp only [hr]
      intro o ho
      rcases List.mem_append.mp ho with ho | ho
      · exact hs o ho
      · rw [List.mem_singleton.mp ho]
        refine ⟨r, by rw [cycle_resolveCycle]; exact hr, ?_⟩
        cases r.iteration with
        | none => exact iff_of_true rfl rfl
        | some limits =>
          exact iff_of_false (status_settle_ne_rejected _ _ _ _ _ _ _) (Option.some_ne_none _)

theorem fromCycle_run (hs : ∀ o ∈ s.run.cycles, FromCycle g o) :
    ∀ o ∈ (steps.foldl (step engine g) s).run.cycles, FromCycle g o := by
  induction steps generalizing s with
  | nil => exact hs
  | cons st steps ih => exact ih (fromCycle_step hs st)

/-- **A run keeps a sound region clean.** -/
theorem cleanOn_run (hfunctions : engine.functions = .builtin) (hg : g.Faithful)
    (hregion : g.Region K steps) (hsound : SoundRegion engine g K)
    (hb : s.binding.CleanOn (g.Sees K))
    (hsettled : Settled g K (steps.foldl (step engine g) s).run) :
    (steps.foldl (step engine g) s).binding.CleanOn (g.Sees K) := by
  induction steps generalizing s with
  | nil => exact hb
  | cons st steps ih =>
    have hfirst : Settled g K (step engine g s st).run := by
      intro o ho
      exact hsettled o (mem_cycles_foldl (s := step engine g s st) ho)
    exact ih (hregion.sublist (List.sublist_cons_self st steps))
      (cleanOn_step hfunctions hg hregion hsound List.mem_cons_self hb hfirst) hsettled

end ClusterRun

end Recalc
