/-
Recalc/Proofs/Workbook/Proceed.lean

What it means that a workbook can proceed.  Four faults tell of cells that could not be
computed: formulas that could not be read, cycles without leave to repeat, cycles that did
not settle, and references that are only known once computed.  Each of them is found where
it arises, and a finding involves everything that its fault can reach.  So if no finding
involves a declared output, no declared output is observed with one of these faults
(`Snapshot.proceeds_clean`).

Design.  The cells that no finding involves are a sound region (`soundRegion_uninvolved`),
and the runs with the stored inputs start with clean values; the rest is `cleanOn_run`.
-/
import Recalc.Proofs.Formula.Targets
import Recalc.Proofs.Workbook.Extraction
import Recalc.Proofs.Workbook.Report

open Relation

namespace Recalc

/-! ### What findings involve -/

/-- The cell is involved in none of the findings. -/
def Graph.uninvolved (g : Graph) (findings : List Finding) (v : Nat) : Bool :=
  findings.all fun f => !(g.involved f.sources).contains v

theorem Graph.uninvolved_iff {g : Graph} {findings : List Finding} {v : Nat} :
    g.uninvolved findings v = true ↔ ∀ f ∈ findings, v ∉ g.involved f.sources := by
  simp [uninvolved]

/-- Where a workbook can proceed, no finding involves a declared output. -/
theorem Graph.uninvolved_of_canProceed {g : Graph} {findings : List Finding} {v : Nat} {n : Node}
    (h : (g.report findings).canProceed = true) (hn : g.node? v = some n)
    (hrole : n.role = .output) : g.uninvolved findings v = true := by
  refine uninvolved_iff.mpr fun f hf hv => ?_
  exact canProceed_report_iff.mp h v (mem_affected.mpr ⟨f, hf, hv⟩) (isOutput_iff.mpr ⟨n, hn, hrole⟩)

/-- All findings are told. -/
theorem Graph.issues_report_ne_nil {g : Graph} {findings : List Finding} (h : findings ≠ []) :
    (g.report findings).issues ≠ [] := by
  intro hnil
  have hperm : (g.report findings).issues.Perm (findings.map g.issue) :=
    List.filter_append_perm _ _
  rw [hnil] at hperm
  exact h (List.map_eq_nil_iff.mp hperm.symm.eq_nil)

namespace GraphBuilder

variable {b : GraphBuilder} {v : Nat} {n : Node} {findings : List Finding}

theorem not_uninvolved {f : Finding} (h : b.Indexed) (hf : f ∈ findings) (hv : v ∈ f.sources)
    (hn : b.build.node? v = some n) : ¬ b.build.uninvolved findings v = true := by
  intro hout
  refine Graph.uninvolved_iff.mp hout f hf ((mem_involved h).mpr ⟨?_, v, hv, .refl⟩)
  exact (Array.getElem?_eq_some_iff.mp hn).1

/-- **The cells that no finding involves are a region.** -/
theorem region_uninvolved (h : b.Indexed) (findings : List Finding) :
    b.build.Region (b.build.uninvolved findings) b.build.schedule := by
  refine region_of_precedent h fun {x y} hadj hy => ?_
  rw [Graph.uninvolved_iff] at hy ⊢
  intro f hf hx
  obtain ⟨-, s, hs, hpath⟩ := (mem_involved h).mp hx
  exact hy f hf ((mem_involved h).mpr ⟨(adj_lt_size h hadj).2, s, hs, hpath.tail hadj⟩)

/-- Findings at cells that nothing depends on and that are no outputs are not critical. -/
theorem canProceed_report (h : b.Indexed)
    (hsink : ∀ f ∈ findings, ∀ s ∈ f.sources,
      (!b.build.isOutput s && b.build.edges.all (·.source != s)) = true) :
    (b.build.report findings).canProceed = true := by
  refine Graph.canProceed_report_iff.mpr fun v hv => ?_
  obtain ⟨f, hf, hv⟩ := Graph.mem_affected.mp hv
  obtain ⟨-, s, hs, hpath⟩ := (mem_involved h).mp hv
  obtain ⟨hrole, hedges⟩ := (Bool.and_eq_true _ _).mp (hsink f hf s hs)
  obtain rfl : s = v := by
    rcases ReflTransGen.cases_head hpath with heq | ⟨w, ⟨e, he, hsource, -⟩, -⟩
    · exact heq
    · exact absurd hsource (bne_iff_ne.mp (List.all_eq_true.mp hedges e he))
  exact Bool.not_eq_true _ ▸ (Bool.not_eq_true' _).mp hrole

/-- If references go to earlier cells only, there are no cycles. -/
theorem cycles_eq_nil_of_lt (h : b.Indexed)
    (hlt : (b.build.edges.all fun e => e.source < e.target) = true) : b.build.cycles = [] := by
  refine List.isEmpty_iff.mp ((isAcyclic_build_iff h).mpr fun v hv => ?_)
  have hpath {x y : Nat} (hxy : TransGen b.build.Adj x y) : x < y := by
    have hstep {x y : Nat} (hadj : b.build.Adj x y) : x < y := by
      obtain ⟨e, he, rfl, rfl⟩ := hadj
      exact of_decide_eq_true (List.all_eq_true.mp hlt e he)
    induction hxy with
    | single hadj => exact hstep hadj
    | tail _ hadj ih => exact ih.trans (hstep hadj)
  exact lt_irrefl v (hpath hv)

end GraphBuilder

/-! ### Formulas of a workbook -/

namespace Snapshot

/-- The names of a workbook stand for targets within the limits. -/
theorem inLimits_nameTable {s : Snapshot} {names : NameTable} (h : s.nameTable = .ok names) :
    names.InLimits := by
  obtain ⟨targets, rfl, htargets⟩ := nameTable_eq_ok h
  intro text n hn
  obtain ⟨range, -, -, r, hr, rfl⟩ := htargets n (NameTable.find?_ofLists hn).1
  rcases NameTable.inLimits_of_resolve hr with ⟨name, m, hm, -⟩ | hlimits
  · -- targets are resolved before there are names
    exact absurd (NameTable.find?_ofLists hm).1 List.not_mem_nil
  · exact hlimits

/-- Cells that are not computed hold clean values. -/
theorem clean_value (cell : ClassifiedCell) : cell.value.Clean := by
  unfold ClassifiedCell.value
  cases cell.currentValue with
  | none => exact Value.clean_empty
  | some stored =>
    show (stored.toValue cell.isDate).Clean
    cases stored with
    | number x =>
      rw [StoredValue.toValue]
      split <;> exact Value.clean_of_fault? rfl
    | boolean b => exact Value.clean_boolean b
    | text s =>
      rw [StoredValue.toValue]
      split
      case h_1 f hf => exact Value.clean_error.mpr (List.mem_of_find?_eq_some hf)
      case h_2 => exact Value.clean_text s

end Snapshot

theorem CellMap.mem_or_of_getElem?_foldl {l : List (Coordinate × Value)} {m : CellMap}
    {c : Coordinate} {v : Value}
    (h : (l.foldl (fun m (c, v) => m.insert c v) m)[c]? = some v) :
    (c, v) ∈ l ∨ m[c]? = some v := by
  induction l generalizing m with
  | nil => exact .inr h
  | cons p rest ih =>
    rcases ih h with hmem | hget
    · exact .inl (List.mem_cons_of_mem _ hmem)
    · rw [Std.TreeMap.getElem?_insert] at hget
      split at hget
      case isTrue heq =>
        obtain rfl := Option.some.inj hget
        exact .inl (Std.LawfulEqOrd.eq_of_compare heq ▸ List.mem_cons_self)
      case isFalse => exact .inr hget

/-- An entry of a map comes from the list that the map is of. -/
theorem CellMap.mem_of_getElem?_ofList {l : List (Coordinate × Value)} {c : Coordinate} {v : Value}
    (h : (CellMap.ofList l)[c]? = some v) : (c, v) ∈ l := by
  rcases CellMap.mem_or_of_getElem?_foldl h with hmem | hget
  · exact hmem
  · simp at hget

theorem Snapshot.clean_constants (s : Snapshot) {c : Coordinate} {v : Value}
    (h : s.constants[c]? = some v) : v.Clean := by
  obtain ⟨cell, -, heq⟩ := List.mem_map.mp (CellMap.mem_of_getElem?_ofList h)
  rw [← (Prod.mk.inj heq).2]
  exact clean_value cell

/-! ### Tests with the stored inputs -/

namespace Synthesis

variable {ctx : RunContext} {c : Cluster}

theorem mem_foldl_addInputs {tolerance : Float} {ts acc : List TestInputs} {t : TestInputs}
    (h : t ∈ ts.foldl (addInputs tolerance) acc) : t ∈ acc ∨ t ∈ ts := by
  induction ts generalizing acc with
  | nil => exact .inl h
  | cons u rest ih =>
    rcases ih h with hacc | hrest
    · unfold addInputs at hacc
      split at hacc
      · exact .inl hacc
      · rcases List.mem_append.mp hacc with hacc | hnew
        · exact .inl hacc
        · exact .inr (List.mem_singleton.mp hnew ▸ List.mem_cons_self)
    · exact .inr (List.mem_cons_of_mem _ hrest)

theorem origin_of_mem_candidates {step : Float} {cell : ClassifiedCell} {current : Value}
    {p : TestOrigin × Value} (h : p ∈ candidates step cell current) : p.1 ≠ .observed := by
  unfold candidates at h
  extract_lets number least most numbers choices at h
  have hnumber (x : Float) : (number x).1 ≠ .observed := by
    dsimp only [number]
    exact TestOrigin.noConfusion
  have hnumbers : ∀ q ∈ numbers, q.1 ≠ .observed := by
    intro q hq
    dsimp only [numbers] at hq
    split at hq
    · simp only [List.cons_append, List.mem_cons, List.mem_append, List.mem_flatMap,
        List.not_mem_nil, or_false] at hq
      rcases hq with rfl | ⟨x, -, rfl | rfl⟩ | ⟨x, -, rfl | rfl⟩ <;> exact hnumber _
    · cases hq
  rcases List.mem_append.mp h with h | h
  · exact hnumbers p h
  · obtain ⟨v, -, rfl⟩ := List.mem_map.mp h
    exact TestOrigin.noConfusion

/-- Only the first set of inputs is the stored one. -/
theorem eq_observed_of_mem_allInputs {t : TestInputs} (h : t ∈ allInputs ctx c)
    (horigin : t.origin = .observed) : t.inputs = observedInputs ctx c := by
  rcases mem_foldl_addInputs h with hfirst | hchanged
  · rw [List.mem_singleton.mp hfirst]
  · obtain ⟨⟨x, current⟩, -, ht⟩ := List.mem_flatMap.mp hchanged
    dsimp only at ht
    split at ht
    · split at ht
      · obtain ⟨p, hp, rfl⟩ := List.mem_map.mp ht
        exact absurd horigin (origin_of_mem_candidates hp)
      · cases ht
    · cases ht

/-- The inputs of a test, with their origin. -/
def given (t : TestCase) : TestInputs := ⟨t.origin, t.inputs⟩

/-- The outputs that a trial gives. -/
def outputsOf (ctx : RunContext) (c : Cluster) (t : Trial) : CellMap :=
  CellMap.ofList ((ctx.graph.nodesOf c.outputs).map fun n =>
    (n.coordinate, t.value ctx n.coordinate))

/-- A test has the inputs and the outputs of its trial. -/
theorem map_testCases (ctx : RunContext) (c : Cluster) (before : List TestOrigin)
    (trials : List Trial) :
    (testCases ctx c before trials).map (fun t => (given t, t.expectedOutputs)) =
      trials.map fun t => (t.inputs, outputsOf ctx c t) := by
  induction trials generalizing before with
  | nil => rfl
  | cons t rest ih =>
    rw [testCases, List.map_cons, ih, List.map_cons]
    rfl

theorem map_given_tests (ctx : RunContext) (c : Cluster) :
    (ofCluster ctx c).tests.map given = allInputs ctx c := by
  have hpairs := congrArg (List.map Prod.fst) (map_testCases ctx c [] ((allInputs ctx c).map
    fun t => ⟨t, c.run ctx.engine ctx.graph ctx.constants t.inputs⟩))
  simp only [List.map_map] at hpairs
  refine Eq.trans ?_ (hpairs.trans ?_)
  · rfl
  · exact List.map_id _

/-- **A test expects what the run with its inputs gives.** -/
theorem expectedOutputs_of_mem {t : TestCase} (h : t ∈ (ofCluster ctx c).tests) :
    t.expectedOutputs =
      outputsOf ctx c ⟨given t, c.run ctx.engine ctx.graph ctx.constants t.inputs⟩ := by
  have hmem := List.mem_map_of_mem (f := fun t => (given t, t.expectedOutputs)) h
  rw [ofCluster] at hmem
  dsimp only at hmem
  rw [map_testCases, List.map_map] at hmem
  obtain ⟨inputs, -, heq⟩ := List.mem_map.mp hmem
  obtain ⟨hgiven, houtputs⟩ := Prod.mk.inj heq
  subst hgiven
  exact houtputs.symm

/-- What a test with the stored inputs expects are values of the observed run. -/
theorem eq_of_expected {t : TestCase} (ht : t ∈ (ofCluster ctx c).tests)
    (horigin : t.origin = .observed) {x : Coordinate} {v : Value}
    (hv : t.expectedOutputs[x]? = some v) :
    v = (((ofCluster ctx c).observed.computed[x]?.or (observedInputs ctx c)[x]?).or
      ctx.constants[x]?).getD .empty := by
  have hgiven : given t ∈ allInputs ctx c := by
    rw [← map_given_tests]
    exact List.mem_map_of_mem ht
  have hstored : t.inputs = observedInputs ctx c := eq_observed_of_mem_allInputs hgiven horigin
  rw [expectedOutputs_of_mem ht, outputsOf] at hv
  obtain ⟨n, -, hn⟩ := List.mem_map.mp (CellMap.mem_of_getElem?_ofList hv)
  obtain ⟨rfl, rfl⟩ := Prod.mk.inj hn
  rw [observed_ofCluster, ← hstored]
  rfl

end Synthesis

/-! ### Cells and their findings -/

namespace Compilation

variable {options : CompilerOptions} {enricher : Option Enricher} {engine : Engine}
  {snapshot : Snapshot} {comp : Compilation} {b : GraphBuilder}

theorem plain_of_mem (hnames : engine.names.InLimits) {cell : GraphCell}
    (hcell : cell ∈ (readCells engine snapshot).filterMap (graphCell? snapshot options))
    (huntargeted : ∀ e, cell.expr = some e → e.targetCalls = []) : cell.Plain := by
  obtain ⟨r, hr, hgraph⟩ := List.mem_filterMap.mp hcell
  obtain ⟨classified, -, rfl⟩ := List.mem_map.mp hr
  obtain ⟨-, -, hformula⟩ := graphCell?_eq_some hgraph
  refine ⟨fun e he => ?_, huntargeted⟩
  split at hformula
  case h_1 f hf =>
    rw [hformula.1] at he
    obtain rfl := Option.some.inj he
    obtain ⟨-, hcompile⟩ := formula_readCell hf
    exact (Formula.readable_parse hcompile).1.wellFormed hnames
  all_goals
    rw [hformula.1] at he
    cases he

section Findings

variable (hb : ((readCells engine snapshot).filterMap (graphCell? snapshot options)).foldlM
  GraphBuilder.add .empty = .ok b) (runs : List ClusterRun)
include hb

/-- **Where no finding is involved, formulas are supported.** -/
theorem soundRegion_uninvolved : ClusterRun.SoundRegion engine b.build
    (b.build.uninvolved (findings b.build (readCells engine snapshot) runs)) := by
  intro id n hid hn
  have hidx := (GraphBuilder.indexed_of_foldlM GraphBuilder.indexed_empty hb).1
  rcases GraphBuilder.mem_or_input_of_node? hb hn with hcell | ⟨hexpr, hfailed⟩
  case inr =>
    refine ⟨hfailed, fun e he => ?_⟩
    rw [hexpr] at he
    cases he
  case inl =>
    obtain ⟨r, hr, hgraph⟩ := List.mem_filterMap.mp hcell
    obtain ⟨classified, -, rfl⟩ := List.mem_map.mp hr
    obtain ⟨hcoordinate, -, hformula⟩ := graphCell?_eq_some hgraph
    have hnode : b.build.nodeId? (readCell engine classified).cell.coordinate = some id := by
      rw [← hcoordinate]
      exact GraphBuilder.nodeId?_coordinate hidx hn
    -- a finding that starts at the cell would involve it
    have hnone : ¬ ∃ f ∈ findings b.build (readCells engine snapshot) runs, id ∈ f.sources := by
      rintro ⟨f, hf, hsource⟩
      exact GraphBuilder.not_uninvolved hidx hf hsource hn hid
    rw [starts_findings_iff] at hnone
    split at hformula
    case h_1 f hf =>
      obtain ⟨-, hcompile⟩ := formula_readCell hf
      refine ⟨hformula.2, fun e he => ⟨_, _, f, hcompile, ?_, ?_⟩⟩
      · rw [hformula.1] at he
        exact Option.some.inj he
      · by_contra hcalls
        exact hnone (.inr (.inr (.inr ⟨_, hr, ⟨hnode, f, hf, hcalls⟩, n, hn⟩)))
    case h_2 e he => exact absurd (.inl ⟨_, hr, hnode, e, he⟩) hnone
    case h_3 =>
      refine ⟨hformula.2, fun e he => ?_⟩
      rw [hformula.1] at he
      cases he

/-- **Where no finding is involved, cycles settle.** -/
theorem settled_uninvolved {run : ClusterRun} (hrun : run ∈ runs)
    (hcycles : ∀ o ∈ run.cycles, ClusterRun.FromCycle b.build o) :
    ClusterRun.Settled b.build
      (b.build.uninvolved (findings b.build (readCells engine snapshot) runs)) run := by
  intro o ho hkeeps
  have hidx := (GraphBuilder.indexed_of_foldlM GraphBuilder.indexed_empty hb).1
  obtain ⟨r, hr, hrejected⟩ := hcycles o ho
  have hstep : Step.cycle o.cycle ∈ b.build.schedule :=
    (GraphBuilder.cycle_mem_schedule_iff hidx).mpr (List.getElem?_eq_some_iff.mp hr).1
  have hmembers : b.build.members (.cycle o.cycle) = r.members := by
    rw [Graph.members, hr]
    rfl
  obtain ⟨x, hx⟩ := List.exists_mem_of_ne_nil _ (GraphBuilder.members_ne_nil hidx hstep)
  obtain ⟨n, hn⟩ : ∃ n, b.build.node? x = some n :=
    ⟨_, Array.getElem?_eq_getElem ((GraphBuilder.members_build hidx hstep).2 x hx)⟩
  have hkept := List.all_eq_true.mp hkeeps x hx
  rw [hmembers] at hx
  -- a finding about the cycle would involve its members
  have hnone : ¬ ∃ f ∈ findings b.build (readCells engine snapshot) runs, x ∈ f.sources := by
    rintro ⟨f, hf, hsource⟩
    exact GraphBuilder.not_uninvolved hidx hf hsource hn hkept
  rw [starts_findings_iff] at hnone
  have hlist := GraphBuilder.cycle_ne_nil hidx (List.mem_of_getElem? hr)
  have hunsettled : ¬ o.Unsettled := fun hstatus =>
    hnone (.inr (.inr (.inl ⟨o, List.mem_flatMap.mpr ⟨run, hrun, ho⟩, hstatus, r, hr, hlist, hx⟩)))
  cases hstatus : o.status with
  | converged => rfl
  | didNotConverge => exact absurd (.inl hstatus) hunsettled
  | nonNumeric => exact absurd (.inr hstatus) hunsettled
  | rejected =>
    have hiteration := hrejected.mp hstatus
    exact absurd (.inr (.inl ⟨r, List.mem_of_getElem? hr, hiteration, hlist, hx⟩)) hnone

end Findings

/-! ### Observed values -/

/-- The value is observed for the cell: told with its formula, or expected by a test with the stored
inputs. -/
def Observes (comp : Compilation) (c : Coordinate) (v : Value) : Prop :=
  ∃ result ∈ comp.results, (∃ cell ∈ result.cells, cell.coordinate = c ∧ cell.value = v) ∨
    ∃ t ∈ result.tests, t.origin = .observed ∧ t.expectedOutputs[c]? = some v

/-- A run with the stored inputs starts with clean values if the stored values are clean. -/
theorem clean_start (ctx : RunContext) (c : Cluster)
    (hconstants : ∀ (x : Coordinate) (v : Value), ctx.constants[x]? = some v → v.Clean)
    (P : Coordinate → Prop) :
    Binding.CleanOn P ⟨ctx.constants, Synthesis.observedInputs ctx c⟩ := by
  intro x v _ hv
  rcases Option.or_eq_some_iff.mp hv with hinput | ⟨-, hconstant⟩
  · obtain ⟨n, -, heq⟩ := List.mem_map.mp (CellMap.mem_of_getElem?_ofList hinput)
    rw [← (Prod.mk.inj heq).2]
    exact Value.clean_getD (hconstants _)
  · exact hconstants x v hconstant

/-- **The runs with the stored inputs keep clean what no finding involves.** -/
theorem clean_observed (hfunctions : engine.functions = .builtin)
    (hb : ((readCells engine snapshot).filterMap (graphCell? snapshot options)).foldlM
      GraphBuilder.add .empty = .ok b)
    (hplain : ∀ cell ∈ (readCells engine snapshot).filterMap (graphCell? snapshot options),
      cell.Plain) {c : Cluster} (hc : c ∈ b.build.clusters)
    (hlogic : hasLogic b.build c = true) {id : Nat} {n : Node} (hn : b.build.node? id = some n)
    (hid : b.build.uninvolved (findings b.build (readCells engine snapshot)
      (observedRuns (context options engine snapshot b.build))) id = true) {v : Value}
    (hv : ((Synthesis.ofCluster (context options engine snapshot b.build) c).observed.computed[
        n.coordinate]?.or
      ((Synthesis.observedInputs (context options engine snapshot b.build) c)[n.coordinate]?.or
        snapshot.constants[n.coordinate]?)) = some v) : v.Clean := by
  have hidx := (GraphBuilder.indexed_of_foldlM GraphBuilder.indexed_empty hb).1
  have hg := GraphBuilder.faithful_build hb hplain
  have hsub := GraphBuilder.schedule_sublist hc
  have hstart := clean_start (context options engine snapshot b.build) c
    (fun x w hw => snapshot.clean_constants hw)
    (b.build.Sees (b.build.uninvolved (findings b.build (readCells engine snapshot)
      (observedRuns (context options engine snapshot b.build)))))
  have hrun : (Synthesis.ofCluster (context options engine snapshot b.build) c).observed ∈
      observedRuns (context options engine snapshot b.build) :=
    List.mem_map_of_mem (List.mem_map_of_mem (List.mem_filter.mpr ⟨hc, hlogic⟩))
  rw [Synthesis.observed_ofCluster, Cluster.run, ClusterRun.ofSchedule] at hrun hv
  have hsettled := settled_uninvolved hb _ hrun
    (ClusterRun.fromCycle_run fun o ho => by cases ho)
  have hclean := ClusterRun.cleanOn_run hfunctions hg
    ((GraphBuilder.region_uninvolved hidx _).sublist hsub) (soundRegion_uninvolved hb _) hstart
    hsettled
  have hprogress := (ClusterRun.progress_start engine b.build snapshot.constants
    (Synthesis.observedInputs (context options engine snapshot b.build) c)).run hfunctions hg
      (((GraphBuilder.sequence_build hidx).sublist hsub : b.build.Sequence ([] ++ c.schedule)))
  refine hclean n.coordinate v (hg.sees hn hid) ?_
  rw [← hv]
  exact (hprogress.get?_binding n.coordinate).trans (ClusterRun.get?_final _ _ _ _)

/-- A declared output of a workbook that can proceed is observed with clean values only. -/
theorem clean_of_observes (hfunctions : engine.functions = .builtin)
    (hnames : engine.names.InLimits)
    (hcomp : ofCells options enricher engine snapshot = .ok comp)
    (huntargeted : ∀ n ∈ comp.graph.nodes, ∀ e, n.cell.expr = some e → e.targetCalls = [])
    (hproceed : comp.errors.canProceed = true) {id : Nat} {n : Node}
    (hn : comp.graph.node? id = some n) (hrole : n.role = .output) {v : Value}
    (hv : comp.Observes n.coordinate v) : v.Clean := by
  obtain ⟨b, hb, hgraph, hresults, herrors⟩ := ofCells_eq_ok hcomp
  rw [hgraph] at huntargeted hn
  rw [herrors] at hproceed
  have hid := Graph.uninvolved_of_canProceed hproceed hn hrole
  have hplain : ∀ cell ∈ (readCells engine snapshot).filterMap (graphCell? snapshot options),
      cell.Plain := by
    intro cell hcell
    obtain ⟨w, m, hm, rfl⟩ := GraphBuilder.exists_node?_of_mem hb hcell
    exact plain_of_mem hnames hcell (huntargeted m (Array.mem_of_getElem? hm))
  obtain ⟨result, hresult, hseen⟩ := hv
  rw [hresults] at hresult
  obtain ⟨c, hc, rfl⟩ := List.mem_map.mp hresult
  obtain ⟨hc, hlogic⟩ := List.mem_filter.mp hc
  have hclean {w : Value} := clean_observed (v := w) hfunctions hb hplain hc hlogic hn hid
  rcases hseen with ⟨logic, hcell, hcoordinate, rfl⟩ | ⟨t, ht, horigin, hexpected⟩
  · obtain ⟨m, -, rfl⟩ := List.mem_map.mp hcell
    rw [cellLogic] at hcoordinate ⊢
    dsimp only at hcoordinate ⊢
    rw [hcoordinate]
    refine Value.clean_getD fun w hw => ?_
    rcases Option.or_eq_some_iff.mp hw with hcomputed | ⟨-, hconstant⟩
    · exact hclean (Option.or_eq_some_iff.mpr (.inl hcomputed))
    · exact snapshot.clean_constants hconstant
  · rw [Synthesis.eq_of_expected ht horigin hexpected, Option.or_assoc]
    exact Value.clean_getD fun w hw => hclean hw

/-- The value of a cell is observed for it. -/
theorem observes_of_value? {x : Coordinate} {v : Value} (h : comp.value? x = some v) :
    comp.Observes x v := by
  obtain ⟨result, hresult, cell, hcell, hvalue⟩ := exists_logic_of_value? h
  exact ⟨result, hresult, .inl ⟨cell, hcell, hvalue⟩⟩

/-- Every declared output with a formula has a value. -/
theorem exists_value? (hcomp : ofCells options enricher engine snapshot = .ok comp) {id : Nat}
    {n : Node} (hn : comp.graph.node? id = some n) (hrole : n.role = .output)
    (hlogic : n.hasLogic = true) : ∃ v, comp.value? n.coordinate = some v := by
  obtain ⟨r, hr, l, hl, hcoordinate⟩ := exists_logic_of_node hcomp hn
    (hrole ▸ Role.noConfusion : n.role ≠ .input) hlogic
  exact ⟨l.value, (value?_eq_some_iff hcomp).mpr ⟨r, hr, l, hl, hcoordinate, rfl⟩⟩

/-- A declared output is in the graph, and has logic there if it is computed. -/
theorem exists_output (hcomp : ofCells options enricher engine snapshot = .ok comp)
    {cell : ClassifiedCell} (hcell : cell ∈ snapshot.cells) (hrole : cell.role = .output) :
    ∃ id n, comp.graph.node? id = some n ∧ n.coordinate = cell.coordinate ∧ n.role = .output ∧
      (cell.isComputed = true → n.hasLogic = true) := by
  obtain ⟨b, hb, hgraph, -, -⟩ := ofCells_eq_ok hcomp
  obtain ⟨id, n, hn, hsome⟩ := exists_node_of_mem hb hcell
    (hrole ▸ CellRole.noConfusion : cell.role ≠ .label)
  obtain ⟨hcoordinate, hnode, hformula⟩ := graphCell?_eq_some hsome
  refine ⟨id, n, hgraph ▸ hn, hcoordinate, ?_, fun hcomputed => ?_⟩
  · rw [readCell, hrole] at hnode
    exact (Option.some.inj hnode).symm
  · rw [Node.hasLogic]
    split at hformula
    case h_1 => rw [hformula.1]; rfl
    case h_2 => rw [hformula.2, Bool.or_true]
    case h_3 hnone =>
      rw [readCell, if_pos hcomputed] at hnone
      cases hnone

end Compilation

/-- **A workbook that can proceed observes no failure in a declared output.**  Its declared
outputs with a formula have values, and neither these nor what tests expect for the stored inputs
are faults of formulas that could not be read, of cycles, or of unsupported references. -/
theorem Snapshot.proceeds_clean {snapshot : Snapshot} {options : CompilerOptions}
    {enricher : Option Enricher} {comp : Compilation} {names : NameTable}
    (hcomp : snapshot.compile options enricher = .ok comp)
    (huntargeted : ∀ n ∈ comp.graph.nodes, ∀ e, n.cell.expr = some e → e.targetCalls = [])
    (hproceed : comp.errors.canProceed = true) (hnames : snapshot.nameTable = .ok names)
    {cell : ClassifiedCell} (hcell : cell ∈ (snapshot.canonical names).cells)
    (hrole : cell.role = .output) :
    (cell.isComputed = true →
      ∃ v, comp.value? cell.coordinate = some v ∧ comp.Observes cell.coordinate v) ∧
      ∀ v, comp.Observes cell.coordinate v →
        ∀ f ∈ [Fault.invalid, .circular, .noConverge, .unsupported], v ≠ .error f := by
  obtain ⟨names', hnames', hcomp⟩ := Parser.ok_of_bind hcomp
  obtain rfl : names = names' := Except.ok.inj (hnames.symm.trans hnames')
  obtain ⟨⟨⟩, -, hcomp⟩ := Parser.ok_of_bind hcomp
  obtain ⟨id, n, hn, hcoordinate, hnode, hlogic⟩ := Compilation.exists_output hcomp hcell hrole
  rw [← hcoordinate]
  constructor
  · intro hcomputed
    obtain ⟨v, hv⟩ := Compilation.exists_value? hcomp hn hnode (hlogic hcomputed)
    exact ⟨v, hv, Compilation.observes_of_value? hv⟩
  · rintro v hv f hf rfl
    have hclean := Compilation.clean_of_observes rfl (inLimits_nameTable hnames) hcomp huntargeted
      hproceed hn hnode hv
    have hspelled : ∀ g ∈ [Fault.invalid, .circular, .noConverge, .unsupported],
        g ∉ Fault.spelled := by decide
    exact hspelled f hf (Value.clean_error.mp hclean)

namespace Snapshot

/-- An input, an output that adds to it, and a formula that ends too early. -/
def unfinished : Snapshot :=
  { sheets := ["S"],
    cells := [
      ⟨⟨"S", 1, 1⟩, .input, none, some (.number 2), none, none⟩,
      ⟨⟨"S", 2, 1⟩, .output, some "=A1+1", none, none, none⟩,
      ⟨⟨"S", 3, 1⟩, .formula, some "=B1+", none, none, none⟩],
    namedRanges := [],
    iteration := none }

/-- The names of the unfinished workbook. -/
def unfinishedNames : NameTable := .ofLists [] ["S"]

def unfinishedEngine : Engine := ⟨unfinishedNames, .builtin, CompilerOptions.standard.evalOptions⟩

def unfinishedCells : List Compilation.ReadCell :=
  Compilation.readCells unfinishedEngine (unfinished.canonical unfinishedNames)

/-- The graph of the unfinished workbook passes a check. -/
def unfinishedPasses (check : Graph → Bool) : Bool :=
  ((unfinishedCells.filterMap (Compilation.graphCell? (unfinished.canonical unfinishedNames)
    .standard)).foldlM GraphBuilder.add .empty).toOption.all fun b => check b.build

/-- The formula that ends too early is found, but nothing depends on it. -/
theorem proceeds_clean_unfinished : ∃ comp,
    unfinished.compile .standard none = .ok comp ∧ comp.errors.issues ≠ [] ∧
      comp.errors.canProceed = true ∧ ∃ v, comp.value? ⟨"S", 2, 1⟩ = some v ∧
        ∀ f ∈ [Fault.invalid, .circular, .noConverge, .unsupported], v ≠ .error f := by
  obtain ⟨comp, hcomp⟩ : ∃ comp, unfinished.compile .standard none = .ok comp := by
    have hcompiles : (unfinished.compile .standard none).isOk = true := by decide +kernel
    cases hcomp : unfinished.compile .standard none with
    | error e =>
      rw [hcomp] at hcompiles
      cases hcompiles
    | ok comp => exact ⟨comp, rfl⟩
  have hnames : unfinished.nameTable = .ok unfinishedNames := rfl
  have hcells : Compilation.ofCells .standard none unfinishedEngine
      (unfinished.canonical unfinishedNames) = .ok comp := by
    obtain ⟨names, hnames', hcells⟩ := Parser.ok_of_bind hcomp
    obtain rfl := Except.ok.inj (hnames.symm.trans hnames')
    obtain ⟨-, -, hcells⟩ := Parser.ok_of_bind hcells
    exact hcells
  obtain ⟨b, hb, hgraph, -, herrors⟩ := Compilation.ofCells_eq_ok hcells
  have hidx := (GraphBuilder.indexed_of_foldlM GraphBuilder.indexed_empty hb).1
  have hpass (check : Graph → Bool) (h : unfinishedPasses check = true) :
      check b.build = true := by
    rw [unfinishedPasses, unfinishedCells, hb] at h
    exact h
  have hcycles := GraphBuilder.cycles_eq_nil_of_lt hidx
    (hpass (fun g => g.edges.all fun e => e.source < e.target) (by decide +kernel))
  have hcalls := hpass (fun g => (unfinishedCells.flatMap
    (Compilation.unsupportedCalls g)).isEmpty) (by decide +kernel)
  have hfound := hpass (fun g => !(unfinishedCells.filterMap
    (Compilation.formulaFinding? g)).isEmpty) (by decide +kernel)
  have hsinks := hpass (fun g => (unfinishedCells.filterMap
    (Compilation.formulaFinding? g)).all fun f => f.sources.all fun s =>
      !g.isOutput s && g.edges.all (·.source != s)) (by decide +kernel)
  have huntargeted := hpass (fun g => g.nodes.all fun n =>
    n.cell.expr.all (·.targetCalls.isEmpty)) (by decide +kernel)
  -- only formulas that could not be read are found
  have hfindings (runs : List ClusterRun) : Compilation.findings b.build unfinishedCells runs =
      unfinishedCells.filterMap (Compilation.formulaFinding? b.build) := by
    have houtcomes : (runs.flatMap ClusterRun.cycles).filterMap
        (Compilation.outcomeFinding? b.build) = [] := by
      refine List.filterMap_eq_nil_iff.mpr fun o _ => ?_
      rw [Compilation.outcomeFinding?, hcycles]
      rfl
    rw [Compilation.findings, List.isEmpty_iff.mp hcalls, hcycles, houtcomes]
    simp
  rw [← unfinishedCells, hfindings] at herrors
  have hproceed : comp.errors.canProceed = true := by
    rw [herrors]
    refine GraphBuilder.canProceed_report hidx fun f hf s hs => ?_
    exact List.all_eq_true.mp (List.all_eq_true.mp hsinks f hf) s hs
  have hissues : comp.errors.issues ≠ [] := by
    rw [Bool.not_eq_true', List.isEmpty_eq_false_iff] at hfound
    rw [herrors]
    exact Graph.issues_report_ne_nil hfound
  have hplain : ∀ n ∈ comp.graph.nodes, ∀ e, n.cell.expr = some e → e.targetCalls = [] := by
    intro n hn e he
    rw [hgraph] at hn
    have hnode := Array.all_eq_true_iff_forall_mem.mp huntargeted n hn
    rw [he] at hnode
    exact List.isEmpty_iff.mp hnode
  have hcell : ⟨⟨"S", 2, 1⟩, .output, some "=A1+1", none, none, none⟩ ∈
      (unfinished.canonical unfinishedNames).cells := List.mem_of_getElem? (i := 1) rfl
  obtain ⟨hvalue, hclean⟩ := proceeds_clean hcomp hplain hproceed hnames hcell rfl
  obtain ⟨v, hv, hobserves⟩ := hvalue (by decide +kernel)
  exact ⟨comp, hcomp, hissues, hproceed, v, hv, hclean v hobserves⟩

end Snapshot

end Recalc
