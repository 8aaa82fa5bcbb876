/-
Recalc/Proofs/Workbook/Report.lean

The report of a workbook is exact: its affected cells are the broken cells and what these
lead to, its blocked outputs are the declared outputs among them, the workbook can proceed
exactly if there are none, and every finding is told once, as critical exactly if it
involves a declared output (`Snapshot.exactReport_compile`).

Design.  A report is made of findings alone, so most of it holds for any findings about a
built graph (`exactReport_report`).  That the findings start at the broken cells is
`starts_recorded_iff`.
-/
import Recalc.Proofs.Workbook.Findings

open Relation

namespace Recalc

namespace Coordinate

/-- Different coordinates are sorted into a strict order. -/
theorem pairwise_lt_sort {cs : List Coordinate} (h : cs.Nodup) :
    (sort cs).Pairwise fun c d => compare c d = .lt := by
  have hnodup : (sort cs).Nodup := (List.mergeSort_perm cs le).nodup_iff.mpr h
  exact ((pairwise_le_sort cs).and hnodup).imp fun ⟨hle, hne⟩ => compare_eq_lt_of_le_of_ne hle hne

theorem sort_filter (p : Coordinate → Bool) (cs : List Coordinate) :
    sort (cs.filter p) = (sort cs).filter p := by
  have hperm : (sort (cs.filter p)).Perm ((sort cs).filter p) :=
    (List.mergeSort_perm _ le).trans ((List.mergeSort_perm cs le).filter p).symm
  exact eq_of_perm_of_pairwise_le hperm (pairwise_le_sort _) ((pairwise_le_sort cs).filter p)

end Coordinate

namespace Graph

/-- The cell is one of some cells, or these lead to it. -/
def Reached (g : Graph) (sources : Nat → Prop) (v : Nat) : Prop :=
  ∃ s, sources s ∧ ReflTransGen g.Adj s v

/-- There is a declared output at the coordinate. -/
def isOutputAt (g : Graph) (c : Coordinate) : Bool :=
  g.nodes.any fun n => n.coordinate == c && n.role == .output

/-- What a report owes the broken cells and the findings about them. -/
structure ExactReport (g : Graph) (broken : Nat → Prop) (found : List Finding)
    (r : ErrorReport) : Prop where
  /-- The findings start at the broken cells, at all of them and at no others. -/
  starts : ∀ v, (∃ f ∈ found, v ∈ f.sources) ↔ broken v
  /-- The broken cells and what these lead to are affected. -/
  affected : ∀ c, c ∈ r.affectedCells ↔
    ∃ v n, g.node? v = some n ∧ n.coordinate = c ∧ g.Reached broken v
  increasing : r.affectedCells.Pairwise fun c d => compare c d = .lt
  /-- The declared outputs among the affected cells are blocked. -/
  blocked : r.blockedOutputs = r.affectedCells.filter g.isOutputAt
  stops : r.canProceed = false ↔ r.blockedOutputs ≠ []
  /-- Every finding is told once. -/
  told : (r.criticalErrors ++ r.warnings).Perm (found.map g.issue)
  /-- A finding is critical exactly if it involves a declared output. -/
  critical : ∀ f ∈ found, (g.issue f ∈ r.criticalErrors ↔
    ∃ v n, g.node? v = some n ∧ n.role = .output ∧ g.Reached (· ∈ f.sources) v)
  warning : ∀ f ∈ found, (g.issue f ∈ r.warnings ↔
    ¬ ∃ v n, g.node? v = some n ∧ n.role = .output ∧ g.Reached (· ∈ f.sources) v)

/-! ### Reports of findings -/

variable {g : Graph} {findings : List Finding} {f : Finding} {v : Nat}

theorem isOutput_iff : g.isOutput v = true ↔ ∃ n, g.node? v = some n ∧ n.role = .output := by
  rw [isOutput, Option.any_eq_true]
  simp only [beq_iff_eq]

/-- A finding is critical if it involves a declared output. -/
theorem isCritical_issue_iff :
    (g.issue f).isCritical = true ↔ ∃ v ∈ g.involved f.sources, g.isOutput v = true := by
  rw [Issue.isCritical, Bool.not_eq_true', List.isEmpty_eq_false_iff_exists_mem]
  simp only [issue, mem_coordinates, List.mem_filter, isOutput_iff]
  grind

/-- The cells that some finding involves. -/
def affected (g : Graph) (findings : List Finding) : List Nat :=
  (List.range g.nodes.size).filter fun id =>
    (findings.map fun f => g.involved f.sources).any (·.contains id)

theorem mem_affected : v ∈ g.affected findings ↔ ∃ f ∈ findings, v ∈ g.involved f.sources := by
  have hlt {f : Finding} (hv : v ∈ g.involved f.sources) : v < g.nodes.size :=
    List.mem_range.mp (List.mem_of_mem_filter hv)
  simp only [affected, List.mem_filter, List.mem_range, List.any_map, List.any_eq_true,
    Function.comp, List.contains_iff_mem]
  grind

/-- A workbook can proceed if no affected cell is a declared output. -/
theorem canProceed_report_iff :
    (g.report findings).canProceed = true ↔ ∀ v ∈ g.affected findings, ¬ g.isOutput v = true := by
  have hissues : (g.report findings).canProceed = true ↔
      ∀ f ∈ findings, ¬ (g.issue f).isCritical = true := by
    rw [ErrorReport.canProceed, report, List.isEmpty_iff, List.filter_eq_nil_iff,
      List.forall_mem_map]
  simp only [hissues, isCritical_issue_iff, mem_affected]
  grind

theorem blockedOutputs_report_eq_nil_iff :
    (g.report findings).blockedOutputs = [] ↔
      ∀ v ∈ g.affected findings, ¬ g.isOutput v = true := by
  rw [List.eq_nil_iff_forall_not_mem]
  show (∀ c, c ∉ Coordinate.sort (g.coordinates ((g.affected findings).filter g.isOutput))) ↔ _
  simp only [Coordinate.sort, List.mem_mergeSort, mem_coordinates, List.mem_filter]
  constructor
  · intro hnone v hv houtput
    obtain ⟨n, hn, -⟩ := isOutput_iff.mp houtput
    exact hnone n.coordinate ⟨v, ⟨hv, houtput⟩, n, hn, rfl⟩
  · rintro hnone c ⟨v, ⟨hv, houtput⟩, -⟩
    exact hnone v hv houtput

end Graph

/-! ### Reports about built graphs -/

namespace GraphBuilder

variable {b : GraphBuilder} {v : Nat} {n : Node} {found : List Finding} {f : Finding}

theorem isOutputAt_coordinate (h : b.Indexed) (hn : b.build.node? v = some n) :
    b.build.isOutputAt n.coordinate = b.build.isOutput v := by
  have hother {m : Node} (hm : m ∈ b.build.nodes) (heq : m.coordinate = n.coordinate) : m = n := by
    obtain ⟨w, hw⟩ := Array.mem_iff_getElem?.mp hm
    obtain rfl := number_unique h hw hn heq
    exact Option.some.inj (hw.symm.trans hn)
  apply Bool.eq_iff_iff.mpr
  rw [Graph.isOutputAt, Graph.isOutput_iff, Array.any_eq_true']
  constructor
  · rintro ⟨m, hm, hboth⟩
    obtain ⟨hat, hrole⟩ := (Bool.and_eq_true _ _).mp hboth
    rw [hother hm (beq_iff_eq.mp hat)] at hrole
    exact ⟨n, hn, beq_iff_eq.mp hrole⟩
  · rintro ⟨m, hm, hrole⟩
    obtain rfl := Option.some.inj (hm.symm.trans hn)
    exact ⟨m, Array.mem_of_getElem? hm, by simp [hrole]⟩

theorem coordinates_filter_isOutput (h : b.Indexed) (ids : List Nat) :
    b.build.coordinates (ids.filter b.build.isOutput) =
      (b.build.coordinates ids).filter b.build.isOutputAt := by
  rw [Graph.coordinates, Graph.coordinates, Graph.nodesOf, Graph.nodesOf, List.map_filterMap,
    List.map_filterMap, List.filterMap_filter, List.filter_filterMap]
  apply List.filterMap_congr
  intro v _
  cases hn : b.build.node? v with
  | none => simp
  | some n => simp [Option.filter, isOutputAt_coordinate h hn]

/-- The findings affect what their sources reach. -/
theorem mem_affected_iff (h : b.Indexed) : v ∈ b.build.affected found ↔
    v < b.build.nodes.size ∧ b.build.Reached (fun s => ∃ f ∈ found, s ∈ f.sources) v := by
  simp only [Graph.mem_affected, mem_involved h, Graph.Reached]
  grind

/-- A finding is critical if its sources reach a declared output. -/
theorem isCritical_issue_build (h : b.Indexed) : (b.build.issue f).isCritical = true ↔
    ∃ v n, b.build.node? v = some n ∧ n.role = .output ∧ b.build.Reached (· ∈ f.sources) v := by
  have hlt {v : Nat} {n : Node} (hn : b.build.node? v = some n) : v < b.build.nodes.size :=
    (Array.getElem?_eq_some_iff.mp hn).1
  simp only [Graph.isCritical_issue_iff, mem_involved h, Graph.isOutput_iff, Graph.Reached]
  grind

/-- **The report of some findings is exact**, given where the findings start. -/
theorem exactReport_report (h : b.Indexed) {broken : Nat → Prop}
    (hstarts : ∀ v, (∃ f ∈ found, v ∈ f.sources) ↔ broken v) :
    b.build.ExactReport broken found (b.build.report found) := by
  have hblocked : (b.build.report found).blockedOutputs =
      (b.build.report found).affectedCells.filter b.build.isOutputAt := by
    show Coordinate.sort (b.build.coordinates ((b.build.affected found).filter b.build.isOutput)) =
      (Coordinate.sort (b.build.coordinates (b.build.affected found))).filter b.build.isOutputAt
    rw [coordinates_filter_isOutput h, Coordinate.sort_filter]
  have hsources : (fun v => ∃ f ∈ found, v ∈ f.sources) = broken :=
    funext fun v => propext (hstarts v)
  have hissue {f : Finding} (hf : f ∈ found) : b.build.issue f ∈ found.map b.build.issue :=
    List.mem_map_of_mem hf
  refine ⟨hstarts, fun c => ?_, ?_, hblocked, ?_, List.filter_append_perm _ _, fun f hf => ?_,
    fun f hf => ?_⟩
  · show c ∈ Coordinate.sort (b.build.coordinates (b.build.affected found)) ↔ _
    rw [Coordinate.sort, List.mem_mergeSort, Graph.mem_coordinates]
    simp only [mem_affected_iff h, hsources]
    constructor
    · rintro ⟨v, ⟨-, hreached⟩, n, hn, hc⟩
      exact ⟨v, n, hn, hc, hreached⟩
    · rintro ⟨v, n, hn, hc, hreached⟩
      exact ⟨v, ⟨(Array.getElem?_eq_some_iff.mp hn).1, hreached⟩, n, hn, hc⟩
  · exact Coordinate.pairwise_lt_sort (nodup_coordinates h (List.nodup_range.filter _))
  · rw [← Bool.not_eq_true, Graph.canProceed_report_iff, Ne,
      Graph.blockedOutputs_report_eq_nil_iff]
  · show b.build.issue f ∈ (found.map b.build.issue).filter Issue.isCritical ↔ _
    rw [List.mem_filter, isCritical_issue_build h]
    exact and_iff_right (hissue hf)
  · show b.build.issue f ∈ (found.map b.build.issue).filter (fun i => !i.isCritical) ↔ _
    rw [List.mem_filter, ← isCritical_issue_build h, Bool.not_eq_true', Bool.not_eq_true]
    exact and_iff_right (hissue hf)

end GraphBuilder

/-! ### Reports of workbooks -/

/-- **The report of a workbook is exact.**  The broken cells and all that these lead to are
affected, in order and each once; the declared outputs among them are blocked, and any of these
stops the workbook; and every finding is told once, as critical exactly if its sources are or lead
to a declared output. -/
theorem Snapshot.exactReport_compile {snapshot : Snapshot} {options : CompilerOptions}
    {enricher : Option Enricher} {comp : Compilation}
    (hcomp : snapshot.compile options enricher = .ok comp) :
    ∃ names, snapshot.nameTable = .ok names ∧
      let ctx := Compilation.context options ⟨names, .builtin, options.evalOptions⟩
        (snapshot.canonical names) comp.graph
      comp.graph.ExactReport (Compilation.Broken ctx (snapshot.canonical names))
        (Compilation.recorded ctx (snapshot.canonical names)) comp.errors := by
  obtain ⟨names, hnames, hcomp⟩ := Parser.ok_of_bind hcomp
  obtain ⟨⟨⟩, -, hcomp⟩ := Parser.ok_of_bind hcomp
  obtain ⟨b, hb, hgraph, -, herrors⟩ := Compilation.ofCells_eq_ok hcomp
  have hidx := (GraphBuilder.indexed_of_foldlM GraphBuilder.indexed_empty hb).1
  refine ⟨names, hnames, ?_⟩
  rw [hgraph, herrors, Compilation.findings_observedRuns hb]
  exact GraphBuilder.exactReport_report hidx fun v => Compilation.starts_recorded_iff hb

/-- What all graphs of some cells pass, the graph of their compilation passes. -/
theorem Compilation.graph_passes {options : CompilerOptions} {enricher : Option Enricher}
    {engine : Engine} {snapshot : Snapshot} {comp : Compilation}
    (hcomp : ofCells options enricher engine snapshot = .ok comp) {check : Graph → Bool}
    (h : (((readCells engine snapshot).filterMap (graphCell? snapshot options)).foldlM
      GraphBuilder.add .empty).toOption.all (fun b => check b.build) = true) :
    check comp.graph = true := by
  obtain ⟨b, hb, hgraph, -⟩ := ofCells_eq_ok hcomp
  rw [hb] at h
  rw [hgraph]
  exact h

namespace Snapshot

/-- A formula that ends too early. -/
def truncatedCell : ClassifiedCell := ⟨⟨"S", 2, 1⟩, .formula, some "=A1*", none, none, none⟩

/-- An input, a formula that ends too early, and an output that refers to it. -/
def truncated : Snapshot :=
  { sheets := ["S"],
    cells := [
      ⟨⟨"S", 1, 1⟩, .input, none, some (.number 2), none, none⟩,
      truncatedCell,
      ⟨⟨"S", 3, 1⟩, .output, some "=B1+1", none, none, none⟩],
    namedRanges := [],
    iteration := none }

def truncatedNames : NameTable := .ofLists [] ["S"]

/-- The second cell leads to the third one, which is a declared output. -/
def truncatedLink (g : Graph) : Bool :=
  (g.node? 1).any (·.coordinate == ⟨"S", 2, 1⟩) &&
    (g.node? 2).any (fun n => n.coordinate == ⟨"S", 3, 1⟩ && n.role == .output) &&
    g.edges.any fun e => e.source == 1 && e.target == 2

theorem exactReport_compile_truncated : ∃ comp,
    truncated.compile .standard none = .ok comp ∧ comp.errors.canProceed = false ∧
      ⟨"S", 3, 1⟩ ∈ comp.errors.blockedOutputs := by
  obtain ⟨comp, hcomp⟩ : ∃ comp, truncated.compile .standard none = .ok comp := by
    have hcompiles : (truncated.compile .standard none).isOk = true := by decide +kernel
    cases hcomp : truncated.compile .standard none with
    | error e =>
      rw [hcomp] at hcompiles
      cases hcompiles
    | ok comp => exact ⟨comp, rfl⟩
  obtain ⟨names, hnames, hexact⟩ := exactReport_compile hcomp
  obtain rfl : truncatedNames = names := Except.ok.inj hnames
  have hlink : truncatedLink comp.graph = true := by
    obtain ⟨names, hnames', hcells⟩ := Parser.ok_of_bind hcomp
    obtain rfl := Except.ok.inj (hnames.symm.trans hnames')
    obtain ⟨-, -, hcells⟩ := Parser.ok_of_bind hcells
    exact Compilation.graph_passes hcells (by decide +kernel)
  rw [truncatedLink, Bool.and_eq_true, Bool.and_eq_true, Option.any_eq_true, Option.any_eq_true,
    List.any_eq_true] at hlink
  obtain ⟨⟨⟨m, hm, hat⟩, n, hn, hplace⟩, e, he, hends⟩ := hlink
  rw [Bool.and_eq_true, beq_iff_eq, beq_iff_eq] at hplace hends
  -- the second cell is broken, as its formula cannot be read
  have hcell : truncatedCell ∈ (truncated.canonical truncatedNames).cells :=
    List.mem_of_getElem? (i := 1) rfl
  obtain ⟨error, hformula⟩ : ∃ error, (Compilation.readCell ⟨truncatedNames, .builtin,
      CompilerOptions.standard.evalOptions⟩ truncatedCell).formula = some (.error error) := by
    have hunread : ((Compilation.readCell ⟨truncatedNames, .builtin,
        CompilerOptions.standard.evalOptions⟩ truncatedCell).formula.any fun f => !f.isOk) = true :=
      by decide +kernel
    rw [Option.any_eq_true] at hunread
    obtain ⟨formula, hformula, hfails⟩ := hunread
    cases formula with
    | ok f => cases hfails
    | error error => exact ⟨error, hformula⟩
  have haffected := (hexact.affected ⟨"S", 3, 1⟩).mpr ⟨2, n, hn, hplace.1, 1,
    .unreadable hm hcell (beq_iff_eq.mp hat).symm hformula, .single ⟨e, he, hends⟩⟩
  have hblocked : ⟨"S", 3, 1⟩ ∈ comp.errors.blockedOutputs := by
    rw [hexact.blocked, List.mem_filter]
    refine ⟨haffected, Array.any_eq_true'.mpr ⟨n, Array.mem_of_getElem? hn, ?_⟩⟩
    rw [hplace.1, hplace.2]
    rfl
  exact ⟨comp, hcomp, hexact.stops.mpr (List.ne_nil_of_mem hblocked), hblocked⟩

end Snapshot

end Recalc
