/-
Recalc/Proofs/Workbook/Sheets.lean

One spelling for every sheet.  The graph of a workbook that compiles lies on the sheets of
the workbook, and no two of its nodes differ in the case of their sheets only, whether
they stand for classified cells, for cells that a formula refers to, or for cells that a
name stands for.  So two cells that differ in the case of their sheets only are refused
(`unified_compile`).

Design.  Every way to a sheet goes through the table of sheets: cells are respelled, a
qualifier is looked up, a reference without one lies on the sheet of its cell, and the
target of a name is qualified.  `mem_sheetNames_of_reaches` has these cases once.
-/
import Recalc.Proofs.Workbook.Findings
import Recalc.Proofs.Workbook.Snapshot

namespace Recalc

open Text

/-- The graph knows its sheets under one spelling each. -/
structure Graph.Unified (g : Graph) (sheets : List String) : Prop where
  /-- Every node lies on one of the sheets. -/
  listed : ∀ v n, g.node? v = some n → n.coordinate.sheet ∈ sheets
  /-- No two nodes differ in the case of their sheets only. -/
  one : ∀ u v m n, g.node? u = some m → g.node? v = some n →
    m.coordinate.column = n.coordinate.column → m.coordinate.row = n.coordinate.row →
    sameIgnoringCase m.coordinate.sheet n.coordinate.sheet = true → u = v

/-- Two cells differ in the case of their sheets at most. -/
def Snapshot.Clashes (s : Snapshot) : Prop :=
  ∃ (i j : Nat) (c d : ClassifiedCell), i ≠ j ∧ s.cells[i]? = some c ∧ s.cells[j]? = some d ∧
    c.coordinate.column = d.coordinate.column ∧ c.coordinate.row = d.coordinate.row ∧
    sameIgnoringCase c.coordinate.sheet d.coordinate.sheet = true

/-! ### Sheets of formulas -/

/-- **A reference reaches sheets of the workbook only.** -/
theorem Snapshot.mem_sheetNames_of_reaches {s : Snapshot} {ctx : FormulaContext}
    (hnames : s.nameTable = .ok ctx.names) (hsheet : ctx.sheet ∈ s.sheetNames) {sheet : String}
    (h : ctx.Reaches sheet) : sheet ∈ s.sheetNames := by
  have hlisted {q t : String} (hq : ctx.names.canonicalSheet? q = some t) : t ∈ s.sheetNames := by
    rw [canonicalSheet?_nameTable hnames] at hq
    exact (NameTable.mem_of_canonicalSheet? (List.ne_nil_of_mem hsheet) hq).1
  rcases h with ⟨q, hq⟩ | rfl | ⟨text, n, hn, rfl⟩
  · exact hlisted hq
  · cases hcurrent : ctx.names.canonicalSheet? ctx.sheet with
    | none => exact hsheet
    | some t => exact hlisted hcurrent
  · obtain ⟨q, hq⟩ := exists_canonicalSheet?_of_find? hnames hn
    exact hlisted hq

/-- A node is a cell that was given, or one that a given cell refers to. -/
theorem GraphBuilder.mem_or_referred_of_node? {cells : List GraphCell} {b : GraphBuilder} {v : Nat}
    {n : Node} (h : cells.foldlM add empty = .ok b) (hn : b.build.node? v = some n) :
    n.cell ∈ cells ∨ ∃ cell ∈ cells, ∃ r ∈ cell.references, r.target.sheet = n.coordinate.sheet := by
  obtain ⟨hindexed, hgiven⟩ := indexed_of_foldlM indexed_empty h
  have hcells : b.cells.toList = cells := by
    rw [hgiven]
    simp [empty]
  have hmem := Array.mem_toList_iff.mpr (Array.mem_of_getElem? (cell_of_node? hn))
  rw [toList_cells_withImplicit hindexed, hcells, List.mem_append] at hmem
  refine hmem.imp_right fun hmissing => ?_
  obtain ⟨c, hc, heq⟩ := List.mem_map.mp hmissing
  obtain ⟨⟨cell, hcell, r, hr, htarget⟩, -⟩ := GraphCell.mem_missing.mp hc
  refine ⟨cell, hcell, r, hr, ?_⟩
  rw [Node.coordinate, ← heq]
  cases hkind : r.target with
  | cell c' =>
    rw [hkind] at htarget
    rw [Option.some.inj (htarget : some c' = some c)]
    rfl
  | range _ =>
    rw [hkind] at htarget
    cases htarget

namespace Compilation

variable {options : CompilerOptions} {enricher : Option Enricher} {engine : Engine}
  {snapshot : Snapshot} {comp : Compilation}

/-- A cell of the graph comes from a cell of the workbook, and its references can be read there. -/
theorem readable_of_mem {cell : GraphCell}
    (hcell : cell ∈ (readCells engine snapshot).filterMap (graphCell? snapshot options)) :
    ∃ classified ∈ snapshot.cells, cell.coordinate = classified.coordinate ∧
      ∀ r ∈ cell.references, (Expr.reference r).Readable
        ⟨classified.coordinate.sheet, engine.names, engine.functions⟩ := by
  obtain ⟨read, hread, hgraph⟩ := List.mem_filterMap.mp hcell
  obtain ⟨classified, hclassified, rfl⟩ := List.mem_map.mp hread
  obtain ⟨hcoordinate, -, hformula⟩ := graphCell?_eq_some hgraph
  refine ⟨classified, hclassified, hcoordinate, fun r hr => ?_⟩
  rw [GraphCell.references] at hr
  split at hformula
  case h_1 f hf =>
    rw [hformula.1] at hr
    exact (Formula.readable_parse (formula_readCell hf).2).1.of_mem_references hr
  all_goals
    rw [hformula.1] at hr
    cases hr

end Compilation

/-! ### Sheets of graphs -/

namespace Snapshot

variable {s : Snapshot} {options : CompilerOptions} {enricher : Option Enricher}
  {comp : Compilation}

/-- A workbook that compiles has its names and its cells in order. -/
theorem compile_eq_ok (h : s.compile options enricher = .ok comp) :
    ∃ names, s.nameTable = .ok names ∧ (s.canonical names).validate = .ok () ∧
      Compilation.ofCells options enricher ⟨names, .builtin, options.evalOptions⟩
        (s.canonical names) = .ok comp := by
  obtain ⟨names, hnames, h⟩ := Parser.ok_of_bind h
  obtain ⟨⟨⟩, hvalid, h⟩ := Parser.ok_of_bind h
  exact ⟨names, hnames, hvalid, h⟩

theorem listed_compile (h : s.compile options enricher = .ok comp) {v : Nat} {n : Node}
    (hn : comp.graph.node? v = some n) : n.coordinate.sheet ∈ s.sheetNames := by
  obtain ⟨names, hnames, hvalid, hcells⟩ := compile_eq_ok h
  obtain ⟨-, hdeclared⟩ := (validate_canonical_iff hnames).mp hvalid
  obtain ⟨b, hb, hgraph, -⟩ := Compilation.ofCells_eq_ok hcells
  rw [hgraph] at hn
  have hplace {cell : ClassifiedCell} (hcell : cell ∈ (s.canonical names).cells) :
      cell.coordinate.sheet ∈ s.sheetNames := by
    rw [cells_canonical hnames] at hcell
    obtain ⟨original, horiginal, rfl⟩ := List.mem_map.mp hcell
    exact sheet_respelled_mem horiginal (hdeclared original horiginal)
  rcases GraphBuilder.mem_or_referred_of_node? hb hn with hcell | ⟨cell, hcell, r, hr, hsheet⟩
  · obtain ⟨classified, hclassified, hcoordinate, -⟩ := Compilation.readable_of_mem hcell
    rw [Node.coordinate, hcoordinate]
    exact hplace hclassified
  · obtain ⟨classified, hclassified, -, hreadable⟩ := Compilation.readable_of_mem hcell
    rw [← hsheet]
    exact mem_sheetNames_of_reaches hnames (hplace hclassified)
      (Parser.reaches_of_readable (hreadable r hr))

/-- **Sheets are unified.**  The graph of a workbook that compiles knows every sheet under the one
spelling that the workbook gives it, and a workbook with two cells that differ in the case of their
sheets at most does not compile. -/
theorem unified_compile (s : Snapshot) (options : CompilerOptions) (enricher : Option Enricher) :
    (∀ comp, s.compile options enricher = .ok comp → comp.graph.Unified s.sheetNames) ∧
      (s.Clashes → ∃ e, s.compile options enricher = .error e) := by
  constructor
  · intro comp hcomp
    refine ⟨fun v n hn => listed_compile hcomp hn, ?_⟩
    intro u v m n hm hn hcolumn hrow hcase
    have hsheet := eq_of_mem_sheetNames (listed_compile hcomp hm) (listed_compile hcomp hn) hcase
    have hcoordinate : m.coordinate = n.coordinate := by
      rw [Coordinate.mk.injEq]
      exact ⟨hsheet, hcolumn, hrow⟩
    obtain ⟨names, -, -, hcells⟩ := compile_eq_ok hcomp
    obtain ⟨b, hb, hgraph, -⟩ := Compilation.ofCells_eq_ok hcells
    rw [hgraph] at hm hn
    have hindexed := (GraphBuilder.indexed_of_foldlM GraphBuilder.indexed_empty hb).1
    exact GraphBuilder.number_unique hindexed hm hn hcoordinate
  · rintro ⟨i, j, c, d, hne, hc, hd, hcolumn, hrow, hcase⟩
    cases hcomp : s.compile options enricher with
    | error e => exact ⟨e, rfl⟩
    | ok comp =>
      obtain ⟨names, hnames, hvalid, -⟩ := compile_eq_ok hcomp
      obtain ⟨hnodup, hdeclared⟩ := (validate_canonical_iff hnames).mp hvalid
      have hcoordinate : s.respelled c.coordinate = s.respelled d.coordinate :=
        respelled_eq (List.mem_of_getElem? hc) (List.mem_of_getElem? hd) hdeclared hcolumn hrow hcase
      exact absurd (index_eq_of_respelled hnodup hc hd hcoordinate) hne

/-- A workbook with three spellings of one sheet, in a cell, in a formula and in a name. -/
def manySpellings : Snapshot :=
  { sheets := ["Data", "calc"],
    cells := [
      ⟨⟨"DATA", 1, 1⟩, .input, none, some (.number 2), none, none⟩,
      ⟨⟨"Calc", 1, 1⟩, .output, some "=data!A1+Rate+dAtA!B9", none, none, none⟩],
    namedRanges := [⟨"Rate", "daTA!C3"⟩],
    iteration := none }

/-- A cell that is given under two spellings of its sheet. -/
def clashing : Snapshot :=
  { sheets := [],
    cells := [
      ⟨⟨"Data", 1, 1⟩, .input, none, some (.number 2), none, none⟩,
      ⟨⟨"DATA", 1, 1⟩, .label, none, some (.number 3), none, none⟩],
    namedRanges := [],
    iteration := none }

theorem unified_manySpellings : (∃ comp, manySpellings.compile .standard none = .ok comp ∧
      comp.graph.Unified ["Data", "calc"]) ∧
    clashing.Clashes ∧ ∃ e, clashing.compile .standard none = .error e := by
  have hclashes : clashing.Clashes :=
    ⟨0, 1, _, _, by decide, rfl, rfl, rfl, rfl, by decide +kernel⟩
  refine ⟨?_, hclashes, (unified_compile clashing .standard none).2 hclashes⟩
  obtain ⟨comp, hcomp⟩ : ∃ comp, manySpellings.compile .standard none = .ok comp :=
    exists_ok_of_isOk (by decide +kernel)
  have hsheets : manySpellings.sheetNames = ["Data", "calc"] := by decide +kernel
  exact ⟨comp, hcomp, hsheets ▸ (unified_compile manySpellings .standard none).1 comp hcomp⟩

end Snapshot

end Recalc
