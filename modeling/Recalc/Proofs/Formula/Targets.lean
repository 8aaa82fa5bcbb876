/-
Recalc/Proofs/Formula/Targets.lean

Targets and their texts.  Whatever a formula is read from, its references lie within the
limits of a sheet (`Engine.inLimits_compile`): addresses and their two corners in either
order, whole columns and rows, the targets of names, and offsets that are computed while
reading, however large or fractional their numbers are.

The other way round, what lies within the limits is read back from its text, whatever its
sheet is called and wherever it is read (`SheetName.texts_readBack`):

    t.Declares target.sheet → t.resolve target.text current = .ok ⟨target, none⟩.
-/
import Recalc.Eval.Engine
import Recalc.Proofs.Eval.Footprint
import Recalc.Proofs.Formula.RoundTrip

namespace Recalc

/-! ### What is read lies within the limits -/

theorem Target.InLimits.wellFormed {t : Target} (h : t.InLimits) : t.WellFormed := by
  cases t with
  | cell c => trivial
  | range r => exact h

/-- The targets of all names are within the limits. -/
def NameTable.InLimits (t : NameTable) : Prop :=
  ∀ s n, t.find? s = some n → n.target.InLimits

/-- A reference that can be read is the target of a name or lies within the limits. -/
theorem Expr.Readable.inLimits {ctx : FormulaContext} {e : Expr} (h : e.Readable ctx)
    (hnames : ctx.names.InLimits) {r : Reference} (hr : r ∈ e.references) : r.target.InLimits := by
  cases h.of_mem_references hr with
  | named hform hfind => exact hnames _ _ hfind
  | address hlimits => exact hlimits

theorem Expr.Readable.wellFormed {ctx : FormulaContext} {e : Expr} (h : e.Readable ctx)
    (hnames : ctx.names.InLimits) : e.WellFormed :=
  fun _ hr => (h.inLimits hnames hr).wellFormed

namespace Engine

/-- **Every reference of a formula lies within the limits**, if the names of the workbook stand for
targets within the limits. -/
theorem inLimits_compile {engine : Engine} (hnames : engine.names.InLimits) {source sheet : String}
    {f : Formula} (h : engine.compile source sheet = .ok f) {r : Reference}
    (hr : r ∈ f.expr.references) : r.target.InLimits :=
  (Formula.readable_parse h).1.inLimits hnames hr

/-- A name for the last cell of the first row. -/
def cornerNamed : Engine := ⟨.ofLists [⟨"Corner", .cell ⟨"S", 16384, 1⟩⟩] ["S"], .builtin, .standard⟩

/-- Offsets by too much and by fractions, corners out of order, and whole columns and rows. -/
def offsetSource : String :=
  "=SUM(OFFSET(Corner,1e999,0),OFFSET(corner,1.9,-1.5,3,2.7),$B$3:A1,C:A,$2:1)"

theorem inLimits_compile_offset : cornerNamed.names.InLimits ∧
    ∃ f, cornerNamed.compile offsetSource "S" = .ok f ∧
      (⟨.range ⟨⟨"S", 16383, 2⟩, ⟨"S", 16384, 4⟩⟩, none⟩ ∈ f.expr.references) ∧
      Target.InLimits (.range ⟨⟨"S", 16383, 2⟩, ⟨"S", 16384, 4⟩⟩) := by
  have hnames : cornerNamed.names.InLimits := by
    intro s n hn
    rw [List.mem_singleton.mp (NameTable.find?_ofLists hn).1]
    exact ⟨by decide, by decide⟩
  have hreads : (cornerNamed.compile offsetSource "S").toOption.any
      (fun f => f.expr.references.contains ⟨.range ⟨⟨"S", 16383, 2⟩, ⟨"S", 16384, 4⟩⟩, none⟩) =
        true := by
    decide +kernel
  obtain ⟨f, hf, hmem⟩ := exists_of_any hreads
  have hr := List.contains_iff_mem.mp hmem
  exact ⟨hnames, f, hf, hr, inLimits_compile hnames hf hr⟩

end Engine

/-! ### What lies within the limits reads back -/

theorem Target.text_eq (target : Target) :
    target.text = SheetName.written target.sheet ++ "!" ++ target.addressText := by
  cases target <;> rfl

/-- A target is resolved from its text, wherever it stands. -/
theorem NameTable.resolve_text (t : NameTable) (current : String) {target : Target}
    (h : target.InLimits) (hsheet : t.Declares target.sheet) :
    t.resolve target.text current = .ok ⟨target, none⟩ := by
  rw [Target.text_eq, resolve_written t (Target.nameForm_addressText h).isPlain, hsheet]
  dsimp only
  rw [addressTarget?_addressText h]

/-- A cell is read from its text. -/
theorem Coordinate.parse_text {c : Coordinate} (h : c.address.InLimits) :
    Coordinate.parse c.text = .ok c := by
  have hlimits : (Target.cell c).InLimits := h
  have hplain := (Target.nameForm_addressText hlimits).isPlain
  have hsplit : SheetName.splitQualifier c.text = (some c.sheet, c.addressText) :=
    SheetName.splitQualifier_written c.sheet (NameTable.isTail_of_isPlain hplain)
  have haddress : Address.parse c.addressText = .ok c.address := Address.parse_text h
  rw [Coordinate.parse, hsplit]
  dsimp only
  rw [haddress]
  rfl

/-- **Cells and ranges of a sheet read back from their texts**, whatever the sheet is called: a
reference to them is resolved to the same target and to no name, and a cell is read as itself. -/
theorem SheetName.texts_readBack (sheet : String) :
    (∀ target : Target, target.sheet = sheet → target.InLimits →
      ∀ t : NameTable, t.canonicalSheet? sheet = some sheet →
      ∀ current : String, t.resolve target.text current = .ok ⟨target, none⟩) ∧
    ∀ c : Coordinate, c.sheet = sheet → c.address.InLimits → Coordinate.parse c.text = .ok c := by
  constructor
  · rintro target rfl hlimits t hsheet current
    exact t.resolve_text current hlimits hsheet
  · intro c _ hlimits
    exact Coordinate.parse_text hlimits

/-- A sheet whose name has a quote, a colon and `!`, and ends like an address. -/
def SheetName.awkward : String := "it's:é!A1"

/-- A workbook with that sheet and with a name that is spelled like an address. -/
def NameTable.awkward : NameTable :=
  .ofLists [⟨"A1", .cell ⟨"S", 1, 1⟩⟩] ["S", SheetName.awkward]

theorem SheetName.texts_readBack_awkward :
    NameTable.awkward.canonicalSheet? SheetName.awkward = some SheetName.awkward ∧
    CellRange.WellFormed ⟨⟨SheetName.awkward, 2, 1⟩, ⟨SheetName.awkward, 4, 1048576⟩⟩ ∧
    Address.InLimits ⟨1, 1⟩ ∧
    NameTable.awkward.resolve (CellRange.text ⟨⟨SheetName.awkward, 2, 1⟩,
        ⟨SheetName.awkward, 4, 1048576⟩⟩) "S" =
      .ok ⟨.range ⟨⟨SheetName.awkward, 2, 1⟩, ⟨SheetName.awkward, 4, 1048576⟩⟩, none⟩ ∧
    Coordinate.parse (Coordinate.text ⟨SheetName.awkward, 1, 1⟩) = .ok ⟨SheetName.awkward, 1, 1⟩ := by
  have hsheet : NameTable.awkward.canonicalSheet? SheetName.awkward = some SheetName.awkward := by
    decide +kernel
  have hrange : CellRange.WellFormed ⟨⟨SheetName.awkward, 2, 1⟩, ⟨SheetName.awkward, 4, 1048576⟩⟩ :=
    ⟨rfl, by decide, by decide⟩
  have hcell : Address.InLimits ⟨1, 1⟩ := ⟨by decide, by decide⟩
  have htexts := SheetName.texts_readBack SheetName.awkward
  exact ⟨hsheet, hrange, hcell, htexts.1 (.range _) rfl hrange _ hsheet "S",
    htexts.2 ⟨SheetName.awkward, 1, 1⟩ rfl hcell⟩

end Recalc
