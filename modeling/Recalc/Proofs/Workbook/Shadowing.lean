/-
Recalc/Proofs/Workbook/Shadowing.lean

References that are written without their sheet.  Seen from its own sheet, a reference
without a name is written as a bare address, and a bare text is first looked up among the
names of the workbook.  It means the same again exactly if no name is spelled like it
(`resolve_unqualified_iff`), and nothing keeps a workbook from having such a name
(`resolve_unqualified_shadowed`).

Design.  What the text means is decided in two places.  The names are those the workbook
lists, whatever they lead to (`find?_nameTable_eq_none_iff`), and the address is read on
the sheet it came from, because that sheet is spelled as declared however the reference
came about (`canonicalSheet?_of_reaches`).
-/
import Recalc.Proofs.Formula.RoundTrip
import Recalc.Proofs.Workbook.Snapshot

namespace Recalc

open Text

/-! ### Names that are found -/

namespace NameTable

variable {names : List NamedTarget} {sheets : List String} {s : String}

theorem mem_foldl_names {m : Std.TreeMap String NamedTarget} {key : String}
    (h : key ∈ m ∨ key ∈ names.map fun n => upperAscii n.name) :
    key ∈ names.foldl (fun m n => m.insert (upperAscii n.name) n) m := by
  induction names generalizing m with
  | nil => exact h.resolve_right List.not_mem_nil
  | cons n rest ih =>
    refine ih ?_
    rw [Std.TreeMap.mem_insert, Std.LawfulEqOrd.compare_eq_iff_eq]
    rw [List.map_cons, List.mem_cons] at h
    rcases h with hmem | rfl | hrest
    · exact .inl (.inr hmem)
    · exact .inl (.inl rfl)
    · exact .inr hrest

/-- **A text is no name exactly if none is spelled like it.** -/
theorem find?_ofLists_eq_none_iff :
    (ofLists names sheets).find? s = none ↔
      ∀ name ∈ names.map NamedTarget.name, upperAscii name ≠ upperAscii s := by
  constructor
  · rintro hnone name hname heq
    obtain ⟨n, hn, rfl⟩ := List.mem_map.mp hname
    have hmem : upperAscii s ∈ (ofLists names sheets).names :=
      mem_foldl_names (.inr (heq ▸ List.mem_map_of_mem hn))
    rw [find?, Std.TreeMap.getElem?_eq_some_getElem hmem] at hnone
    cases hnone
  · intro hother
    cases hfind : (ofLists names sheets).find? s with
    | none => rfl
    | some n =>
      obtain ⟨hmem, hspelling⟩ := find?_ofLists hfind
      exact absurd hspelling (hother n.name (List.mem_map_of_mem hmem))

end NameTable

namespace Snapshot

variable {s : Snapshot} {names : NameTable}

theorem map_name_of_mapM {ranges : List NamedRange} {targets : List NamedTarget}
    (h : ranges.mapM (namedTarget s.bareTable) = .ok targets) :
    targets.map NamedTarget.name = ranges.map NamedRange.name := by
  induction ranges generalizing targets with
  | nil =>
    obtain rfl := Except.ok.inj h
    rfl
  | cons n rest ih =>
    rw [List.mapM_cons] at h
    obtain ⟨t, ht, h⟩ := Parser.ok_of_bind h
    obtain ⟨ts, hts, h⟩ := Parser.ok_of_bind h
    obtain rfl := Except.ok.inj h
    obtain ⟨-, r, -, rfl⟩ := namedTarget_eq_ok ht
    rw [List.map_cons, List.map_cons, ih hts]

/-- **The names that are found are those the workbook lists.** -/
theorem find?_nameTable_eq_none_iff (h : s.nameTable = .ok names) {text : String} :
    names.find? text = none ↔ ∀ n ∈ s.namedRanges, upperAscii n.name ≠ upperAscii text := by
  obtain ⟨targets, htargets, h⟩ := Parser.ok_of_bind h
  obtain rfl := Except.ok.inj h
  rw [NameTable.find?_ofLists_eq_none_iff, map_name_of_mapM htargets, List.forall_mem_map]

/-! ### References without their sheet -/

/-- **A reference lies on a sheet in its declared spelling**, if that sheet is declared. -/
theorem canonicalSheet?_of_reaches {ctx : FormulaContext} (h : s.nameTable = .ok ctx.names)
    {sheet : String} (hreaches : ctx.Reaches sheet) :
    (ctx.names.canonicalSheet? sheet).getD sheet = sheet := by
  have hdeclared {q : String} (hq : ctx.names.canonicalSheet? q = some sheet) :
      (ctx.names.canonicalSheet? sheet).getD sheet = sheet := by
    obtain ⟨targets, htable, -⟩ := nameTable_eq_ok h
    rw [htable] at hq ⊢
    rw [NameTable.canonicalSheet?_ofLists hq]
    rfl
  rcases hreaches with ⟨q, hq⟩ | hcurrent | ⟨text, n, hn, rfl⟩
  · exact hdeclared hq
  · cases hcanonical : ctx.names.canonicalSheet? ctx.sheet with
    | none =>
      -- the sheet of the formula is kept as it is
      rw [hcanonical] at hcurrent
      subst hcurrent
      show (ctx.names.canonicalSheet? ctx.sheet).getD ctx.sheet = ctx.sheet
      rw [hcanonical]
      rfl
    | some canonical =>
      rw [hcanonical, Option.getD_some] at hcurrent
      exact hdeclared (hcurrent ▸ hcanonical)
  · obtain ⟨q, hq⟩ := exists_canonicalSheet?_of_find? h hn
    exact hdeclared hq

/-- **A reference that is written without its sheet means the same again** on that sheet, exactly if
no name of the workbook is spelled like it. -/
theorem resolve_unqualified_iff {engine : Engine} (h : s.nameTable = .ok engine.names)
    {source home sheet : String} {f : Formula} (hf : engine.compile source home = .ok f)
    {r : Reference} (hr : r ∈ f.expr.references) (hname : r.name = none)
    (hsheet : r.target.sheet = sheet) :
    engine.names.resolve (Expr.referenceText (some sheet) r) sheet = .ok ⟨r.target, none⟩ ↔
      ∀ n ∈ s.namedRanges,
        upperAscii n.name ≠ upperAscii (Expr.referenceText (some sheet) r) := by
  obtain ⟨target, name⟩ := r
  subst hname hsheet
  have htext : Expr.referenceText (some target.sheet) ⟨target, none⟩ = target.addressText := by
    rw [Expr.referenceText]
    exact if_pos (beq_self_eq_true _)
  have hreadable := (Formula.readable_parse hf).1.of_mem_references hr
  obtain ⟨hlimits, hreaches⟩ : target.InLimits ∧
      FormulaContext.Reaches ⟨home, engine.names, engine.functions⟩ target.sheet := by
    cases hreadable with
    | address hlimits hreaches => exact ⟨hlimits, hreaches⟩
  have hcanonical := canonicalSheet?_of_reaches h hreaches
  dsimp only at hcanonical
  rw [htext, ← find?_nameTable_eq_none_iff h,
    NameTable.resolve_plain _ (Target.nameForm_addressText hlimits).isPlain, hcanonical]
  cases hfind : engine.names.find? target.addressText with
  | none =>
    dsimp only
    rw [NameTable.addressTarget?_addressText hlimits]
    exact iff_of_true rfl rfl
  | some n => simp

/-- A workbook with a name that is spelled like an address. -/
def shadowed : Snapshot :=
  { sheets := ["S"],
    cells := [],
    namedRanges := [⟨"a1", "S!B1"⟩],
    iteration := none }

def shadowedEngine : Engine :=
  ⟨.ofLists [⟨"a1", .cell ⟨"S", 2, 1⟩⟩] ["S"], .builtin, .standard⟩

/-- The other addresses of the workbook are safe. -/
theorem resolve_unqualified_beside : shadowed.nameTable = .ok shadowedEngine.names ∧
    ∃ f, shadowedEngine.compile "=S!A1+S!C2" "S" = .ok f ∧
      ⟨.cell ⟨"S", 3, 2⟩, none⟩ ∈ f.expr.references ∧
      shadowedEngine.names.resolve (Expr.referenceText (some "S") ⟨.cell ⟨"S", 3, 2⟩, none⟩) "S" =
        .ok ⟨.cell ⟨"S", 3, 2⟩, none⟩ := by
  have hnames : shadowed.nameTable = .ok shadowedEngine.names := rfl
  have hreads : (shadowedEngine.compile "=S!A1+S!C2" "S").toOption.any
      (fun f => f.expr.references.contains ⟨.cell ⟨"S", 3, 2⟩, none⟩) = true := by decide +kernel
  obtain ⟨f, hf, hmem⟩ := Engine.exists_of_any hreads
  have hr := List.contains_iff_mem.mp hmem
  refine ⟨hnames, f, hf, hr, (resolve_unqualified_iff hnames hf hr rfl rfl).mpr fun n hn => ?_⟩
  rw [List.mem_singleton.mp hn]
  decide +kernel

/-- **A name that is spelled like an address takes its place**: the reference was read as the first
cell of the sheet, and its text leads to the cell that the name stands for. -/
theorem resolve_unqualified_shadowed : shadowed.nameTable = .ok shadowedEngine.names ∧
    ∃ f, shadowedEngine.compile "=S!A1+S!C2" "S" = .ok f ∧
      ⟨.cell ⟨"S", 1, 1⟩, none⟩ ∈ f.expr.references ∧
      shadowedEngine.names.resolve (Expr.referenceText (some "S") ⟨.cell ⟨"S", 1, 1⟩, none⟩) "S" =
        .ok ⟨.cell ⟨"S", 2, 1⟩, some "a1"⟩ := by
  have hreads : (shadowedEngine.compile "=S!A1+S!C2" "S").toOption.any
      (fun f => f.expr.references.contains ⟨.cell ⟨"S", 1, 1⟩, none⟩) = true := by decide +kernel
  obtain ⟨f, hf, hmem⟩ := Engine.exists_of_any hreads
  exact ⟨rfl, f, hf, List.contains_iff_mem.mp hmem, by decide +kernel⟩

end Snapshot

end Recalc
