/-
Recalc/Proofs/Workbook/Snapshot.lean

Workbooks before they are compiled.  Of sheets that differ in case only the first spelling
is kept (`nodup_sheetNames`, `exists_sheetName`), and every coordinate is respelled to it.
The names of a workbook are in order exactly if every target is qualified and resolves
(`exists_nameTable_iff`), and then lie on its sheets; its cells are in order exactly if
their respelled coordinates differ and their sheets are declared (`validate_canonical_iff`).

Design.  A loop that keeps a set of what it has seen is described for any such set first;
the statements about workbooks start from the empty one.
-/
import Recalc.Proofs.Formula.Reading
import Recalc.Workbook.Snapshot
import Mathlib.Data.List.Nodup

namespace Recalc.Snapshot

open Text

variable {s : Snapshot} {names : NameTable} {sheet sheet' : String}

/-! ### Sheets -/

theorem mem_firstSpellings {seen l : List String} (h : sheet ∈ firstSpellings seen l) :
    sheet ∈ l ∧ upperAscii sheet ∉ seen := by
  induction l generalizing seen with
  | nil => exact absurd h List.not_mem_nil
  | cons t rest ih =>
    rw [firstSpellings] at h
    split at h
    case isTrue => exact ⟨List.mem_cons_of_mem _ (ih h).1, (ih h).2⟩
    case isFalse hnew =>
      rcases List.mem_cons.mp h with rfl | h
      · exact ⟨List.mem_cons_self, fun hmem => hnew (List.contains_iff_mem.mpr hmem)⟩
      · exact ⟨List.mem_cons_of_mem _ (ih h).1, fun hmem => (ih h).2 (List.mem_cons_of_mem _ hmem)⟩

theorem nodup_firstSpellings (seen l : List String) :
    ((firstSpellings seen l).map upperAscii).Nodup := by
  induction l generalizing seen with
  | nil => exact List.nodup_nil
  | cons t rest ih =>
    rw [firstSpellings]
    split
    case isTrue => exact ih seen
    case isFalse =>
      rw [List.map_cons, List.nodup_cons]
      refine ⟨fun hmem => ?_, ih _⟩
      obtain ⟨u, hu, heq⟩ := List.mem_map.mp hmem
      exact (mem_firstSpellings hu).2 (heq ▸ List.mem_cons_self)

/-- Every spelling has a first one. -/
theorem exists_firstSpelling (seen : List String) {l : List String} (h : sheet ∈ l) :
    upperAscii sheet ∈ seen ∨ ∃ t ∈ firstSpellings seen l, upperAscii t = upperAscii sheet := by
  induction l generalizing seen with
  | nil => exact absurd h List.not_mem_nil
  | cons t rest ih =>
    rw [firstSpellings]
    rcases List.mem_cons.mp h with rfl | h <;> split
    case inl.isTrue hseen => exact .inl (List.contains_iff_mem.mp hseen)
    case inl.isFalse => exact .inr ⟨sheet, List.mem_cons_self, rfl⟩
    case inr.isTrue => exact ih seen h
    case inr.isFalse =>
      rcases ih (upperAscii t :: seen) h with hseen | ⟨u, hu, heq⟩
      · rcases List.mem_cons.mp hseen with heq | hseen
        · exact .inr ⟨t, List.mem_cons_self, heq.symm⟩
        · exact .inl hseen
      · exact .inr ⟨u, List.mem_cons_of_mem _ hu, heq⟩

theorem nodup_sheetNames (s : Snapshot) : (s.sheetNames.map upperAscii).Nodup :=
  nodup_firstSpellings [] _

/-- **No two sheets differ in case only.** -/
theorem eq_of_mem_sheetNames (h : sheet ∈ s.sheetNames) (h' : sheet' ∈ s.sheetNames)
    (heq : sameIgnoringCase sheet sheet' = true) : sheet = sheet' :=
  List.inj_on_of_nodup_map s.nodup_sheetNames h h' (beq_iff_eq.mp heq)

theorem declares_iff : s.declares sheet = true ↔
    (s.sheets ≠ [] → ∃ t ∈ s.sheets, sameIgnoringCase t sheet = true) := by
  rw [declares, Bool.or_eq_true, List.isEmpty_iff, List.any_eq_true, or_iff_not_imp_left]

/-- **A cell on a declared sheet lies on one of the workbook.** -/
theorem exists_sheetName {cell : ClassifiedCell} (hcell : cell ∈ s.cells)
    (hdeclared : s.declares cell.coordinate.sheet = true) :
    ∃ t ∈ s.sheetNames, upperAscii t = upperAscii cell.coordinate.sheet := by
  have hfirst {l : List String} {t : String} (ht : t ∈ l) :
      ∃ u ∈ firstSpellings [] l, upperAscii u = upperAscii t :=
    (exists_firstSpelling [] ht).resolve_left List.not_mem_nil
  rw [sheetNames]
  split
  case isTrue => exact hfirst (List.mem_map_of_mem hcell)
  case isFalse hsome =>
    obtain ⟨t, ht, heq⟩ := declares_iff.mp hdeclared fun hnil => hsome (List.isEmpty_iff.mpr hnil)
    obtain ⟨u, hu, hut⟩ := hfirst ht
    exact ⟨u, hu, hut.trans (beq_iff_eq.mp heq)⟩

/-! ### Names -/

/-- The sheets of a workbook, without its names. -/
def bareTable (s : Snapshot) : NameTable := .ofLists [] s.sheetNames

theorem namedTarget_eq_ok {n : NamedRange} {t : NamedTarget}
    (h : namedTarget s.bareTable n = .ok t) : '!' ∈ n.target.toList ∧
      ∃ r, s.bareTable.resolve n.target "" = .ok r ∧ t = ⟨n.name, r.target⟩ := by
  unfold namedTarget at h
  split at h
  case isFalse => cases h
  case isTrue hbang =>
    split at h
    case h_1 r hr => exact ⟨List.contains_iff_mem.mp hbang, r, hr, (Except.ok.inj h).symm⟩
    case h_2 => cases h

theorem exists_ok_of_isOk {ε α : Type} {x : Except ε α} (h : x.isOk = true) : ∃ a, x = .ok a := by
  cases x with
  | error e => cases h
  | ok a => exact ⟨a, rfl⟩

/-- What a list of computations gives comes out of one of them. -/
theorem exists_of_mapM {α β ε : Type} {f : α → Except ε β} {l : List α} {bs : List β}
    (h : l.mapM f = .ok bs) : ∀ y ∈ bs, ∃ a ∈ l, f a = .ok y := by
  induction l generalizing bs with
  | nil =>
    obtain rfl := Except.ok.inj h
    exact fun y hy => by cases hy
  | cons a rest ih =>
    rw [List.mapM_cons] at h
    obtain ⟨y, hy, h⟩ := Parser.ok_of_bind h
    obtain ⟨ys, hys, h⟩ := Parser.ok_of_bind h
    obtain rfl := Except.ok.inj h
    intro z hz
    rcases List.mem_cons.mp hz with rfl | hz
    · exact ⟨a, List.mem_cons_self, hy⟩
    · obtain ⟨a', ha', hz'⟩ := ih hys z hz
      exact ⟨a', List.mem_cons_of_mem _ ha', hz'⟩

/-- The names of a workbook, one by one. -/
theorem nameTable_eq_ok (h : s.nameTable = .ok names) :
    ∃ targets, names = .ofLists targets s.sheetNames ∧ ∀ t ∈ targets, ∃ n ∈ s.namedRanges,
      '!' ∈ n.target.toList ∧
        ∃ r, s.bareTable.resolve n.target "" = .ok r ∧ t = ⟨n.name, r.target⟩ := by
  obtain ⟨targets, htargets, h⟩ := Parser.ok_of_bind h
  refine ⟨targets, (Except.ok.inj h).symm, fun t ht => ?_⟩
  obtain ⟨n, hn, hok⟩ := exists_of_mapM htargets t ht
  exact ⟨n, hn, namedTarget_eq_ok hok⟩

theorem canonicalSheet?_nameTable (h : s.nameTable = .ok names) (sheet : String) :
    names.canonicalSheet? sheet = s.bareTable.canonicalSheet? sheet := by
  obtain ⟨targets, rfl, -⟩ := nameTable_eq_ok h
  rfl

/-- **The names of a workbook lie on its sheets.** -/
theorem exists_canonicalSheet?_of_find? (h : s.nameTable = .ok names) {text : String}
    {n : NamedTarget} (hn : names.find? text = some n) :
    ∃ q, names.canonicalSheet? q = some n.target.sheet := by
  simp only [canonicalSheet?_nameTable h]
  obtain ⟨targets, rfl, htargets⟩ := nameTable_eq_ok h
  obtain ⟨range, -, hbang, r, hr, rfl⟩ := htargets n (NameTable.find?_ofLists hn).1
  exact NameTable.exists_canonicalSheet?_of_resolve hbang hr

/-! ### Respelled coordinates -/

/-- The coordinate with its sheet under its first spelling. -/
def respelled (s : Snapshot) (c : Coordinate) : Coordinate :=
  { c with sheet := (s.bareTable.canonicalSheet? c.sheet).getD c.sheet }

theorem cells_canonical (h : s.nameTable = .ok names) : (s.canonical names).cells =
    s.cells.map fun c => { c with coordinate := s.respelled c.coordinate } := by
  rw [canonical]
  dsimp only
  refine List.map_congr_left fun c _ => ?_
  rw [canonicalSheet?_nameTable h, respelled]
  cases s.bareTable.canonicalSheet? c.coordinate.sheet <;> rfl

theorem upperAscii_respelled (c : Coordinate) :
    upperAscii (s.respelled c).sheet = upperAscii c.sheet := by
  rw [respelled]
  cases h : s.bareTable.canonicalSheet? c.sheet with
  | none => rfl
  | some canonical => exact NameTable.upperAscii_canonicalSheet? h

/-- **A cell on a declared sheet is respelled to a sheet of the workbook.** -/
theorem sheet_respelled_mem {cell : ClassifiedCell} (hcell : cell ∈ s.cells)
    (hdeclared : s.declares cell.coordinate.sheet = true) :
    (s.respelled cell.coordinate).sheet ∈ s.sheetNames := by
  obtain ⟨t, ht, heq⟩ := exists_sheetName hcell hdeclared
  obtain ⟨canonical, hcanonical⟩ := NameTable.exists_canonicalSheet? [] ht heq
  rw [respelled, bareTable, hcanonical]
  exact (NameTable.mem_of_canonicalSheet? (List.ne_nil_of_mem ht) hcanonical).1

/-- Cells that differ in the case of their sheets at most are respelled alike. -/
theorem respelled_eq {c d : ClassifiedCell} (hc : c ∈ s.cells) (hd : d ∈ s.cells)
    (hdeclared : ∀ c ∈ s.cells, s.declares c.coordinate.sheet = true)
    (hcolumn : c.coordinate.column = d.coordinate.column)
    (hrow : c.coordinate.row = d.coordinate.row)
    (hcase : sameIgnoringCase c.coordinate.sheet d.coordinate.sheet = true) :
    s.respelled c.coordinate = s.respelled d.coordinate := by
  have hsheet : (s.respelled c.coordinate).sheet = (s.respelled d.coordinate).sheet := by
    refine eq_of_mem_sheetNames (sheet_respelled_mem hc (hdeclared c hc))
      (sheet_respelled_mem hd (hdeclared d hd)) ?_
    rw [sameIgnoringCase, upperAscii_respelled, upperAscii_respelled]
    exact hcase
  rw [Coordinate.mk.injEq]
  exact ⟨hsheet, hcolumn, hrow⟩

/-- A respelled coordinate that is nowhere repeated stands at one place. -/
theorem index_eq_of_respelled
    (hnodup : (s.cells.map fun c => s.respelled c.coordinate).Nodup) {i j : Nat}
    {c d : ClassifiedCell} (hc : s.cells[i]? = some c) (hd : s.cells[j]? = some d)
    (heq : s.respelled c.coordinate = s.respelled d.coordinate) : i = j := by
  have hlt : i < (s.cells.map fun c => s.respelled c.coordinate).length := by
    rw [List.length_map]
    exact (List.getElem?_eq_some_iff.mp hc).1
  apply (List.getElem?_inj hlt hnodup).mp
  rw [List.getElem?_map, List.getElem?_map, hc, hd, Option.map_some, Option.map_some, heq]

theorem declares_congr (heq : upperAscii sheet = upperAscii sheet') :
    s.declares sheet = s.declares sheet' := by
  simp only [declares, sameIgnoringCase, heq]

/-! ### Cells -/

theorem validateCells_eq_ok_iff {seen : Std.TreeMap Coordinate Unit} {cells : List ClassifiedCell} :
    s.validateCells seen cells = .ok () ↔
      (cells.map ClassifiedCell.coordinate).Nodup ∧
        ∀ c ∈ cells, c.coordinate ∉ seen ∧ s.declares c.coordinate.sheet = true := by
  induction cells generalizing seen with
  | nil => simp [validateCells]
  | cons c rest ih =>
    rw [validateCells, List.map_cons, List.nodup_cons, List.forall_mem_cons]
    by_cases hseen : seen.contains c.coordinate = true
    · rw [if_pos hseen]
      constructor
      · intro h
        cases h
      · intro h
        exact absurd (Std.TreeMap.contains_iff_mem.mp hseen) h.2.1.1
    by_cases hdeclared : s.declares c.coordinate.sheet = true
    · rw [if_neg hseen, hdeclared, Bool.not_true, if_neg Bool.false_ne_true, ih]
      -- what was not seen and is not this cell was not seen with this cell
      have hinsert : ∀ d : ClassifiedCell, d.coordinate ∉ seen.insert c.coordinate () ↔
          d.coordinate ≠ c.coordinate ∧ d.coordinate ∉ seen := by
        intro d
        rw [Std.TreeMap.mem_insert, Std.LawfulEqOrd.compare_eq_iff_eq, not_or]
        exact and_congr_left fun _ => ne_comm
      have hfresh : c.coordinate ∉ seen := fun hmem => hseen (Std.TreeMap.contains_iff_mem.mpr hmem)
      simp only [hinsert, List.mem_map, not_exists, not_and]
      grind
    · rw [if_neg hseen, Bool.eq_false_iff.mpr hdeclared, Bool.not_false, if_pos rfl]
      constructor
      · intro h
        cases h
      · intro h
        cases h.2.1.2

/-- **The cells of a workbook are in order exactly if their respelled coordinates differ and their
sheets are declared.** -/
theorem validate_canonical_iff (h : s.nameTable = .ok names) :
    (s.canonical names).validate = .ok () ↔
      (s.cells.map fun c => s.respelled c.coordinate).Nodup ∧
        ∀ c ∈ s.cells, s.declares c.coordinate.sheet = true := by
  have hdeclares : (s.canonical names).declares = s.declares := rfl
  rw [validate, validateCells_eq_ok_iff, cells_canonical h, List.map_map, List.forall_mem_map,
    hdeclares]
  refine and_congr_right fun _ => forall₂_congr fun c _ => ?_
  rw [declares_congr (upperAscii_respelled c.coordinate)]
  simp

end Recalc.Snapshot
