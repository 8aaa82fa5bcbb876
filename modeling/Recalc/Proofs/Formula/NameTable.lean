/-
Recalc/Proofs/Formula/NameTable.lean

What reference texts mean.  A target within the limits reads back from its text, with the
sheet in front or without:

    addressTarget? t.sheet t.addressText = some t,

and what reads as a target lies within the limits.  A text of name characters and colons is
a name of the table or an address on the current sheet (`resolve_plain`); behind a sheet it
is an address on that sheet (`resolve_written`).

A table made from lists finds a name or a sheet under its own spelling, whatever the case
of its letters.
-/
import Recalc.Formula.NameTable
import Recalc.Proofs.Cell.Address
import Recalc.Proofs.Cell.Range
import Recalc.Proofs.Cell.SheetName

namespace Recalc

open Text

/-- Within the limits of a sheet. -/
def Target.InLimits : Target → Prop
  | .cell c => c.address.InLimits
  | .range r => r.WellFormed

namespace NameTable

variable {t : NameTable} {sheet : String} {target : Target}

/-! ### Targets of address texts -/

theorem eq_ok_of_toOption {ε α : Type} {x : Except ε α} {a : α} (h : x.toOption = some a) :
    x = .ok a := by
  cases x with
  | error e => cases h
  | ok b => exact congrArg Except.ok (Option.some.inj h)

theorem wellFormed_ofCorners {a b : Coordinate} {r : CellRange} (ha : a.address.InLimits)
    (hb : b.address.InLimits) (h : CellRange.ofCorners a b = .ok r) :
    r.WellFormed ∧ r.sheet = a.sheet := by
  rw [CellRange.ofCorners] at h
  split at h
  case isTrue =>
    obtain rfl := Except.ok.inj h
    have hac : 1 ≤ a.column ∧ a.column ≤ maxColumn := ha.column
    have har : 1 ≤ a.row ∧ a.row ≤ maxRow := ha.row
    have hbc : 1 ≤ b.column ∧ b.column ≤ maxColumn := hb.column
    have hbr : 1 ≤ b.row ∧ b.row ≤ maxRow := hb.row
    exact ⟨⟨rfl, by dsimp only; omega, by dsimp only; omega⟩, rfl⟩
  case isFalse => cases h

theorem bounds_of_column? {s : String} {column : Nat} (h : Address.column? s = some column) :
    1 ≤ column ∧ column ≤ maxColumn := by
  rw [Address.column?] at h
  split at h
  · exact Column.pos_of_parse (eq_ok_of_toOption h)
  · cases h

theorem bounds_of_row? {s : String} {row : Nat} (h : Address.row? s = some row) :
    1 ≤ row ∧ row ≤ maxRow := by
  rw [Address.row?] at h
  split at h
  · exact Row.pos_of_parse (eq_ok_of_toOption h)
  · cases h

theorem inLimits_of_rangeTarget? {one other : String}
    (h : rangeTarget? sheet one other = some target) : target.InLimits ∧ target.sheet = sheet := by
  rw [rangeTarget?] at h
  split at h
  case h_1 a b ha hb =>
    obtain ⟨r, hr, rfl⟩ := Option.map_eq_some_iff.mp h
    exact wellFormed_ofCorners (a := .ofAddress sheet a) (b := .ofAddress sheet b)
      (Address.inLimits_of_parse ha) (Address.inLimits_of_parse hb) (eq_ok_of_toOption hr)
  case h_2 =>
    split at h
    case h_1 a b ha hb =>
      obtain rfl := Option.some.inj h
      have hac := bounds_of_column? ha
      have hbc := bounds_of_column? hb
      refine ⟨⟨rfl, ?_, ?_⟩, rfl⟩
      · show 1 ≤ min a b ∧ min a b ≤ max a b ∧ max a b ≤ maxColumn
        omega
      · show 1 ≤ 1 ∧ 1 ≤ maxRow ∧ maxRow ≤ maxRow
        decide
    case h_2 =>
      split at h
      case h_1 a b ha hb =>
        obtain rfl := Option.some.inj h
        have har := bounds_of_row? ha
        have hbr := bounds_of_row? hb
        refine ⟨⟨rfl, ?_, ?_⟩, rfl⟩
        · show 1 ≤ 1 ∧ 1 ≤ maxColumn ∧ maxColumn ≤ maxColumn
          decide
        · show 1 ≤ min a b ∧ min a b ≤ max a b ∧ max a b ≤ maxRow
          omega
      case h_2 => cases h

/-- **What reads as a target lies within the limits of its sheet.** -/
theorem inLimits_of_addressTarget? {s : String} (h : addressTarget? sheet s = some target) :
    target.InLimits ∧ target.sheet = sheet := by
  rw [addressTarget?] at h
  split at h
  · obtain ⟨a, ha, rfl⟩ := Option.map_eq_some_iff.mp h
    exact ⟨Address.inLimits_of_parse (eq_ok_of_toOption ha), rfl⟩
  · exact inLimits_of_rangeTarget? h

/-! ### Texts of targets -/

theorem cutColon_of_not_mem {cs : List Char} (h : ':' ∉ cs) : cutColon cs = none := by
  have hdrop : cs.dropWhile (fun c => decide (c ≠ ':')) = [] := by
    rw [List.dropWhile_eq_nil_iff]
    intro c hc
    rw [decide_eq_true_eq]
    rintro rfl
    exact h hc
  rw [cutColon]
  simp only [hdrop]

theorem cutColon_append {a b : List Char} (h : ':' ∉ a) : cutColon (a ++ ':' :: b) = some (a, b) := by
  have hall : ∀ c ∈ a, decide (c ≠ ':') = true := by
    intro c hc
    rw [decide_eq_true_eq]
    rintro rfl
    exact h hc
  have hstop : (':' :: b).head?.any (fun c => decide (c ≠ ':')) = false := rfl
  rw [cutColon]
  simp only [takeWhile_append_stop hall hstop, dropWhile_append_stop hall hstop]

theorem colon_not_mem {cs : List Char} (h : ∀ c ∈ cs, c.isAlpha = true ∨ c.isDigit = true) :
    ':' ∉ cs := by
  intro hmem
  rcases h ':' hmem with halpha | hdigit
  · cases halpha
  · cases hdigit

theorem colon_not_mem_text (a : Address) : ':' ∉ a.text.toList := by
  refine colon_not_mem fun c hc => ?_
  rw [Address.text_eq, List.mem_append] at hc
  exact hc.imp (fun hmem => (Column.mem_lettersOnto hmem).1) Address.isDigit_of_mem_row

theorem colon_not_mem_letters (column : Nat) : ':' ∉ (Column.letters column).toList := by
  refine colon_not_mem fun c hc => .inl ?_
  rw [Column.letters, String.toList_ofList] at hc
  exact (Column.mem_lettersOnto hc).1

theorem colon_not_mem_digits (row : Nat) : ':' ∉ (toString row).toList := by
  refine colon_not_mem fun c hc => .inr ?_
  rw [Nat.toString_eq_ofList_toDigits, String.toList_ofList] at hc
  exact Address.isDigit_of_mem_row hc

/-- A text with a colon is a range between its two parts. -/
theorem addressTarget?_colon (sheet : String) {one : String} (other : String)
    (h : ':' ∉ one.toList) :
    addressTarget? sheet (one ++ ":" ++ other) = rangeTarget? sheet one other := by
  have hchars : (one ++ ":" ++ other).toList = one.toList ++ ':' :: other.toList := by simp
  rw [addressTarget?, hchars, cutColon_append h]
  simp

theorem rangeTarget?_addresses {r : CellRange} (h : r.WellFormed) :
    rangeTarget? r.sheet r.first.addressText r.last.addressText = some (.range r) := by
  obtain ⟨⟨s, c, r⟩, ⟨s', c', r'⟩⟩ := r
  obtain ⟨hsheet, hcolumn, hrow⟩ := h
  dsimp only at hsheet hcolumn hrow
  subst hsheet
  have hfirst : Address.parse (Address.text ⟨c, r⟩) = .ok ⟨c, r⟩ :=
    Address.parse_text ⟨⟨hcolumn.1, hcolumn.2.1.trans hcolumn.2.2⟩,
      ⟨hrow.1, hrow.2.1.trans hrow.2.2⟩⟩
  have hlast : Address.parse (Address.text ⟨c', r'⟩) = .ok ⟨c', r'⟩ :=
    Address.parse_text ⟨⟨hcolumn.1.trans hcolumn.2.1, hcolumn.2.2⟩,
      ⟨hrow.1.trans hrow.2.1, hrow.2.2⟩⟩
  simp only [rangeTarget?, Coordinate.addressText, Coordinate.address, hfirst, hlast,
    Coordinate.ofAddress, CellRange.ofCorners, CellRange.sheet, if_true, Except.toOption,
    Option.map_some, Nat.min_eq_left hcolumn.2.1, Nat.min_eq_left hrow.2.1,
    Nat.max_eq_right hcolumn.2.1, Nat.max_eq_right hrow.2.1]

theorem rangeTarget?_columns {r : CellRange} (h : r.WellFormed) (hwhole : r.isWholeColumns = true) :
    rangeTarget? r.sheet (Column.letters r.first.column) (Column.letters r.last.column) =
      some (.range r) := by
  obtain ⟨⟨s, c, r⟩, ⟨s', c', r'⟩⟩ := r
  obtain ⟨hsheet, hcolumn, -⟩ := h
  simp only [CellRange.isWholeColumns, Bool.and_eq_true, beq_iff_eq] at hwhole
  dsimp only at hsheet hcolumn
  obtain ⟨rfl, rfl⟩ := hwhole
  subst hsheet
  obtain ⟨e, he⟩ : ∃ e, Address.parse (Column.letters c) = .error e := by
    refine Address.exists_parse_eq_error_of_isAlpha fun d hd => ?_
    rw [Column.letters, String.toList_ofList] at hd
    exact (Column.mem_lettersOnto hd).1
  simp only [rangeTarget?, he, Address.column?_letters hcolumn.1 (hcolumn.2.1.trans hcolumn.2.2),
    Address.column?_letters (hcolumn.1.trans hcolumn.2.1) hcolumn.2.2, CellRange.wholeColumns,
    CellRange.sheet, Nat.min_eq_left hcolumn.2.1, Nat.max_eq_right hcolumn.2.1]

theorem rangeTarget?_rows {r : CellRange} (h : r.WellFormed) (hwhole : r.isWholeRows = true) :
    rangeTarget? r.sheet (toString r.first.row) (toString r.last.row) = some (.range r) := by
  obtain ⟨⟨s, c, r⟩, ⟨s', c', r'⟩⟩ := r
  obtain ⟨hsheet, -, hrow⟩ := h
  simp only [CellRange.isWholeRows, Bool.and_eq_true, beq_iff_eq] at hwhole
  dsimp only at hsheet hrow
  obtain ⟨rfl, rfl⟩ := hwhole
  subst hsheet
  have hdigit : ∀ d ∈ (toString r).toList, d.isDigit = true := by
    intro d hd
    rw [Nat.toString_eq_ofList_toDigits, String.toList_ofList] at hd
    exact Address.isDigit_of_mem_row hd
  obtain ⟨e, he⟩ := Address.exists_parse_eq_error_of_isDigit hdigit
  simp only [rangeTarget?, he, Address.column?_of_isDigit hdigit,
    Address.row?_digits hrow.1 (hrow.2.1.trans hrow.2.2),
    Address.row?_digits (hrow.1.trans hrow.2.1) hrow.2.2, CellRange.wholeRows, CellRange.sheet,
    Nat.min_eq_left hrow.2.1, Nat.max_eq_right hrow.2.1]

/-- **A target reads back from its address text.** -/
theorem addressTarget?_addressText (h : target.InLimits) :
    addressTarget? target.sheet target.addressText = some target := by
  cases target with
  | cell c =>
    show addressTarget? c.sheet c.address.text = _
    rw [addressTarget?, cutColon_of_not_mem (colon_not_mem_text _)]
    show (Address.parse c.address.text).toOption.map _ = _
    rw [Address.parse_text h]
    rfl
  | range r =>
    show addressTarget? r.sheet r.addressText = _
    rw [CellRange.addressText]
    split
    · next hwhole =>
      rw [addressTarget?_colon _ _ (colon_not_mem_letters _), rangeTarget?_columns h hwhole]
    · split
      · next hwhole =>
        rw [addressTarget?_colon _ _ (colon_not_mem_digits _), rangeTarget?_rows h hwhole]
      · have hcolon : ':' ∉ r.first.addressText.toList := colon_not_mem_text r.first.address
        rw [addressTarget?_colon _ _ hcolon, rangeTarget?_addresses h]

theorem rangeTarget?_upperAscii (sheet one other : String) :
    rangeTarget? sheet (upperAscii one) (upperAscii other) = rangeTarget? sheet one other := by
  have hone := Address.toOption_parse_upperAscii one
  have hother := Address.toOption_parse_upperAscii other
  rw [rangeTarget?, rangeTarget?]
  simp only [Address.column?_upperAscii, Address.row?_upperAscii]
  cases h₁ : Address.parse one <;> cases h₂ : Address.parse other <;>
    cases h₃ : Address.parse (upperAscii one) <;> cases h₄ : Address.parse (upperAscii other) <;>
    simp_all [Except.toOption]

theorem cutColon_map_toUpper (cs : List Char) : cutColon (cs.map Char.toUpper) =
    (cutColon cs).map fun p => (p.1.map Char.toUpper, p.2.map Char.toUpper) := by
  have hcolon : ∀ d : Char, decide (d.toUpper ≠ ':') = decide (d ≠ ':') := by
    intro d
    rw [decide_eq_decide, not_iff_not]
    exact toUpper_eq_iff (by decide)
  rw [cutColon, cutColon, dropWhile_map_toUpper hcolon, takeWhile_map_toUpper hcolon]
  cases cs.dropWhile (fun c => decide (c ≠ ':')) with
  | nil => rfl
  | cons d rest => rfl

/-- **The case of an address text does not matter.** -/
theorem addressTarget?_upperAscii (sheet s : String) :
    addressTarget? sheet (upperAscii s) = addressTarget? sheet s := by
  have hupper (cs : List Char) : String.ofList (cs.map Char.toUpper) = upperAscii (String.ofList cs) := by
    rw [upperAscii, String.toList_ofList]
  have hchars : (upperAscii s).toList = s.toList.map Char.toUpper := String.toList_ofList
  rw [addressTarget?, addressTarget?, hchars, cutColon_map_toUpper]
  cases cutColon s.toList with
  | none =>
    show (Address.parse (upperAscii s)).toOption.map _ = _
    rw [Address.toOption_parse_upperAscii]
  | some p =>
    obtain ⟨one, other⟩ := p
    show rangeTarget? sheet (String.ofList (one.map Char.toUpper)) (String.ofList (other.map Char.toUpper)) = _
    rw [hupper, hupper]
    exact rangeTarget?_upperAscii sheet _ _

/-! ### References -/

/-- A character of names, numbers and what stands between them in a range. -/
def isReferenceChar (c : Char) : Bool :=
  Lexer.isNamePart c || c == ':' || c == '+' || c == '-'

/-- A reference text without a sheet. -/
def isPlain (s : String) : Bool := !s.toList.isEmpty && s.toList.all isReferenceChar

theorem isBlank_of_isReferenceChar {c : Char} (h : isReferenceChar c = true) :
    isBlank c = false := by
  simp only [isReferenceChar, Bool.or_eq_true, beq_iff_eq] at h
  rcases h with ((hpart | rfl) | rfl) | rfl
  · exact Lexer.isBlank_of_isNamePart hpart
  · rfl
  · rfl
  · rfl

theorem head?_isPlain {s : String} (h : isPlain s = true) :
    s.toList.head?.any isBlank = false ∧ s.toList.head? ≠ some '\'' := by
  simp only [isPlain, Bool.and_eq_true, List.all_eq_true] at h
  cases hhead : s.toList.head? with
  | none => exact ⟨rfl, by simp⟩
  | some c =>
    have hc := h.2 c (List.mem_of_head? hhead)
    refine ⟨isBlank_of_isReferenceChar hc, ?_⟩
    rintro heq
    obtain rfl := Option.some.inj heq
    cases hc

theorem isTail_of_isPlain {s : String} (h : isPlain s = true) : SheetName.IsTail s.toList := by
  simp only [isPlain, Bool.and_eq_true, List.all_eq_true] at h
  refine ⟨?_, ?_, ?_⟩
  · rintro hnil
    rw [hnil] at h
    cases h.1
  · intro hbang
    cases h.2 '!' hbang
  · cases hlast : s.toList.getLast? with
    | none => rfl
    | some c => exact isBlank_of_isReferenceChar (h.2 c (List.mem_of_getLast? hlast))

/-- **A plain text is a name, or an address on the current sheet.** -/
theorem resolve_plain (t : NameTable) {s : String} (h : isPlain s = true) (sheet : String) :
    t.resolve s sheet =
      match t.find? s with
      | some named => .ok ⟨named.target, some named.name⟩
      | none =>
        match addressTarget? ((t.canonicalSheet? sheet).getD sheet) s with
        | some target => .ok ⟨target, none⟩
        | none => .error (.unknownReference s) := by
  have htail := isTail_of_isPlain h
  have hhead := head?_isPlain h
  have htrim : trim s = s := by
    rw [trim, trimChars_eq_self hhead.1 htail.last, String.ofList_toList]
  have hsplit := SheetName.splitQualifier_of_not_mem htail.bang hhead.2 hhead.1 htail.last
  rw [resolve, htrim]
  generalize SheetName.splitQualifier s = parts at hsplit ⊢
  subst hsplit
  rfl

/-- **A plain text behind a sheet is an address on that sheet.** -/
theorem resolve_written (t : NameTable) {s : String} (h : isPlain s = true)
    (qualifier sheet : String) :
    t.resolve (SheetName.written qualifier ++ "!" ++ s) sheet =
      match t.canonicalSheet? qualifier with
      | some canonical =>
        match addressTarget? canonical s with
        | some target => .ok ⟨target, none⟩
        | none => .error (.unknownReference (SheetName.written qualifier ++ "!" ++ s))
      | none => .error (.unknownSheet qualifier) := by
  have htail := isTail_of_isPlain h
  have hchars : (SheetName.written qualifier ++ "!" ++ s).toList =
      (SheetName.written qualifier).toList ++ '!' :: s.toList := by
    simp
  have htrim : trim (SheetName.written qualifier ++ "!" ++ s) =
      SheetName.written qualifier ++ "!" ++ s := by
    rw [trim, hchars, SheetName.trimChars_written qualifier htail, ← hchars, String.ofList_toList]
  have hsplit := SheetName.splitQualifier_written qualifier htail
  rw [resolve, htrim]
  generalize SheetName.splitQualifier (SheetName.written qualifier ++ "!" ++ s) = parts at hsplit ⊢
  subst hsplit
  rfl

/-- A text is resolved to the target of a name or to one within the limits. -/
theorem inLimits_of_resolve {t : NameTable} {s sheet : String} {r : Reference}
    (h : t.resolve s sheet = .ok r) :
    (∃ name n, t.find? name = some n ∧ r.target = n.target) ∨ r.target.InLimits := by
  unfold resolve at h
  extract_lets trimmed addressOn at h
  have haddress {on address : String} (hon : addressOn on address = .ok r) : r.target.InLimits := by
    dsimp only [addressOn] at hon
    split at hon
    case h_1 target htarget =>
      obtain rfl := Except.ok.inj hon
      exact (inLimits_of_addressTarget? htarget).1
    case h_2 => cases hon
  split at h
  case h_1 =>
    split at h
    case h_1 => exact .inr (haddress h)
    case h_2 => cases h
  case h_2 =>
    split at h
    case h_1 n hn =>
      obtain rfl := Except.ok.inj h
      exact .inl ⟨_, n, hn, rfl⟩
    case h_2 => exact .inr (haddress h)

/-! ### Tables from lists -/

theorem getElem?_foldl_names {names : List NamedTarget} {m : Std.TreeMap String NamedTarget}
    {key : String} {n : NamedTarget}
    (h : (names.foldl (fun m n => m.insert (upperAscii n.name) n) m)[key]? = some n) :
    n ∈ names ∧ upperAscii n.name = key ∨ m[key]? = some n := by
  induction names generalizing m with
  | nil => exact .inr h
  | cons n' rest ih =>
    rcases ih h with ⟨hmem, hkey⟩ | hget
    · exact .inl ⟨List.mem_cons_of_mem _ hmem, hkey⟩
    · rw [Std.TreeMap.getElem?_insert] at hget
      split at hget
      case isTrue heq =>
        obtain rfl := Option.some.inj hget
        exact .inl ⟨List.mem_cons_self, Std.LawfulEqOrd.eq_of_compare heq⟩
      case isFalse => exact .inr hget

/-- **A name is found under its own spelling.** -/
theorem find?_ofLists {names : List NamedTarget} {sheets : List String} {s : String}
    {n : NamedTarget} (h : (ofLists names sheets).find? s = some n) :
    n ∈ names ∧ upperAscii n.name = upperAscii s := by
  rcases getElem?_foldl_names h with hfound | hnone
  · exact hfound
  · simp at hnone

theorem getElem?_foldl_sheets {sheets : List String} {m : Std.TreeMap String String}
    {key s : String}
    (h : (sheets.foldl (fun m s => m.insertIfNew (upperAscii s) s) m)[key]? = some s) :
    s ∈ sheets ∧ upperAscii s = key ∨ m[key]? = some s := by
  induction sheets generalizing m with
  | nil => exact .inr h
  | cons s' rest ih =>
    rcases ih h with ⟨hmem, hkey⟩ | hget
    · exact .inl ⟨List.mem_cons_of_mem _ hmem, hkey⟩
    · rw [Std.TreeMap.getElem?_insertIfNew] at hget
      split at hget
      case isTrue heq =>
        obtain rfl := Option.some.inj hget
        exact .inl ⟨List.mem_cons_self, Std.LawfulEqOrd.eq_of_compare heq.1⟩
      case isFalse => exact .inr hget

/-- A sheet has a spelling under its key, and what is there stays. -/
theorem mem_foldl_sheets {sheets : List String} {m : Std.TreeMap String String} {key : String}
    (h : key ∈ m ∨ key ∈ sheets.map upperAscii) :
    key ∈ sheets.foldl (fun m s => m.insertIfNew (upperAscii s) s) m := by
  induction sheets generalizing m with
  | nil => exact h.resolve_right List.not_mem_nil
  | cons s rest ih =>
    refine ih ?_
    rw [Std.TreeMap.mem_insertIfNew, Std.LawfulEqOrd.compare_eq_iff_eq]
    rw [List.map_cons, List.mem_cons] at h
    rcases h with hmem | rfl | hrest
    · exact .inl (.inr hmem)
    · exact .inl (.inl rfl)
    · exact .inr hrest

/-- The spelling of a sheet is one of the table that differs from it in case only. -/
theorem mem_of_canonicalSheet? {names : List NamedTarget} {sheets : List String}
    {s canonical : String} (hne : sheets ≠ [])
    (h : (ofLists names sheets).canonicalSheet? s = some canonical) :
    canonical ∈ sheets ∧ upperAscii canonical = upperAscii s := by
  obtain ⟨first, hfirst⟩ := List.exists_mem_of_ne_nil sheets hne
  have hsome : (ofLists names sheets).sheets.isEmpty = false :=
    Std.TreeMap.isEmpty_eq_false_iff_exists_mem.mpr
      ⟨_, mem_foldl_sheets (.inr (List.mem_map_of_mem hfirst))⟩
  rw [canonicalSheet?, hsome] at h
  rcases getElem?_foldl_sheets h with hfound | hnone
  · exact hfound
  · simp at hnone

/-- A sheet that the table has in some case has a spelling there. -/
theorem exists_canonicalSheet? (names : List NamedTarget) {sheets : List String} {s t : String}
    (ht : t ∈ sheets) (heq : upperAscii t = upperAscii s) :
    ∃ canonical, (ofLists names sheets).canonicalSheet? s = some canonical := by
  rw [canonicalSheet?]
  split
  · exact ⟨s, rfl⟩
  · have hmem : upperAscii s ∈ (ofLists names sheets).sheets :=
      mem_foldl_sheets (.inr (heq ▸ List.mem_map_of_mem ht))
    exact ⟨_, Std.TreeMap.getElem?_eq_some_getElem hmem⟩

theorem upperAscii_canonicalSheet? {names : List NamedTarget} {sheets : List String}
    {s canonical : String} (h : (ofLists names sheets).canonicalSheet? s = some canonical) :
    upperAscii canonical = upperAscii s := by
  cases sheets with
  | nil => rw [Option.some.inj (h : some s = some canonical)]
  | cons first rest => exact (mem_of_canonicalSheet? (List.cons_ne_nil _ _) h).2

/-- **The declared spelling of a sheet is its own.** -/
theorem canonicalSheet?_ofLists {names : List NamedTarget} {sheets : List String}
    {s canonical : String} (h : (ofLists names sheets).canonicalSheet? s = some canonical) :
    (ofLists names sheets).canonicalSheet? canonical = some canonical := by
  rw [canonicalSheet?] at h ⊢
  split
  · rfl
  · next hsheets =>
    rw [if_neg hsheets] at h
    rcases getElem?_foldl_sheets h with ⟨-, hkey⟩ | hnone
    · rw [hkey]
      exact h
    · simp at hnone

/-! ### Qualified texts -/

/-- A text that starts with a quote or with `!` has no target. -/
theorem addressTarget?_eq_none {s : String}
    (h : s.toList.head? = some '\'' ∨ s.toList.head? = some '!') :
    addressTarget? sheet s = none := by
  rw [addressTarget?]
  split
  · obtain ⟨e, he⟩ := (Address.unread_of_head? h).1
    rw [he]
    rfl
  · next one other hcut =>
    -- the first part starts like the whole
    have hone : one.head? = s.toList.head? := by
      rw [cutColon] at hcut
      split at hcut
      · obtain ⟨rfl, -⟩ := Prod.mk.inj (Option.some.inj hcut)
        cases hs : s.toList with
        | nil => rfl
        | cons c rest =>
          have hcolon : c ≠ ':' := by
            rw [hs, List.head?_cons, Option.some.injEq, Option.some.injEq] at h
            rcases h with rfl | rfl <;> decide
          simp [hcolon]
      · cases hcut
    obtain ⟨⟨e, he⟩, hcolumn, hrow⟩ := Address.unread_of_head? (s := String.ofList one)
      (by rwa [String.toList_ofList, hone])
    simp only [rangeTarget?, he, hcolumn, hrow]

/-- **A qualified text lies on a sheet of the table**, if it is resolved without names. -/
theorem exists_canonicalSheet?_of_resolve {sheets : List String} {s : String} {r : Reference}
    (hbang : '!' ∈ s.toList) (h : (ofLists [] sheets).resolve s sheet = .ok r) :
    ∃ q, (ofLists [] sheets).canonicalSheet? q = some r.target.sheet := by
  unfold resolve at h
  extract_lets trimmed addressOn at h
  have htrimmed : '!' ∈ trimmed.toList := by
    show '!' ∈ (String.ofList (trimChars s.toList)).toList
    rw [String.toList_ofList]
    exact mem_trimChars hbang rfl
  split at h
  case h_1 qualifier address hsplit =>
    split at h
    case h_1 canonical hcanonical =>
      dsimp only [addressOn] at h
      split at h
      case h_1 target htarget =>
        obtain rfl := Except.ok.inj h
        exact ⟨qualifier, by rw [hcanonical, (inLimits_of_addressTarget? htarget).2]⟩
      case h_2 => cases h
    case h_2 => cases h
  case h_2 address hsplit =>
    split at h
    case h_1 named hnamed => exact absurd (find?_ofLists hnamed).1 List.not_mem_nil
    case h_2 =>
      dsimp only [addressOn] at h
      rw [addressTarget?_eq_none (SheetName.head?_of_splitQualifier htrimmed hsplit)] at h
      cases h

end NameTable

end Recalc
