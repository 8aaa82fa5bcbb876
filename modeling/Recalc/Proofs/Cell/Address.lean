/-
Recalc/Proofs/Cell/Address.lean

Addresses and their texts.  The letters of a column read back as the column and the digits
of a row as the row, so an address within the limits reads back from its text
(`parse_text`); what reads as an address lies within the limits (`inLimits_of_parse`).

The case of letters does not matter: a text and its upper case read alike.
-/
import Recalc.Proofs.Cell.Column
import Mathlib.Data.List.TakeWhile

namespace Recalc

open Text

/-! ### Rows -/

namespace Row

theorem ofDigits_toDigits (row : Nat) : ofDigits (Nat.toDigits 10 row) = row :=
  Nat.ofDigitChars_ten_toDigits

theorem parse_digits {row : Nat} (hpos : 1 ≤ row) (hmax : row ≤ maxRow) :
    parse (toString row) = .ok row := by
  rw [parse, Nat.toString_eq_ofList_toDigits, String.toList_ofList, ofDigits_toDigits,
    if_pos ⟨hpos, hmax⟩]

theorem pos_of_parse {s : String} {row : Nat} (h : parse s = .ok row) : 1 ≤ row ∧ row ≤ maxRow := by
  rw [parse] at h
  split at h
  case isTrue hok =>
    obtain rfl := Except.ok.inj h
    exact hok
  case isFalse => cases h

end Row

/-! ### Addresses -/

namespace Address

/-- Within the limits of a sheet. -/
structure InLimits (a : Address) : Prop where
  column : 1 ≤ a.column ∧ a.column ≤ maxColumn
  row : 1 ≤ a.row ∧ a.row ≤ maxRow

/-- **What reads as an address is within the limits.** -/
theorem inLimits_of_parse {s : String} {a : Address} (h : parse s = .ok a) : a.InLimits := by
  rw [parse] at h
  split at h
  case h_1 letters digits _ =>
    rw [ofSplit] at h
    cases hcolumn : Column.parse letters with
    | error e =>
      rw [hcolumn] at h
      cases h
    | ok column =>
      cases hrow : Row.parse digits with
      | error e =>
        rw [hcolumn, hrow] at h
        cases h
      | ok row =>
        rw [hcolumn, hrow] at h
        obtain rfl := Except.ok.inj h
        exact ⟨Column.pos_of_parse hcolumn, Row.pos_of_parse hrow⟩
  case h_2 => cases h

theorem dropAnchor_of_ne {c : Char} {cs : List Char} (h : c ≠ '$') :
    dropAnchor (c :: cs) = c :: cs := by
  unfold dropAnchor
  split
  · next heq => exact absurd (List.cons.inj heq).1 h
  · rfl

theorem head?_isAlpha_of_isDigit {cs : List Char} (h : ∀ c ∈ cs, c.isDigit = true) :
    cs.head?.any Char.isAlpha = false := by
  cases cs with
  | nil => rfl
  | cons c rest =>
    rw [List.head?_cons, Option.any_some, Bool.eq_false_iff]
    intro halpha
    have hdigit := isDigit_of_isAlpha halpha
    rw [h c List.mem_cons_self] at hdigit
    cases hdigit

/-- Letters and digits are taken apart again. -/
theorem split?_append {letters digits : List Char} (hletters : letters ≠ []) (hdigits : digits ≠ [])
    (halpha : ∀ c ∈ letters, c.isAlpha = true) (hdigit : ∀ c ∈ digits, c.isDigit = true) :
    split? (letters ++ digits) =
      some (String.ofList (letters.map Char.toUpper), String.ofList digits) := by
  have hbody : dropAnchor (letters ++ digits) = letters ++ digits := by
    cases letters with
    | nil => exact absurd rfl hletters
    | cons c rest =>
      refine dropAnchor_of_ne ?_
      rintro rfl
      cases halpha '$' List.mem_cons_self
  have htail : dropAnchor digits = digits := by
    cases digits with
    | nil => exact absurd rfl hdigits
    | cons c rest =>
      refine dropAnchor_of_ne ?_
      rintro rfl
      cases hdigit '$' List.mem_cons_self
  have hstop := head?_isAlpha_of_isDigit hdigit
  rw [split?, hbody, takeWhile_append_stop halpha hstop, dropWhile_append_stop halpha hstop, htail,
    if_pos ⟨hletters, hdigits, List.all_eq_true.mpr hdigit⟩]

theorem text_eq (a : Address) : a.text.toList =
    Column.lettersOnto a.column [] ++ Nat.toDigits 10 a.row := by
  rw [text, String.toList_append, Column.letters, String.toList_ofList,
    Nat.toString_eq_ofList_toDigits, String.toList_ofList]

theorem isDigit_of_mem_row {row : Nat} {c : Char} (h : c ∈ Nat.toDigits 10 row) :
    c.isDigit = true :=
  Nat.isDigit_of_mem_toDigits (by decide) (by decide) h

/-- Letters and digits hold no blanks, so they are trimmed to themselves. -/
theorem trimChars_of_alphanum {cs : List Char}
    (h : ∀ c ∈ cs, c.isAlpha = true ∨ c.isDigit = true) : trimChars cs = cs := by
  have hblank : ∀ c ∈ cs, isBlank c = false := by
    intro c hc
    rcases h c hc with halpha | hdigit
    · exact Lexer.isBlank_of_isNamePart
        (Lexer.isNamePart_of_isNameStart (Lexer.isNameStart_of_isAlpha halpha))
    · exact Lexer.isBlank_of_isNamePart (Lexer.isNamePart_of_isDigit hdigit)
  apply trimChars_eq_self
  · cases hhead : cs.head? with
    | none => rfl
    | some c => exact hblank c (List.mem_of_head? hhead)
  · cases hlast : cs.getLast? with
    | none => rfl
    | some c => exact hblank c (List.mem_of_getLast? hlast)

/-- **An address reads back from its text.** -/
theorem parse_text {a : Address} (h : a.InLimits) : parse a.text = .ok a := by
  have halpha : ∀ c ∈ Column.lettersOnto a.column [], c.isAlpha = true :=
    fun c hc => (Column.mem_lettersOnto hc).1
  have hdigit : ∀ c ∈ Nat.toDigits 10 a.row, c.isDigit = true := fun c => isDigit_of_mem_row
  have hupper : (Column.lettersOnto a.column []).map Char.toUpper =
      Column.lettersOnto a.column [] :=
    (List.map_congr_left fun c hc => (Column.mem_lettersOnto hc).2).trans (List.map_id _)
  have htrim : trimChars a.text.toList = a.text.toList := by
    refine trimChars_of_alphanum fun c hc => ?_
    rw [text_eq, List.mem_append] at hc
    exact hc.imp (halpha c) (hdigit c)
  rw [parse, htrim, text_eq, split?_append (Column.lettersOnto_ne_nil h.column.1)
    Nat.toDigits_ne_nil halpha hdigit, hupper]
  show ofSplit (Column.letters a.column) (String.ofList (Nat.toDigits 10 a.row)) = .ok a
  rw [← Nat.toString_eq_ofList_toDigits, ofSplit, Column.parse_letters h.column.1 h.column.2,
    Row.parse_digits h.row.1 h.row.2]
  rfl

/-- Letters alone are no address. -/
theorem exists_parse_eq_error_of_isAlpha {s : String} (h : ∀ c ∈ s.toList, c.isAlpha = true) :
    ∃ e, parse s = .error e := by
  have hbody : dropAnchor s.toList = s.toList := by
    cases hchars : s.toList with
    | nil => rfl
    | cons c rest =>
      refine dropAnchor_of_ne ?_
      rintro rfl
      have hdollar := h '$' (hchars ▸ List.mem_cons_self)
      cases hdollar
  have hrest : s.toList.dropWhile Char.isAlpha = [] := List.dropWhile_eq_nil_iff.mpr h
  have hsplit : split? s.toList = none := by
    rw [split?, hbody, hrest]
    exact if_neg fun hall => hall.2.1 rfl
  rw [parse, trimChars_of_alphanum fun c hc => .inl (h c hc), hsplit]
  exact ⟨_, rfl⟩

/-- Digits alone are no address. -/
theorem exists_parse_eq_error_of_isDigit {s : String} (h : ∀ c ∈ s.toList, c.isDigit = true) :
    ∃ e, parse s = .error e := by
  have hbody : dropAnchor s.toList = s.toList := by
    cases hchars : s.toList with
    | nil => rfl
    | cons c rest =>
      refine dropAnchor_of_ne ?_
      rintro rfl
      have hdollar := h '$' (hchars ▸ List.mem_cons_self)
      cases hdollar
  have hletters : s.toList.takeWhile Char.isAlpha = [] :=
    takeWhile_append_stop (fun _ hd => absurd hd List.not_mem_nil) (head?_isAlpha_of_isDigit h)
  have hsplit : split? s.toList = none := by
    rw [split?, hbody, hletters]
    exact if_neg fun hall => hall.1 rfl
  rw [parse, trimChars_of_alphanum fun c hc => .inr (h c hc), hsplit]
  exact ⟨_, rfl⟩

theorem column?_letters {column : Nat} (hpos : 0 < column) (hmax : column ≤ maxColumn) :
    column? (Column.letters column) = some column := by
  have halpha : ∀ c ∈ Column.lettersOnto column [], c.isAlpha = true :=
    fun c hc => (Column.mem_lettersOnto hc).1
  have hchars : unanchored (Column.letters column) = Column.lettersOnto column [] := by
    rw [unanchored, Column.letters, String.toList_ofList,
      trimChars_of_alphanum fun c hc => .inl (halpha c hc)]
    cases hhead : Column.lettersOnto column [] with
    | nil => rfl
    | cons c rest =>
      refine List.dropWhile_cons_of_neg ?_
      rw [decide_eq_true_eq]
      rintro rfl
      have hdollar := halpha '$' (hhead ▸ List.mem_cons_self)
      cases hdollar
  rw [column?, hchars,
    if_pos ⟨Column.lettersOnto_ne_nil hpos, List.all_eq_true.mpr halpha⟩]
  show (Column.parse (Column.letters column)).toOption = _
  rw [Column.parse_letters hpos hmax]
  rfl

theorem unanchored_of_isDigit {s : String} (h : ∀ c ∈ s.toList, c.isDigit = true) :
    unanchored s = s.toList := by
  rw [unanchored, trimChars_of_alphanum fun c hc => .inr (h c hc)]
  cases hchars : s.toList with
  | nil => rfl
  | cons c rest =>
    refine List.dropWhile_cons_of_neg ?_
    rw [decide_eq_true_eq]
    rintro rfl
    have hdollar := h '$' (hchars ▸ List.mem_cons_self)
    cases hdollar

theorem column?_of_isDigit {s : String} (h : ∀ c ∈ s.toList, c.isDigit = true) :
    column? s = none := by
  rw [column?, unanchored_of_isDigit h]
  refine if_neg fun ⟨hne, halpha⟩ => ?_
  have hhead := head?_isAlpha_of_isDigit h
  obtain ⟨c, rest, hchars⟩ := List.exists_cons_of_ne_nil hne
  rw [hchars] at halpha hhead
  have hc : c.isAlpha = true := List.all_eq_true.mp halpha c List.mem_cons_self
  rw [List.head?_cons, Option.any_some, hc] at hhead
  cases hhead

theorem row?_digits {row : Nat} (hpos : 1 ≤ row) (hmax : row ≤ maxRow) :
    row? (toString row) = some row := by
  have hdigit : ∀ c ∈ Nat.toDigits 10 row, c.isDigit = true := fun c => isDigit_of_mem_row
  have hchars : unanchored (toString row) = Nat.toDigits 10 row := by
    rw [unanchored_of_isDigit, Nat.toString_eq_ofList_toDigits, String.toList_ofList]
    rwa [Nat.toString_eq_ofList_toDigits, String.toList_ofList]
  rw [row?, hchars, if_pos ⟨Nat.toDigits_ne_nil, List.all_eq_true.mpr hdigit⟩,
    ← Nat.toString_eq_ofList_toDigits, Row.parse_digits hpos hmax]
  rfl

/-! ### Upper case -/

/-- A text that starts with a quote or with `!` is no address, no column and no row. -/
theorem unread_of_head? {s : String} (h : s.toList.head? = some '\'' ∨ s.toList.head? = some '!') :
    (∃ e, parse s = .error e) ∧ column? s = none ∧ row? s = none := by
  obtain ⟨c, cs, hchars, hc⟩ : ∃ c cs, s.toList = c :: cs ∧ (c = '\'' ∨ c = '!') := by
    cases hs : s.toList with
    | nil => simp [hs] at h
    | cons c cs => exact ⟨c, cs, rfl, by simpa [hs] using h⟩
  have hkind : isBlank c = false ∧ c.isAlpha = false ∧ c.isDigit = false ∧ c ≠ '$' := by
    rcases hc with rfl | rfl <;> decide
  obtain ⟨hblank, halpha, hdigit, hanchor⟩ := hkind
  obtain ⟨rest, htrim⟩ := exists_trimChars_cons hblank cs
  have hunanchored : unanchored s = c :: rest := by
    rw [unanchored, hchars, htrim]
    exact List.dropWhile_cons_of_neg (by simpa using hanchor)
  have hsplit : split? (c :: rest) = none := by
    rw [split?, dropAnchor_of_ne hanchor, List.takeWhile_cons_of_neg (Bool.eq_false_iff.mp halpha)]
    exact if_neg fun hall => hall.1 rfl
  refine ⟨?_, ?_, ?_⟩
  · rw [parse, hchars, htrim, hsplit]
    exact ⟨_, rfl⟩
  · rw [column?, hunanchored, List.all_cons, halpha]
    exact if_neg fun hall => Bool.noConfusion hall.2
  · rw [row?, hunanchored, List.all_cons, hdigit]
    exact if_neg fun hall => Bool.noConfusion hall.2

theorem dropAnchor_map_toUpper (cs : List Char) :
    dropAnchor (cs.map Char.toUpper) = (dropAnchor cs).map Char.toUpper := by
  cases cs with
  | nil => rfl
  | cons c rest =>
    by_cases hc : c = '$'
    · subst hc
      rfl
    · rw [List.map_cons, dropAnchor_of_ne hc, dropAnchor_of_ne, List.map_cons]
      rwa [Ne, toUpper_eq_iff (by decide)]

theorem split?_map_toUpper (cs : List Char) : split? (cs.map Char.toUpper) = split? cs := by
  rw [split?, split?]
  simp only [dropAnchor_map_toUpper, takeWhile_map_toUpper isAlpha_toUpper,
    dropWhile_map_toUpper isAlpha_toUpper, all_map_toUpper isDigit_toUpper, ne_eq,
    List.map_eq_nil_iff, List.map_map]
  split
  · next h =>
    rw [map_toUpper_of_isDigit (List.all_eq_true.mp h.2.2)]
    congr 3
    exact List.map_congr_left fun c _ => toUpper_toUpper c
  · rfl

/-- **The case of an address does not matter.** -/
theorem toOption_parse_upperAscii (s : String) :
    (parse (upperAscii s)).toOption = (parse s).toOption := by
  rw [parse, parse, upperAscii, String.toList_ofList, trimChars_map_toUpper, split?_map_toUpper]
  cases split? (trimChars s.toList) with
  | none => rfl
  | some parts => rfl

theorem unanchored_upperAscii (s : String) :
    unanchored (upperAscii s) = (unanchored s).map Char.toUpper := by
  rw [unanchored, unanchored, upperAscii, String.toList_ofList, trimChars_map_toUpper]
  refine dropWhile_map_toUpper (fun d => ?_) _
  rw [decide_eq_decide]
  exact toUpper_eq_iff (by decide)

theorem column?_upperAscii (s : String) : column? (upperAscii s) = column? s := by
  rw [column?, column?, unanchored_upperAscii, all_map_toUpper isAlpha_toUpper]
  simp only [Column.parse_eq, String.toList_ofList, all_map_toUpper isAlpha_toUpper,
    Column.ofLetters_map_toUpper, ne_eq, List.map_eq_nil_iff]
  split
  · split <;> rfl
  · rfl

theorem row?_upperAscii (s : String) : row? (upperAscii s) = row? s := by
  rw [row?, row?, unanchored_upperAscii, all_map_toUpper isDigit_toUpper]
  simp only [ne_eq, List.map_eq_nil_iff]
  split
  · next h => rw [map_toUpper_of_isDigit (List.all_eq_true.mp h.2)]
  · rfl

end Address

end Recalc
