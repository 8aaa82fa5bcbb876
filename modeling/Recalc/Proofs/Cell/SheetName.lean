/-
Recalc/Proofs/Cell/SheetName.lean

Sheet names in references.  Whatever a sheet is called, the name in front of a reference is
taken off again as it was:

    splitQualifier (written sheet ++ "!" ++ address) = (some sheet, address),

for an address without `!` that does not end in a blank.  A bare name holds no `!` and no
quote, so the last `!` ends it; in a quoted one every quote is doubled, so the first single
one ends it.
-/
import Recalc.Cell.SheetName
import Recalc.Proofs.Text.Character
import Mathlib.Data.List.TakeWhile

namespace Recalc.SheetName

open Text

variable {name tail a : List Char}

/-! ### Quoted names -/

theorem closeQuote?_doubleQuotes (h : tail.head? ≠ some '\'') :
    closeQuote? (doubleQuotes name ++ '\'' :: tail) = some (name, tail) := by
  induction name with
  | nil =>
    cases tail with
    | nil => rfl
    | cons d rest =>
      rw [doubleQuotes, List.flatMap_nil, List.nil_append, closeQuote?]
      rintro rest' hrest
      exact h (congrArg List.head? hrest)
  | cons c rest ih =>
    rw [doubleQuotes, List.flatMap_cons]
    by_cases hc : c = '\''
    · subst hc
      show (closeQuote? (doubleQuotes rest ++ '\'' :: tail)).map _ = _
      rw [ih, Option.map_some]
    · rw [if_neg hc, List.singleton_append, List.cons_append]
      rw [closeQuote?]
      · show (closeQuote? (doubleQuotes rest ++ '\'' :: tail)).map _ = _
        rw [ih, Option.map_some]
      · exact fun _ h => absurd h hc
      · exact fun h => absurd h hc

/-! ### Bare names -/

theorem cutLastBang_append (h : '!' ∉ a) : cutLastBang (name ++ '!' :: a) = some (name, a) := by
  have hreverse : (name ++ '!' :: a).reverse = a.reverse ++ '!' :: name.reverse := by simp
  have hall : ∀ c ∈ a.reverse, (decide (c ≠ '!')) = true := by
    intro c hc
    rw [decide_eq_true_eq]
    rintro rfl
    exact h (List.mem_reverse.mp hc)
  rw [cutLastBang, hreverse]
  rw [List.takeWhile_append_of_pos hall, List.dropWhile_append_of_pos hall]
  simp

theorem cutLastBang_of_not_mem (h : '!' ∉ a) : cutLastBang a = none := by
  have hall : ∀ c ∈ a.reverse, (decide (c ≠ '!')) = true := by
    intro c hc
    rw [decide_eq_true_eq]
    rintro rfl
    exact h (List.mem_reverse.mp hc)
  have hdrop : a.reverse.dropWhile (fun c => decide (c ≠ '!')) = [] := by
    rw [List.dropWhile_eq_nil_iff]
    exact hall
  rw [cutLastBang]
  simp only [hdrop]

/-- A bare name starts with a name character and holds name characters only. -/
theorem isNamePart_of_isBare {s : String} (h : isBare s = true) {c : Char} (hc : c ∈ s.toList) :
    Lexer.isNamePart c = true := by
  simp only [isBare, Bool.and_eq_true, List.all_eq_true, Bool.or_eq_true, beq_iff_eq] at h
  rcases h.1.1.2 c hc with halnum | rfl
  · rw [Char.isAlphanum, Bool.or_eq_true] at halnum
    rcases halnum with halpha | hdigit
    · exact Lexer.isNamePart_of_isNameStart (Lexer.isNameStart_of_isAlpha halpha)
    · exact Lexer.isNamePart_of_isDigit hdigit
  · rfl

theorem head?_written (sheet : String) : ∃ c rest, (written sheet).toList = c :: rest ∧
    (isBare sheet = true ∧ Lexer.isNamePart c = true ∨ isBare sheet = false ∧ c = '\'') := by
  cases hbare : isBare sheet with
  | true =>
    rw [written, if_pos hbare]
    cases hchars : sheet.toList with
    | nil => simp [isBare, hchars] at hbare
    | cons c rest =>
      have hc : c ∈ sheet.toList := hchars ▸ List.mem_cons_self
      exact ⟨c, rest, rfl, .inl ⟨rfl, isNamePart_of_isBare hbare hc⟩⟩
  | false =>
    rw [written, if_neg (Bool.eq_false_iff.mp hbare), String.toList_ofList]
    exact ⟨_, _, rfl, .inr ⟨rfl, rfl⟩⟩

/-! ### Qualifiers -/

/-- The address part of a reference: no `!` in it, and no blank at its end. -/
structure IsTail (a : List Char) : Prop where
  nonempty : a ≠ []
  bang : '!' ∉ a
  last : a.getLast?.any isBlank = false

theorem trimChars_written (sheet : String) (h : IsTail a) :
    trimChars ((written sheet).toList ++ '!' :: a) = (written sheet).toList ++ '!' :: a := by
  apply trimChars_eq_self
  · obtain ⟨c, rest, hchars, hc⟩ := head?_written sheet
    rw [hchars]
    rcases hc with ⟨-, hpart⟩ | ⟨-, rfl⟩
    · exact Lexer.isBlank_of_isNamePart hpart
    · rfl
  · have hlast := h.last
    rw [List.getLast?_eq_some_getLast h.nonempty] at hlast
    rw [List.getLast?_append, List.getLast?_cons_of_ne_nil h.nonempty,
      List.getLast?_eq_some_getLast h.nonempty]
    exact hlast

/-- **A sheet in front of a reference is taken off as it was.** -/
theorem splitQualifier_written (sheet : String) {a : String} (h : IsTail a.toList) :
    splitQualifier (written sheet ++ "!" ++ a) = (some sheet, a) := by
  have hchars : (written sheet ++ "!" ++ a).toList = (written sheet).toList ++ '!' :: a.toList := by
    simp
  obtain ⟨c, rest, hhead, hc⟩ := head?_written sheet
  rw [splitQualifier, hchars, trimChars_written sheet h]
  rcases hc with ⟨hbare, hpart⟩ | ⟨hbare, rfl⟩
  · have hquote : c ≠ '\'' := by
      rintro rfl
      revert hpart
      decide
    have hname : (written sheet).toList = sheet.toList := by rw [written, if_pos hbare]
    have hne : sheet.toList ≠ [] := by
      rw [← hname, hhead]
      exact List.cons_ne_nil _ _
    split
    · next heq =>
      rw [hhead] at heq
      exact absurd (List.cons.inj heq).1 hquote
    · rw [cutLastBang_append h.bang, hname]
      simp [hne]
  · have hname : (written sheet).toList ++ '!' :: a.toList =
        '\'' :: (doubleQuotes sheet.toList ++ '\'' :: '!' :: a.toList) := by
      rw [written, if_neg (Bool.eq_false_iff.mp hbare)]
      simp
    have hclose : closeQuote? (doubleQuotes sheet.toList ++ '\'' :: '!' :: a.toList) =
        some (sheet.toList, '!' :: a.toList) := closeQuote?_doubleQuotes (by simp)
    rw [hname]
    simp [hclose]

/-- A text without `!` that starts with no quote has no sheet in front. -/
theorem splitQualifier_of_not_mem {s : String} (hbang : '!' ∉ s.toList)
    (hquote : s.toList.head? ≠ some '\'') (hfirst : s.toList.head?.any isBlank = false)
    (hlast : s.toList.getLast?.any isBlank = false) : splitQualifier s = (none, s) := by
  rw [splitQualifier, trimChars_eq_self hfirst hlast]
  split
  · next heq =>
    rw [heq] at hquote
    exact absurd rfl hquote
  · rw [cutLastBang_of_not_mem hbang]
    simp

/-- A text with `!` but without a sheet in front starts with a quote or with `!`. -/
theorem head?_of_splitQualifier {s address : String} (hbang : '!' ∈ s.toList)
    (h : splitQualifier s = (none, address)) :
    address.toList.head? = some '\'' ∨ address.toList.head? = some '!' := by
  have hmem : '!' ∈ trimChars s.toList := mem_trimChars hbang rfl
  unfold splitQualifier at h
  generalize trimChars s.toList = cs at h hmem
  dsimp only at h
  split at h
  case h_1 rest =>
    split at h
    case h_1 => cases h
    case h_2 =>
      obtain ⟨-, rfl⟩ := Prod.mk.inj h
      exact .inl (by rw [String.toList_ofList]; rfl)
  case h_2 =>
    -- the text is cut at its last `!`
    obtain ⟨tail, name, hreverse, htail⟩ :=
      List.eq_append_cons_of_mem (List.mem_reverse.mpr hmem)
    have hcs : cs = name.reverse ++ '!' :: tail.reverse := by
      rw [← List.reverse_reverse cs, hreverse]
      simp
    rw [hcs, cutLastBang_append (fun hmem => htail (List.mem_reverse.mp hmem))] at h
    dsimp only at h
    split at h
    case isTrue hempty =>
      obtain ⟨-, rfl⟩ := Prod.mk.inj h
      rw [hempty, List.nil_append, String.toList_ofList]
      exact .inr rfl
    case isFalse => cases h

end Recalc.SheetName
