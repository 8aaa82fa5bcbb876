/-
Recalc/Proofs/Text/Character.lean

Classes of characters.  Raising the case of a character moves it within the ASCII letters or
leaves it, so a class that holds all of these letters or none of them does not see the case
(`apply_toUpper`).  Names hold no blanks, and a text that neither starts nor ends with a
blank is trimmed to itself.
-/
import Recalc.Formula.Lexer

namespace Recalc

variable {c : Char}

namespace Text

/-! ### ASCII letters -/

theorem isAlpha_iff : c.isAlpha = true ↔ 65 ≤ c.toNat ∧ c.toNat ≤ 90 ∨ 97 ≤ c.toNat ∧ c.toNat ≤ 122 := by
  unfold Char.isAlpha Char.isUpper Char.isLower
  rw [Bool.or_eq_true, decide_eq_true_eq, Bool.and_eq_true, decide_eq_true_eq, decide_eq_true_eq]
  exact Iff.rfl

theorem isDigit_iff : c.isDigit = true ↔ 48 ≤ c.toNat ∧ c.toNat ≤ 57 := Char.isDigit_iff_toNat

/-- Raising the case moves the small letters only. -/
theorem toNat_toUpper (c : Char) :
    c.toUpper.toNat = if 97 ≤ c.toNat ∧ c.toNat ≤ 122 then c.toNat - 32 else c.toNat := by
  have hnat : c.val.toNat = c.toNat := rfl
  unfold Char.toUpper
  by_cases h : 'a'.val ≤ c.val ∧ c.val ≤ 'z'.val
  · have hsmall : 97 ≤ c.toNat ∧ c.toNat ≤ 122 := h
    rw [dif_pos h, if_pos hsmall]
    show (c.val + ('A'.val - 'a'.val)).toNat = c.toNat - 32
    rw [UInt32.toNat_add, hnat]
    have hstep : ('A'.val - 'a'.val).toNat = 4294967264 := rfl
    rw [hstep]
    omega
  · have hsmall : ¬(97 ≤ c.toNat ∧ c.toNat ≤ 122) := h
    rw [dif_neg h, if_neg hsmall]

theorem toUpper_eq_self_or (c : Char) :
    c.toUpper = c ∨ c.isAlpha = true ∧ c.toUpper.isAlpha = true := by
  by_cases h : 97 ≤ c.toNat ∧ c.toNat ≤ 122
  · refine .inr ⟨isAlpha_iff.mpr (.inr h), isAlpha_iff.mpr (.inl ?_)⟩
    rw [toNat_toUpper, if_pos h]
    omega
  · left
    apply Char.toNat_inj.mp
    rw [toNat_toUpper, if_neg h]

/-- **A class that holds all letters or none does not see the case.** -/
theorem apply_toUpper {p : Char → Bool} {b : Bool} (h : ∀ d, d.isAlpha = true → p d = b) :
    p c.toUpper = p c := by
  rcases toUpper_eq_self_or c with heq | ⟨hc, hup⟩
  · rw [heq]
  · rw [h _ hup, h _ hc]

theorem isAlpha_toUpper (c : Char) : c.toUpper.isAlpha = c.isAlpha :=
  apply_toUpper fun _ h => h

theorem isDigit_of_isAlpha (h : c.isAlpha = true) : c.isDigit = false := by
  rw [Bool.eq_false_iff]
  intro hdigit
  have hletter := isAlpha_iff.mp h
  have hnumeral := isDigit_iff.mp hdigit
  omega

theorem toLower_of_isDigit (h : c.isDigit = true) : c.toLower = c := by
  have hrange := isDigit_iff.mp h
  unfold Char.toLower
  rw [dif_neg]
  rintro ⟨hlow, -⟩
  rw [ge_iff_le, UInt32.le_iff_toNat_le] at hlow
  have : 65 ≤ c.toNat := hlow
  omega

theorem isDigit_toUpper (c : Char) : c.toUpper.isDigit = c.isDigit :=
  apply_toUpper fun _ => isDigit_of_isAlpha

theorem toUpper_toUpper (c : Char) : c.toUpper.toUpper = c.toUpper := by
  apply Char.toNat_inj.mp
  rw [toNat_toUpper c.toUpper, if_neg]
  rw [toNat_toUpper]
  split <;> omega

/-- A character that is no letter is raised to by itself only. -/
theorem toUpper_eq_iff {d : Char} (hd : d.isAlpha = false) : c.toUpper = d ↔ c = d := by
  rcases toUpper_eq_self_or c with heq | ⟨hc, hup⟩
  · rw [heq]
  · constructor
    · rintro rfl
      rw [hup] at hd
      cases hd
    · rintro rfl
      rw [hc] at hd
      cases hd

theorem upperAscii_upperAscii (s : String) : upperAscii (upperAscii s) = upperAscii s := by
  rw [upperAscii, upperAscii, String.toList_ofList, List.map_map]
  congr 2
  funext c
  exact toUpper_toUpper c

/-! ### Runs of a class -/

theorem takeWhile_append_stop {p : Char → Bool} {l r : List Char} (hl : ∀ d ∈ l, p d = true)
    (hr : r.head?.any p = false) : (l ++ r).takeWhile p = l := by
  rw [List.takeWhile_append_of_pos hl]
  cases r with
  | nil => simp
  | cons d rest =>
    have hd : ¬p d = true := Bool.eq_false_iff.mp hr
    rw [List.takeWhile_cons_of_neg hd, List.append_nil]

theorem dropWhile_append_stop {p : Char → Bool} {l r : List Char} (hl : ∀ d ∈ l, p d = true)
    (hr : r.head?.any p = false) : (l ++ r).dropWhile p = r := by
  rw [List.dropWhile_append_of_pos hl]
  cases r with
  | nil => rfl
  | cons d rest => exact List.dropWhile_cons_of_neg (Bool.eq_false_iff.mp hr)

/-- A run of a class that does not see the case is the same run in upper case. -/
theorem takeWhile_map_toUpper {p : Char → Bool} (h : ∀ d, p d.toUpper = p d) (cs : List Char) :
    (cs.map Char.toUpper).takeWhile p = (cs.takeWhile p).map Char.toUpper := by
  rw [List.takeWhile_map]
  congr 2
  funext d
  exact h d

theorem dropWhile_map_toUpper {p : Char → Bool} (h : ∀ d, p d.toUpper = p d) (cs : List Char) :
    (cs.map Char.toUpper).dropWhile p = (cs.dropWhile p).map Char.toUpper := by
  rw [List.dropWhile_map]
  congr 2
  funext d
  exact h d

theorem all_map_toUpper {p : Char → Bool} (h : ∀ d, p d.toUpper = p d) (cs : List Char) :
    (cs.map Char.toUpper).all p = cs.all p := by
  rw [List.all_map]
  congr 1
  funext d
  exact h d

/-! ### Trimming -/

theorem dropWhile_isBlank {cs : List Char} (h : cs.head?.any isBlank = false) :
    cs.dropWhile isBlank = cs := by
  cases cs with
  | nil => rfl
  | cons d rest => exact List.dropWhile_cons_of_neg (Bool.eq_false_iff.mp h)

theorem mem_dropWhile_of_neg {p : Char → Bool} {cs : List Char} {d : Char} (hd : d ∈ cs)
    (hp : p d = false) : d ∈ cs.dropWhile p := by
  rw [← List.takeWhile_append_dropWhile (p := p) (l := cs), List.mem_append] at hd
  refine hd.resolve_left fun htake => ?_
  rw [List.all_eq_true.mp List.all_takeWhile d htake] at hp
  cases hp

/-- Only blanks are trimmed off. -/
theorem mem_trimChars {cs : List Char} {d : Char} (hd : d ∈ cs) (hblank : isBlank d = false) :
    d ∈ trimChars cs :=
  List.mem_reverse.mpr (mem_dropWhile_of_neg
    (List.mem_reverse.mpr (mem_dropWhile_of_neg hd hblank)) hblank)

/-- A first character that is no blank stays the first one. -/
theorem exists_trimChars_cons {d : Char} (h : isBlank d = false) (cs : List Char) :
    ∃ rest, trimChars (d :: cs) = d :: rest := by
  refine ⟨(cs.reverse.dropWhile isBlank).reverse, ?_⟩
  have hlast : (cs.reverse ++ [d]).dropWhile isBlank = cs.reverse.dropWhile isBlank ++ [d] := by
    have hd : [d].dropWhile isBlank = [d] := List.dropWhile_cons_of_neg (Bool.eq_false_iff.mp h)
    rw [List.dropWhile_append, hd]
    split
    · next hnil => rw [List.isEmpty_iff.mp hnil, List.nil_append]
    · rfl
  rw [trimChars, List.dropWhile_cons_of_neg (Bool.eq_false_iff.mp h), List.reverse_cons, hlast,
    List.reverse_append]
  rfl

theorem trimChars_eq_self {cs : List Char} (hfirst : cs.head?.any isBlank = false)
    (hlast : cs.getLast?.any isBlank = false) : trimChars cs = cs := by
  rw [trimChars, dropWhile_isBlank hfirst, dropWhile_isBlank, List.reverse_reverse]
  rw [List.head?_reverse]
  exact hlast

end Text

/-! ### Characters of names -/

namespace Lexer

open Text

theorem isNamePart_of_isNameStart (h : isNameStart c = true) : isNamePart c = true := by
  simp only [isNameStart, isNamePart, isAlphanumeric, Bool.or_eq_true] at h ⊢
  grind

theorem isNameStart_of_isAlpha (h : c.isAlpha = true) : isNameStart c = true := by
  have hascii : c.toNat < 128 := by
    have hletter := isAlpha_iff.mp h
    omega
  rw [isNameStart, isAlphabetic, if_pos hascii, h, Bool.or_true]

theorem isNamePart_of_isDigit (h : c.isDigit = true) : isNamePart c = true := by
  have hascii : c.toNat < 128 := by
    have hnumeral := isDigit_iff.mp h
    omega
  rw [isNamePart, isAlphanumeric, isNumeric, if_pos hascii, h, Bool.or_true]
  rfl

theorem isNameStart_toUpper (c : Char) : isNameStart c.toUpper = isNameStart c :=
  apply_toUpper fun _ => isNameStart_of_isAlpha

theorem isNamePart_toUpper (c : Char) : isNamePart c.toUpper = isNamePart c :=
  apply_toUpper fun _ h => isNamePart_of_isNameStart (isNameStart_of_isAlpha h)

/-- The blanks, one by one. -/
def blanks : List Nat :=
  [9, 10, 11, 12, 13, 32, 0x85, 0xA0, 0x1680, 0x2000, 0x2001, 0x2002, 0x2003, 0x2004, 0x2005, 0x2006,
    0x2007, 0x2008, 0x2009, 0x200A, 0x2028, 0x2029, 0x202F, 0x205F, 0x3000]

theorem mem_blanks_of_isBlank (h : isBlank c = true) : c.toNat ∈ blanks := by
  simp only [isBlank, Bool.or_eq_true, Bool.and_eq_true, decide_eq_true_eq, beq_iff_eq] at h
  simp only [blanks, List.mem_cons, List.not_mem_nil, or_false]
  omega

/-- **Names hold no blanks.** -/
theorem isBlank_of_isNamePart (h : isNamePart c = true) : isBlank c = false := by
  rw [Bool.eq_false_iff]
  intro hblank
  have hnone : ∀ n ∈ blanks, isNamePart (Char.ofNat n) = false := by decide +kernel
  have hc := hnone _ (mem_blanks_of_isBlank hblank)
  rw [Char.ofNat_toNat, h] at hc
  cases hc

theorem isBlank_toUpper (c : Char) : isBlank c.toUpper = isBlank c :=
  apply_toUpper fun _ h =>
    isBlank_of_isNamePart (isNamePart_of_isNameStart (isNameStart_of_isAlpha h))

end Lexer

namespace Text

theorem trimChars_map_toUpper (cs : List Char) :
    trimChars (cs.map Char.toUpper) = (trimChars cs).map Char.toUpper := by
  rw [trimChars, trimChars, dropWhile_map_toUpper Lexer.isBlank_toUpper, ← List.map_reverse,
    dropWhile_map_toUpper Lexer.isBlank_toUpper, ← List.map_reverse]

theorem map_toUpper_of_isDigit {cs : List Char} (h : ∀ d ∈ cs, d.isDigit = true) :
    cs.map Char.toUpper = cs := by
  refine (List.map_congr_left fun d hd => ?_).trans (List.map_id cs)
  rcases toUpper_eq_self_or d with heq | ⟨halpha, -⟩
  · exact heq
  · have hdigit := isDigit_of_isAlpha halpha
    rw [h d hd] at hdigit
    cases hdigit

end Text

end Recalc
