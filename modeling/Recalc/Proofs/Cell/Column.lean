/-
Recalc/Proofs/Cell/Column.lean

Columns and their letters.  Letters are digits from 1 to 26 in base 26, so there is no zero,
and every number from 1 on has exactly one spelling in upper case: `letters` and `ofLetters`
are inverse to each other (`ofLetters_lettersOnto`, `lettersOnto_ofLetters`).

Reading counts in 32 bits and gives up once a product or a sum does not fit.  A number only
grows with more letters, so giving up loses nothing: reading is the same as counting without a
limit and comparing with the last column,

    parse s = if s is letters and ofLetters s ≤ maxColumn then ofLetters s else a fault

(`parse_eq`).  So `parse` and `letters` are the two directions of one codec (`codec`).
-/
import Recalc.Cell.Address
import Recalc.Proofs.Text.Character
import Mathlib.Data.List.Induction

namespace Recalc.Column

open Text

/-! ### Spelling -/

/-- One more letter behind a number. -/
def extend (n : Nat) (c : Char) : Nat := 26 * n + letterValue c

/-- The number that letters spell, without a limit. -/
def ofLetters (cs : List Char) : Nat := cs.foldl extend 0

/-- The letter of a digit in the base of the letters. -/
theorem letter_eq {k : Nat} (h : k < 26) :
    letterValue (Char.ofNat ('A'.toNat + k)) = k + 1 ∧
      (Char.ofNat ('A'.toNat + k)).isAlpha = true ∧
      (Char.ofNat ('A'.toNat + k)).toUpper = Char.ofNat ('A'.toNat + k) := by
  revert k
  decide

/-- The digit of a letter, which is never zero. -/
theorem letterValue_of_isAlpha {c : Char} (h : c.isAlpha = true) :
    1 ≤ letterValue c ∧ letterValue c ≤ 26 ∧
      Char.ofNat ('A'.toNat + (letterValue c - 1)) = c.toUpper := by
  have hupper : 65 ≤ c.toUpper.toNat ∧ c.toUpper.toNat ≤ 90 := by
    rw [toNat_toUpper]
    have hletter := isAlpha_iff.mp h
    split <;> omega
  have hA : 'A'.toNat = 65 := rfl
  rw [letterValue, hA]
  refine ⟨by omega, by omega, ?_⟩
  rw [show 65 + (c.toUpper.toNat - 65 + 1 - 1) = c.toUpper.toNat by omega]
  exact Char.ofNat_toNat _

theorem lettersOnto_eq (column : Nat) (acc : List Char) :
    lettersOnto column acc = lettersOnto column [] ++ acc := by
  induction column using Nat.strongRecOn generalizing acc with
  | ind column ih =>
    rw [lettersOnto.eq_1 column acc, lettersOnto.eq_1 column []]
    split
    · next hpos =>
      have hlt : (column - 1) / 26 < column := by omega
      rw [ih _ hlt, ih _ hlt [_], List.append_assoc, List.singleton_append]
    · rfl

theorem lettersOnto_pos {column : Nat} (h : 0 < column) :
    lettersOnto column [] = lettersOnto ((column - 1) / 26) [] ++
      [Char.ofNat ('A'.toNat + (column - 1) % 26)] := by
  rw [lettersOnto, if_pos h, lettersOnto_eq]

theorem ofLetters_append (cs : List Char) (c : Char) :
    ofLetters (cs ++ [c]) = 26 * ofLetters cs + letterValue c := by
  rw [ofLetters, List.foldl_append]
  rfl

/-- **The letters of a column spell the column.** -/
theorem ofLetters_lettersOnto (column : Nat) : ofLetters (lettersOnto column []) = column := by
  induction column using Nat.strongRecOn with
  | ind column ih =>
    by_cases hpos : 0 < column
    · have hlt : (column - 1) / 26 < column := by omega
      have hdigit : (column - 1) % 26 < 26 := Nat.mod_lt _ (by decide)
      rw [lettersOnto_pos hpos, ofLetters_append, ih _ hlt, (letter_eq hdigit).1]
      omega
    · obtain rfl : column = 0 := by omega
      rw [lettersOnto]
      rfl

/-- The letters of a column are letters in upper case. -/
theorem mem_lettersOnto {column : Nat} {c : Char} (h : c ∈ lettersOnto column []) :
    c.isAlpha = true ∧ c.toUpper = c := by
  induction column using Nat.strongRecOn with
  | ind column ih =>
    by_cases hpos : 0 < column
    · have hlt : (column - 1) / 26 < column := by omega
      have hdigit : (column - 1) % 26 < 26 := Nat.mod_lt _ (by decide)
      rw [lettersOnto_pos hpos, List.mem_append, List.mem_singleton] at h
      rcases h with hmem | rfl
      · exact ih _ hlt hmem
      · exact (letter_eq hdigit).2
    · rw [lettersOnto, if_neg hpos] at h
      cases h

theorem lettersOnto_ne_nil {column : Nat} (h : 0 < column) : lettersOnto column [] ≠ [] := by
  rw [lettersOnto_pos h]
  simp

/-- **Letters are those of the number that they spell**, but for their case. -/
theorem lettersOnto_ofLetters {cs : List Char} (h : ∀ c ∈ cs, c.isAlpha = true) :
    lettersOnto (ofLetters cs) [] = cs.map Char.toUpper := by
  induction cs using List.reverseRecOn with
  | nil =>
    rw [lettersOnto]
    rfl
  | append_singleton cs c ih =>
    obtain ⟨hlow, hhigh, hletter⟩ :=
      letterValue_of_isAlpha (h c (List.mem_append_right _ List.mem_cons_self))
    -- the last letter is the remainder, counted from 1, and the others are the quotient
    have hquotient : (26 * ofLetters cs + letterValue c - 1) / 26 = ofLetters cs := by omega
    have hremainder : (26 * ofLetters cs + letterValue c - 1) % 26 = letterValue c - 1 := by omega
    rw [ofLetters_append, lettersOnto_pos (by omega), hquotient, hremainder, hletter,
      ih fun d hd => h d (List.mem_append_left _ hd), List.map_append]
    rfl

/-- Letters spell one column in every case. -/
theorem ofLetters_map_toUpper (cs : List Char) : ofLetters (cs.map Char.toUpper) = ofLetters cs := by
  rw [ofLetters, List.foldl_map]
  simp only [extend, letterValue, toUpper_toUpper]
  rfl

/-- Some letters spell at least one. -/
theorem one_le_ofLetters {cs : List Char} (h : cs ≠ []) : 1 ≤ ofLetters cs := by
  rw [← List.dropLast_concat_getLast h, ofLetters_append, letterValue]
  omega

/-! ### Counting in 32 bits -/

theorem word?_eq_some_iff {n : Nat} {w : UInt32} : word? n = some w ↔ w.toNat = n := by
  unfold word?
  constructor
  · intro h
    split at h
    · next hfits =>
      obtain rfl := Option.some.inj h
      exact UInt32.toNat_ofNat_of_lt' hfits
    · cases h
  · rintro rfl
    rw [if_pos w.toNat_lt, UInt32.ofNat_toNat]

/-- More letters spell no less. -/
theorem le_foldl_extend (n : Nat) (cs : List Char) : n ≤ cs.foldl extend n := by
  induction cs generalizing n with
  | nil => exact Nat.le_refl n
  | cons c cs ih =>
    have hstep : n ≤ extend n c := by
      rw [extend]
      omega
    exact Nat.le_trans hstep (ih (extend n c))

/-- **Counting in 32 bits never wraps**: what comes out is the number itself, and it comes out for
all letters whose number fits. -/
theorem number?_eq_some_iff {n w : UInt32} {cs : List Char} :
    number? n cs = some w ↔
      (∀ c ∈ cs, c.isAlpha = true) ∧ w.toNat = cs.foldl extend n.toNat := by
  induction cs generalizing n with
  | nil =>
    rw [number?, Option.some_inj, ← UInt32.toNat_inj]
    exact ⟨fun h => ⟨fun c hc => absurd hc List.not_mem_nil, h.symm⟩, fun h => h.2.symm⟩
  | cons c cs ih =>
    rw [number?, List.forall_mem_cons, List.foldl_cons]
    by_cases hc : c.isAlpha = true
    · rw [if_pos hc]
      simp only [Option.bind_eq_bind, Option.bind_eq_some_iff, word?_eq_some_iff, ih, hc, true_and]
      constructor
      · rintro ⟨shifted, hshifted, next, hnext, hrest, hw⟩
        refine ⟨hrest, ?_⟩
        rw [hw, hnext, hshifted, extend, Nat.mul_comm]
      · rintro ⟨hrest, hw⟩
        -- the product and the sum fit, since the number of all letters does
        have hsum : n.toNat * 26 + letterValue c < UInt32.size := by
          have hle := le_foldl_extend (extend n.toNat c) cs
          rw [← hw, extend, Nat.mul_comm] at hle
          exact Nat.lt_of_le_of_lt hle w.toNat_lt
        have hproduct : n.toNat * 26 < UInt32.size := Nat.lt_of_le_of_lt (Nat.le_add_right _ _) hsum
        have hshifted := UInt32.toNat_ofNat_of_lt' hproduct
        have hnext := UInt32.toNat_ofNat_of_lt' hsum
        refine ⟨_, hshifted, _, hnext.trans (by rw [hshifted]), hrest, ?_⟩
        rw [hw, hnext, extend, Nat.mul_comm]
    · rw [if_neg hc]
      simp [hc]

/-- **Reading letters is counting without a limit**, and then comparing with the last column. -/
theorem parse_eq (s : String) :
    parse s =
      if s.toList ≠ [] ∧ s.toList.all Char.isAlpha ∧ ofLetters s.toList ≤ maxColumn then
        .ok (ofLetters s.toList)
      else .error (.invalidColumn s) := by
  have hzero : (0 : UInt32).toNat = 0 := rfl
  unfold parse
  by_cases hnil : s.toList = []
  · rw [if_pos hnil, if_neg fun h => h.1 hnil]
  · rw [if_neg hnil]
    cases hnumber : number? 0 s.toList with
    | some w =>
      obtain ⟨halpha, hw⟩ := number?_eq_some_iff.mp hnumber
      rw [hzero] at hw
      have hall : s.toList.all Char.isAlpha = true := List.all_eq_true.mpr halpha
      simp only [hw, ofLetters, hnil, hall, ne_eq, not_false_eq_true, true_and]
    | none =>
      refine (if_neg ?_).symm
      rintro ⟨-, hall, hmax⟩
      -- a column would fit
      have hfits : ofLetters s.toList < UInt32.size := Nat.lt_of_le_of_lt hmax (by decide)
      have hsome : number? 0 s.toList = some (UInt32.ofNat (ofLetters s.toList)) := by
        rw [number?_eq_some_iff, UInt32.toNat_ofNat_of_lt' hfits]
        exact ⟨List.all_eq_true.mp hall, rfl⟩
      rw [hnumber] at hsome
      cases hsome

/-! ### The codec -/

theorem parse_letters {column : Nat} (hpos : 0 < column) (hmax : column ≤ maxColumn) :
    parse (letters column) = .ok column := by
  have hall : (lettersOnto column []).all Char.isAlpha = true :=
    List.all_eq_true.mpr fun c hc => (mem_lettersOnto hc).1
  rw [parse_eq, letters, String.toList_ofList, ofLetters_lettersOnto,
    if_pos ⟨lettersOnto_ne_nil hpos, hall, hmax⟩]

theorem eq_ok_of_parse {s : String} {column : Nat} (h : parse s = .ok column) :
    s.toList ≠ [] ∧ (∀ c ∈ s.toList, c.isAlpha = true) ∧ column ≤ maxColumn ∧
      ofLetters s.toList = column := by
  rw [parse_eq] at h
  split at h
  case isTrue hok =>
    obtain rfl := Except.ok.inj h
    exact ⟨hok.1, List.all_eq_true.mp hok.2.1, hok.2.2, rfl⟩
  case isFalse => cases h

theorem pos_of_parse {s : String} {column : Nat} (h : parse s = .ok column) :
    1 ≤ column ∧ column ≤ maxColumn := by
  obtain ⟨hnil, -, hmax, rfl⟩ := eq_ok_of_parse h
  exact ⟨one_le_ofLetters hnil, hmax⟩

/-- **Reading and writing a column are inverse to each other.**  A text is read as a column exactly if
it is the letters of that column in some case, the letters of a column are read as it, and letters
of any length that spell a larger number are refused. -/
theorem codec (s : String) (n : Nat) :
    (parse s = .ok n ↔ (s.toList ≠ [] ∧ ∀ c ∈ s.toList, c.isAlpha = true) ∧
      (1 ≤ n ∧ n ≤ maxColumn) ∧ letters n = upperAscii s) ∧
    (1 ≤ n ∧ n ≤ maxColumn → parse (letters n) = .ok n) ∧
    (maxColumn < ofLetters s.toList → parse s = .error (.invalidColumn s)) := by
  refine ⟨⟨fun h => ?_, ?_⟩, fun h => parse_letters h.1 h.2, fun h => ?_⟩
  · obtain ⟨hnil, halpha, -, rfl⟩ := eq_ok_of_parse h
    refine ⟨⟨hnil, halpha⟩, pos_of_parse h, ?_⟩
    rw [letters, lettersOnto_ofLetters halpha, upperAscii]
  · rintro ⟨⟨hnil, halpha⟩, ⟨-, hmax⟩, hletters⟩
    have hspelt : ofLetters s.toList = n := by
      rw [← ofLetters_map_toUpper, ← ofLetters_lettersOnto n]
      exact congrArg ofLetters (String.ofList_injective hletters).symm
    rw [parse_eq, hspelt, if_pos ⟨hnil, List.all_eq_true.mpr halpha, hmax⟩]
  · rw [parse_eq]
    exact if_neg fun hok => Nat.not_le_of_lt h hok.2.2

/-- Letters that spell 2^32 + 1 are refused, and not read as the first column. -/
example : ofLetters "MWLQKWW".toList = UInt32.size + 1 ∧
    parse "MWLQKWW" = .error (.invalidColumn "MWLQKWW") :=
  ⟨by decide +kernel, rfl⟩

end Recalc.Column
