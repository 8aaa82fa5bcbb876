/-
Recalc/Proofs/Text/Lowering.lean

Lower case of texts.  A character in lower case is left as it is, and every character of a
text in lower case is one of these, a sigma at the end of a word included.  So lowering twice
is lowering once:

    lower (lower s) = lower s.

Only the empty text is empty in lower case, and marks of ASCII that are no letters stand in
the lower case of a text iff they stand in the text (`mem_lower_iff`).

Design.  What a run moves is moved by no run again.  Runs whose images and code points do not
overlap need no look at the single code points (`CaseRun.apart`), and few pairs are left.
-/
import Recalc.Text.Case
import Recalc.Proofs.Text.Character

namespace Recalc.Text

variable {c d : Char}

/-! ### Runs -/

namespace CaseRun

variable {r r' : CaseRun} {n : Nat}

/-- The code point that a moved one goes to. -/
def image (r : CaseRun) (n : Nat) : Nat := ((n : Int) + r.shift).toNat

/-- The code points that are moved. -/
def moved (r : CaseRun) : List Nat :=
  (List.range ((r.last - r.first) / r.step + 1)).map fun k => r.first + r.step * k

/-- The second run moves no code point that the first one has moved. -/
def apart (r r' : CaseRun) : Bool :=
  Nat.blt (r.image r.last) r'.first || Nat.blt r'.last (r.image r.first) ||
    r.moved.all fun n => !r'.moves (r.image n)

/-- The images are characters above ASCII or small letters, and none is the dotted capital I. -/
def landsWell (r : CaseRun) : Bool :=
  r.moved.all fun n => decide (r.image n).isValidChar && r.image n != 0x130 &&
    (Nat.blt 127 (r.image n) || Nat.blt 96 (r.image n) && Nat.blt (r.image n) 123)

theorem moves_iff :
    r.moves n = true ↔ r.first ≤ n ∧ n ≤ r.last ∧ (n - r.first) % r.step = 0 := by
  simp only [moves, Bool.and_eq_true, decide_eq_true_eq, beq_iff_eq, and_assoc]

theorem mem_moved (h : r.moves n = true) : n ∈ r.moved := by
  obtain ⟨hfirst, hlast, hstep⟩ := moves_iff.mp h
  refine List.mem_map.mpr ⟨(n - r.first) / r.step, List.mem_range.mpr ?_, ?_⟩
  · exact Nat.lt_succ_of_le (Nat.div_le_div_right (Nat.sub_le_sub_right hlast _))
  · have hdiv := Nat.div_add_mod (n - r.first) r.step
    omega

theorem not_moves_image (hapart : r.apart r' = true) (h : r.moves n = true) :
    r'.moves (r.image n) = false := by
  obtain ⟨hfirst, hlast, -⟩ := moves_iff.mp h
  have hlow : r.image r.first ≤ r.image n := Int.toNat_le_toNat (by omega)
  have hhigh : r.image n ≤ r.image r.last := Int.toNat_le_toNat (by omega)
  simp only [apart, Bool.or_eq_true, Nat.blt_eq, List.all_eq_true, Bool.not_eq_true'] at hapart
  rcases hapart with (habove | hbelow) | hnone
  · rw [Bool.eq_false_iff]
    intro hmoves
    have := (moves_iff.mp hmoves).1
    omega
  · rw [Bool.eq_false_iff]
    intro hmoves
    have := (moves_iff.mp hmoves).2.1
    omega
  · exact hnone n (mem_moved h)

theorem lands_of_moves (hlands : r.landsWell = true) (h : r.moves n = true) :
    (r.image n).isValidChar ∧ r.image n ≠ 0x130 ∧
      (127 < r.image n ∨ 97 ≤ r.image n ∧ r.image n ≤ 122) := by
  have himage := List.all_eq_true.mp hlands n (mem_moved h)
  simp only [Bool.and_eq_true, Bool.or_eq_true, decide_eq_true_eq, bne_iff_ne, Nat.blt_eq]
    at himage
  obtain ⟨⟨hvalid, hne⟩, hplace⟩ := himage
  exact ⟨hvalid, hne, by omega⟩

end CaseRun

/-- **No run for lower case moves what another has moved.** -/
theorem apart_lowerRuns : (lowerRuns.all fun r => lowerRuns.all r.apart) = true := by
  decide +kernel

theorem landsWell_lowerRuns : lowerRuns.all CaseRun.landsWell = true := by
  decide +kernel

/-! ### Single characters -/

/-- A character of texts in lower case. -/
structure IsLowered (c : Char) : Prop where
  ne_sigma : c ≠ 'Σ'
  fixed : lowerChar c = [c]

/-- Lowering moves the capital letters of ASCII. -/
theorem toNat_toLower (c : Char) :
    c.toLower.toNat = if 65 ≤ c.toNat ∧ c.toNat ≤ 90 then c.toNat + 32 else c.toNat := by
  have hnat : c.val.toNat = c.toNat := rfl
  unfold Char.toLower
  by_cases h : 'A'.val ≤ c.val ∧ c.val ≤ 'Z'.val
  · have hcapital : 65 ≤ c.toNat ∧ c.toNat ≤ 90 := h
    rw [dif_pos h, if_pos hcapital]
    show (c.val + ('a'.val - 'A'.val)).toNat = c.toNat + 32
    rw [UInt32.toNat_add, hnat]
    have hstep : ('a'.val - 'A'.val).toNat = 32 := rfl
    rw [hstep]
    omega
  · have hcapital : ¬(65 ≤ c.toNat ∧ c.toNat ≤ 90) := h
    rw [dif_neg h, if_neg hcapital]

theorem toLower_toLower (c : Char) : c.toLower.toLower = c.toLower := by
  apply Char.toNat_inj.mp
  rw [toNat_toLower c.toLower, if_neg]
  rw [toNat_toLower]
  split <;> omega

/-- A character above ASCII is left alone or moved by a run. -/
theorem shiftCase_cases (c : Char) :
    shiftCase lowerRuns c = c ∧ (∀ r ∈ lowerRuns, r.moves c.toNat = false) ∨
      ∃ r ∈ lowerRuns, r.moves c.toNat = true ∧
        shiftCase lowerRuns c = Char.ofNat (r.image c.toNat) := by
  unfold shiftCase
  cases hfind : lowerRuns.find? (·.moves c.toNat) with
  | none =>
    refine .inl ⟨rfl, fun r hr => ?_⟩
    exact Bool.eq_false_iff.mpr (List.find?_eq_none.mp hfind r hr)
  | some r =>
    have hmoves : r.moves c.toNat = true :=
      List.find?_some (p := fun r : CaseRun => r.moves c.toNat) hfind
    exact .inr ⟨r, List.mem_of_find?_eq_some hfind, hmoves, rfl⟩

theorem isLowered_toLower (h : c.toNat < 128) : IsLowered c.toLower := by
  have hascii : c.toLower.toNat < 128 := by
    rw [toNat_toLower]
    split <;> omega
  constructor
  · intro heq
    rw [heq] at hascii
    exact absurd hascii (by decide)
  · rw [lowerChar, if_pos hascii, toLower_toLower]

theorem toNat_ofNat {n : Nat} (h : n.isValidChar) : (Char.ofNat n).toNat = n := by
  unfold Char.ofNat
  rw [dif_pos h]
  rfl

theorem isLowered_ofNat {n : Nat} (hvalid : n.isValidChar) (hdotted : n ≠ 0x130)
    (hplace : 127 < n ∨ 97 ≤ n ∧ n ≤ 122) (hmoves : ∀ r ∈ lowerRuns, r.moves n = false) :
    IsLowered (Char.ofNat n) := by
  have hnat : (Char.ofNat n).toNat = n := toNat_ofNat hvalid
  rcases hplace with habove | hsmall
  · constructor
    · -- the capital sigma is moved
      intro heq
      have hsigma : n = 931 := hnat.symm.trans (congrArg Char.toNat heq)
      have hmoved : lowerRuns.any (·.moves 931) = true := by decide +kernel
      obtain ⟨r, hr, hmoves'⟩ := List.any_eq_true.mp hmoved
      rw [← hsigma, hmoves r hr] at hmoves'
      cases hmoves'
    · have hnone : lowerRuns.find? (·.moves n) = none :=
        List.find?_eq_none.mpr fun r hr => Bool.eq_false_iff.mp (hmoves r hr)
      unfold lowerChar shiftCase
      rw [hnat, if_neg (by omega), if_neg hdotted, hnone]
  · have hlower : (Char.ofNat n).toLower = Char.ofNat n := by
      apply Char.toNat_inj.mp
      rw [toNat_toLower, hnat, if_neg (by omega)]
    rw [← hlower]
    exact isLowered_toLower (by omega)

/-- **The lower case of a character is in lower case.** -/
theorem isLowered_of_mem_lowerChar (hc : c ≠ 'Σ') (hd : d ∈ lowerChar c) : IsLowered d := by
  unfold lowerChar at hd
  split at hd
  case isTrue hascii =>
    rw [List.mem_singleton.mp hd]
    exact isLowered_toLower hascii
  case isFalse hascii =>
    split at hd
    case isTrue =>
      have hdotted : ∀ e ∈ ['i', Char.ofNat 0x307], e ≠ 'Σ' ∧ lowerChar e = [e] := by
        simp only [List.mem_cons, List.not_mem_nil, or_false, forall_eq_or_imp, forall_eq]
        decide +kernel
      exact ⟨(hdotted d hd).1, (hdotted d hd).2⟩
    case isFalse hdotted =>
      rw [List.mem_singleton.mp hd]
      rcases shiftCase_cases c with ⟨heq, hmoves⟩ | ⟨r, hr, hmoves, heq⟩
      · rw [heq]
        refine ⟨hc, ?_⟩
        rw [lowerChar, if_neg hascii, if_neg hdotted, heq]
      · rw [heq]
        obtain ⟨hvalid, hne, hplace⟩ :=
          CaseRun.lands_of_moves (List.all_eq_true.mp landsWell_lowerRuns r hr) hmoves
        refine isLowered_ofNat hvalid hne hplace fun r' hr' => ?_
        have hapart := List.all_eq_true.mp (List.all_eq_true.mp apart_lowerRuns r hr) r' hr'
        exact CaseRun.not_moves_image hapart hmoves

/-- A mark of ASCII: no letter. -/
structure IsMark (c : Char) : Prop where
  ascii : c.toNat < 128
  noLetter : c.isAlpha = false

/-- **Lowering makes no marks and drops none.** -/
theorem mem_lowerChar_iff (hd : IsMark d) : d ∈ lowerChar c ↔ d = c := by
  have hletter : ¬(97 ≤ d.toNat ∧ d.toNat ≤ 122) ∧ ¬(65 ≤ d.toNat ∧ d.toNat ≤ 90) := by
    have hno := Bool.eq_false_iff.mp hd.noLetter
    rw [ne_eq, isAlpha_iff] at hno
    omega
  have hascii := hd.ascii
  unfold lowerChar
  split
  case isTrue =>
    rw [List.mem_singleton, ← Char.toNat_inj, ← Char.toNat_inj, toNat_toLower]
    split <;> omega
  case isFalse hc =>
    have hne : d ≠ c := by
      rintro rfl
      exact hc hascii
    refine iff_of_false ?_ hne
    split
    case isTrue =>
      have hdotted : ∀ e ∈ ['i', Char.ofNat 0x307],
          97 ≤ e.toNat ∧ e.toNat ≤ 122 ∨ 127 < e.toNat := by
        simp only [List.mem_cons, List.not_mem_nil, or_false, forall_eq_or_imp, forall_eq]
        decide
      intro hmem
      have := hdotted d hmem
      omega
    case isFalse =>
      rw [List.mem_singleton]
      rcases shiftCase_cases c with ⟨heq, -⟩ | ⟨r, hr, hmoves, heq⟩
      · rw [heq]
        exact hne
      · obtain ⟨hvalid, -, hplace⟩ :=
          CaseRun.lands_of_moves (List.all_eq_true.mp landsWell_lowerRuns r hr) hmoves
        rw [heq, ← Char.toNat_inj, toNat_ofNat hvalid]
        omega

theorem lowerChar_ne_nil (c : Char) : lowerChar c ≠ [] := by
  unfold lowerChar
  split
  · exact List.cons_ne_nil _ _
  · split <;> exact List.cons_ne_nil _ _

/-! ### Texts -/

/-- **A text in lower case has characters in lower case only.** -/
theorem isLowered_of_mem_lowerAfter {before cs : List Char} (hd : d ∈ lowerAfter before cs) :
    IsLowered d := by
  induction cs generalizing before with
  | nil => cases hd
  | cons c rest ih =>
    rw [lowerAfter] at hd
    rcases List.mem_append.mp hd with himage | hrest
    · split at himage
      · -- both small sigmas are in lower case
        rw [List.mem_singleton.mp himage]
        split
        · exact ⟨by decide, by decide +kernel⟩
        · exact ⟨by decide, by decide +kernel⟩
      · next hc => exact isLowered_of_mem_lowerChar hc himage
    · exact ih hrest

theorem lowerAfter_eq_self {cs : List Char} (h : ∀ d ∈ cs, IsLowered d) (before : List Char) :
    lowerAfter before cs = cs := by
  induction cs generalizing before with
  | nil => rfl
  | cons c rest ih =>
    have hc := h c (List.mem_cons_self ..)
    rw [lowerAfter, if_neg hc.ne_sigma, hc.fixed,
      ih fun d hd => h d (List.mem_cons_of_mem _ hd)]
    rfl

/-- **Lowering twice is lowering once.** -/
theorem lower_lower (s : String) : lower (lower s) = lower s := by
  rw [lower, lower, String.toList_ofList,
    lowerAfter_eq_self fun _ hd => isLowered_of_mem_lowerAfter hd]

theorem mem_lowerAfter_iff (hd : IsMark d) (before cs : List Char) :
    d ∈ lowerAfter before cs ↔ d ∈ cs := by
  induction cs generalizing before with
  | nil => exact Iff.rfl
  | cons c rest ih =>
    rw [lowerAfter, List.mem_append, ih, List.mem_cons]
    refine or_congr_left ?_
    split
    · next hc =>
      -- no sigma is a mark
      have hsigma : ∀ e ∈ ['Σ', 'σ', 'ς'], ¬e.toNat < 128 := by
        simp only [List.mem_cons, List.not_mem_nil, or_false, forall_eq_or_imp, forall_eq]
        decide
      rw [hc, List.mem_singleton]
      refine iff_of_false ?_ ?_
      · rintro rfl
        refine hsigma _ ?_ hd.ascii
        split <;> decide
      · rintro rfl
        exact hsigma _ (by decide) hd.ascii
    · exact mem_lowerChar_iff hd

/-- **Marks stand in the lower case of a text iff they stand in the text.** -/
theorem mem_lower_iff (hd : IsMark d) (s : String) : d ∈ (lower s).toList ↔ d ∈ s.toList := by
  rw [lower, String.toList_ofList, mem_lowerAfter_iff hd]

/-- Only the empty text is empty in lower case. -/
theorem lower_eq_empty_iff {s : String} : lower s = "" ↔ s = "" := by
  constructor
  · intro h
    have hnil : lowerAfter [] s.toList = [] := String.ofList_injective h
    cases hs : s.toList with
    | nil => exact String.toList_injective hs
    | cons c rest =>
      rw [hs, lowerAfter, List.append_eq_nil_iff] at hnil
      have himage := hnil.1
      split at himage
      · cases himage
      · exact absurd himage (lowerChar_ne_nil c)
  · rintro rfl
    rfl

end Recalc.Text
