/-
Recalc/Proofs/Eval/Wildcard.lean

The texts of a pattern.  `Denotes` gives them by the characters of the pattern: a star stands
for any run of characters, a question mark for any single one, a character behind a tilde for
itself, as does a tilde at the end, and any other character for itself.  Matching decides
this:

    isMatch pattern text = true ↔ Denotes pattern.toList text.toList.

Design.  A text matches pieces if it splits into parts, one for each piece (`Splits`).  The
marks behind some pieces tell of every beginning of the text whether it splits into parts for
these pieces (`Tells`).  The start has such marks, one more piece keeps them (`Tells.step`),
and the last mark is the one of the whole text.
-/
import Recalc.Eval.Criterion
import Recalc.Eval.Lookup
import Recalc.Proofs.Text.Lowering
import Mathlib.Data.List.Basic

namespace Recalc.Wildcard

/-! ### The texts of a pattern -/

/-- The characters that are special in patterns. -/
def special : List Char := ['*', '?', '~']

/-- The text is one of those that the pattern stands for. -/
inductive Denotes : List Char → List Char → Prop
  | nil : Denotes [] []
  | star (run : List Char) {pattern text : List Char} (h : Denotes pattern text) :
      Denotes ('*' :: pattern) (run ++ text)
  | question (c : Char) {pattern text : List Char} (h : Denotes pattern text) :
      Denotes ('?' :: pattern) (c :: text)
  | escaped (c : Char) {pattern text : List Char} (h : Denotes pattern text) :
      Denotes ('~' :: c :: pattern) (c :: text)
  | tilde : Denotes ['~'] ['~']
  | plain {c : Char} (hc : c ∉ special) {pattern text : List Char} (h : Denotes pattern text) :
      Denotes (c :: pattern) (c :: text)

/-! ### The parts of a text -/

/-- The piece stands for the part. -/
def Piece.Covers : Piece → List Char → Prop
  | .anyRun, _ => True
  | .anyChar, part => ∃ c, part = [c]
  | .literal c, part => part = [c]

/-- The text splits into parts, one for each piece. -/
inductive Splits : List Piece → List Char → Prop
  | nil : Splits [] []
  | cons {p : Piece} {part : List Char} (hpart : p.Covers part) {ps : List Piece}
      {text : List Char} (h : Splits ps text) : Splits (p :: ps) (part ++ text)

theorem splits_nil_iff {text : List Char} : Splits [] text ↔ text = [] := by
  constructor
  · rintro ⟨⟩
    rfl
  · rintro rfl
    exact .nil

theorem splits_cons_iff {p : Piece} {ps : List Piece} {text : List Char} :
    Splits (p :: ps) text ↔ ∃ part rest, text = part ++ rest ∧ p.Covers part ∧ Splits ps rest := by
  constructor
  · rintro (_ | ⟨hpart, h⟩)
    exact ⟨_, _, rfl, hpart, h⟩
  · rintro ⟨part, rest, rfl, hpart, h⟩
    exact .cons hpart h

/-- One more piece takes the last part. -/
theorem splits_concat_iff {p : Piece} {ps : List Piece} {text : List Char} :
    Splits (ps ++ [p]) text ↔
      ∃ start part, text = start ++ part ∧ Splits ps start ∧ p.Covers part := by
  induction ps generalizing text with
  | nil =>
    rw [List.nil_append, splits_cons_iff]
    constructor
    · rintro ⟨part, rest, rfl, hpart, hrest⟩
      rw [splits_nil_iff.mp hrest]
      exact ⟨[], part, List.append_nil part, .nil, hpart⟩
    · rintro ⟨start, part, rfl, hstart, hpart⟩
      rw [splits_nil_iff.mp hstart]
      exact ⟨part, [], (List.append_nil part).symm, hpart, .nil⟩
  | cons q ps ih =>
    rw [List.cons_append, splits_cons_iff]
    constructor
    · rintro ⟨first, rest, rfl, hfirst, hrest⟩
      obtain ⟨start, part, rfl, hstart, hpart⟩ := ih.mp hrest
      exact ⟨first ++ start, part, (List.append_assoc ..).symm, .cons hfirst hstart, hpart⟩
    · rintro ⟨start, part, rfl, hstart, hpart⟩
      obtain ⟨first, rest, rfl, hfirst, hrest⟩ := splits_cons_iff.mp hstart
      exact ⟨first, rest ++ part, List.append_assoc .., hfirst,
        ih.mpr ⟨rest, part, rfl, hrest, hpart⟩⟩

theorem pieces_cons {c : Char} (hc : c ∉ special) (rest : List Char) :
    pieces (c :: rest) = .literal c :: pieces rest := by
  simp only [special, List.mem_cons, List.not_mem_nil, or_false, not_or] at hc
  obtain ⟨hstar, hquestion, htilde⟩ := hc
  rw [pieces]
  · rintro c' rest' heq -
    exact htilde heq
  · exact hstar
  · exact hquestion

theorem splits_of_denotes {pattern text : List Char} (h : Denotes pattern text) :
    Splits (pieces pattern) text := by
  induction h with
  | nil => exact .nil
  | star run _ ih => exact splits_cons_iff.mpr ⟨run, _, rfl, trivial, ih⟩
  | question c _ ih => exact splits_cons_iff.mpr ⟨[c], _, rfl, ⟨c, rfl⟩, ih⟩
  | escaped c _ ih => exact splits_cons_iff.mpr ⟨[c], _, rfl, rfl, ih⟩
  | tilde => exact splits_cons_iff.mpr ⟨['~'], [], rfl, rfl, .nil⟩
  | plain hc _ ih =>
    rw [pieces_cons hc]
    exact splits_cons_iff.mpr ⟨[_], _, rfl, rfl, ih⟩

theorem denotes_of_splits {pattern text : List Char} (h : Splits (pieces pattern) text) :
    Denotes pattern text := by
  fun_induction pieces pattern generalizing text with
  | case1 c rest ih =>
    obtain ⟨part, text, rfl, rfl, hrest⟩ := splits_cons_iff.mp h
    exact .escaped c (ih hrest)
  | case2 rest ih =>
    obtain ⟨run, text, rfl, -, hrest⟩ := splits_cons_iff.mp h
    exact .star run (ih hrest)
  | case3 rest ih =>
    obtain ⟨part, text, rfl, ⟨c, rfl⟩, hrest⟩ := splits_cons_iff.mp h
    exact .question c (ih hrest)
  | case4 c rest htilde hstar hquestion ih =>
    obtain ⟨part, text, rfl, rfl, hrest⟩ := splits_cons_iff.mp h
    by_cases hc : c = '~'
    · -- nothing stands behind the tilde
      cases rest with
      | nil =>
        rw [hc, splits_nil_iff.mp hrest]
        exact .tilde
      | cons c' rest' => exact (htilde c' rest' hc rfl).elim
    · refine .plain ?_ (ih hrest)
      simp only [special, List.mem_cons, List.not_mem_nil, or_false, not_or]
      exact ⟨hstar, hquestion, hc⟩
  | case5 =>
    rw [splits_nil_iff.mp h]
    exact .nil

/-! ### Marks -/

/-- The marks tell of every beginning of the text whether it splits into parts for the pieces. -/
structure Tells (ps : List Piece) (text : List Char) (marks : List Bool) : Prop where
  length : marks.length = text.length + 1
  mark : ∀ i ≤ text.length, marks[i]? = some true ↔ Splits ps (text.take i)

theorem length_spread (seen : Bool) (marks : List Bool) :
    (spread seen marks).length = marks.length := by
  induction marks generalizing seen with
  | nil => rfl
  | cons mark rest ih => rw [spread, List.length_cons, List.length_cons, ih]

/-- A star is marked wherever a mark was passed. -/
theorem getElem?_spread (seen : Bool) (marks : List Bool) (i : Nat) :
    (spread seen marks)[i]? = some true ↔
      i < marks.length ∧ (seen = true ∨ ∃ j ≤ i, marks[j]? = some true) := by
  induction marks generalizing seen i with
  | nil => simp [spread]
  | cons mark rest ih =>
    cases i with
    | zero => simp [spread]
    | succ i =>
      rw [spread, List.getElem?_cons_succ, ih, List.length_cons]
      constructor
      · rintro ⟨hlt, hseen | ⟨j, hj, hmark⟩⟩
        · refine ⟨by omega, ?_⟩
          rcases Bool.or_eq_true_iff.mp hseen with hseen | hmark
          · exact .inl hseen
          · exact .inr ⟨0, by omega, congrArg some hmark⟩
        · exact ⟨by omega, .inr ⟨j + 1, by omega, hmark⟩⟩
      · rintro ⟨hlt, hseen | ⟨j, hj, hmark⟩⟩
        · exact ⟨by omega, .inl (by rw [hseen]; rfl)⟩
        · cases j with
          | zero =>
            have hmark : mark = true := Option.some.inj hmark
            exact ⟨by omega, .inl (by rw [hmark, Bool.or_true])⟩
          | succ j => exact ⟨by omega, .inr ⟨j, by omega, hmark⟩⟩

theorem length_advance {accept : Char → Bool} {text : List Char} {marks : List Bool}
    (h : marks.length = text.length + 1) :
    (advance accept text marks).length = text.length + 1 := by
  rw [advance, List.length_cons, List.length_zipWith, h]
  omega

/-- A single character is marked behind an accepted one that was marked. -/
theorem getElem?_advance {accept : Char → Bool} {text : List Char} {marks : List Bool} {i : Nat} :
    (advance accept text marks)[i]? = some true ↔
      ∃ j c, i = j + 1 ∧ text[j]? = some c ∧ accept c = true ∧ marks[j]? = some true := by
  cases i with
  | zero => simp [advance]
  | succ i =>
    rw [advance, List.getElem?_cons_succ, List.getElem?_zipWith_eq_some]
    constructor
    · rintro ⟨c, mark, hc, hmark, hboth⟩
      obtain ⟨rfl, haccept⟩ := Bool.and_eq_true_iff.mp hboth
      exact ⟨i, c, rfl, hc, haccept, hmark⟩
    · rintro ⟨j, c, hj, hc, haccept, hmark⟩
      obtain rfl : i = j := by omega
      exact ⟨c, true, hc, hmark, haccept⟩

theorem tells_start (text : List Char) : Tells [] text (start text) := by
  refine ⟨by simp [start], fun i hi => ?_⟩
  rw [splits_nil_iff, List.take_eq_nil_iff, start]
  cases i with
  | zero => simp
  | succ i =>
    have htext : text ≠ [] := by
      rintro rfl
      cases hi
    simp [htext, List.getElem?_replicate]

/-- One more piece takes the part behind some beginning. -/
theorem splits_take_iff {ps : List Piece} {p : Piece} {text : List Char} {i : Nat} :
    Splits (ps ++ [p]) (text.take i) ↔
      ∃ j ≤ i, Splits ps (text.take j) ∧ p.Covers ((text.take i).drop j) := by
  rw [splits_concat_iff]
  constructor
  · rintro ⟨start, part, htext, hstart, hpart⟩
    have hlength : start.length ≤ i := by
      have := congrArg List.length htext
      rw [List.length_append, List.length_take] at this
      omega
    have htake : text.take start.length = start := by
      calc text.take start.length = (text.take i).take start.length := by
            rw [List.take_take, Nat.min_eq_left hlength]
        _ = start := by rw [htext, List.take_left]
    refine ⟨start.length, hlength, ?_, ?_⟩
    · rw [htake]
      exact hstart
    · rw [htext, List.drop_left]
      exact hpart
  · rintro ⟨j, hj, hstart, hpart⟩
    refine ⟨text.take j, (text.take i).drop j, ?_, hstart, hpart⟩
    rw [← Nat.min_eq_left hj, ← List.take_take, Nat.min_eq_left hj, List.take_append_drop]

theorem drop_take_eq_singleton_iff {text : List Char} {c : Char} {i j : Nat}
    (hi : i ≤ text.length) : (text.take i).drop j = [c] ↔ i = j + 1 ∧ text[j]? = some c := by
  constructor
  · intro h
    have hlength := congrArg List.length h
    rw [List.length_drop, List.length_take, List.length_singleton] at hlength
    obtain rfl : i = j + 1 := by omega
    have hfirst : ((text.take (j + 1)).drop j)[0]? = some c := by rw [h]; rfl
    rw [List.getElem?_drop, List.getElem?_take_of_lt (by omega)] at hfirst
    exact ⟨rfl, hfirst⟩
  · rintro ⟨rfl, hc⟩
    rw [List.take_add_one, hc, List.drop_left']
    · rfl
    · rw [List.length_take]
      omega

section

variable {ps : List Piece} {text : List Char} {marks : List Bool}

/-- A piece for a single character moves the marks over the accepted ones. -/
theorem Tells.advance (h : Tells ps text marks) {p : Piece} {accept : Char → Bool}
    (hcovers : ∀ part, p.Covers part ↔ ∃ c, part = [c] ∧ accept c = true) :
    Tells (ps ++ [p]) text (advance accept text marks) := by
  refine ⟨length_advance h.length, fun i hi => ?_⟩
  rw [getElem?_advance, splits_take_iff]
  constructor
  · rintro ⟨j, c, rfl, hc, haccept, hmark⟩
    refine ⟨j, by omega, (h.mark j (by omega)).mp hmark, (hcovers _).mpr ⟨c, ?_, haccept⟩⟩
    exact (drop_take_eq_singleton_iff hi).mpr ⟨rfl, hc⟩
  · rintro ⟨j, hj, hstart, hpart⟩
    obtain ⟨c, hpart, haccept⟩ := (hcovers _).mp hpart
    obtain ⟨rfl, hc⟩ := (drop_take_eq_singleton_iff hi).mp hpart
    exact ⟨j, c, rfl, hc, haccept, (h.mark j (by omega)).mpr hstart⟩

/-- A star spreads the marks. -/
theorem Tells.spread (h : Tells ps text marks) :
    Tells (ps ++ [.anyRun]) text (spread false marks) := by
  refine ⟨(length_spread false marks).trans h.length, fun i hi => ?_⟩
  rw [getElem?_spread, splits_take_iff]
  constructor
  · rintro ⟨-, hseen | ⟨j, hj, hmark⟩⟩
    · cases hseen
    · exact ⟨j, hj, (h.mark j (by omega)).mp hmark, trivial⟩
  · rintro ⟨j, hj, hstart, -⟩
    exact ⟨by rw [h.length]; omega, .inr ⟨j, hj, (h.mark j (by omega)).mpr hstart⟩⟩

/-- **One more piece.** -/
theorem Tells.step (h : Tells ps text marks) (p : Piece) :
    Tells (ps ++ [p]) text (step text marks p) := by
  cases p with
  | anyRun => exact h.spread
  | anyChar => exact h.advance fun part => by simp [Piece.Covers]
  | literal c => exact h.advance fun part => by simp [Piece.Covers]

/-- **The marks behind all pieces.** -/
theorem Tells.foldl (h : Tells ps text marks) (qs : List Piece) :
    Tells (ps ++ qs) text (qs.foldl (Wildcard.step text) marks) := by
  induction qs generalizing ps marks with
  | nil => rwa [List.append_nil]
  | cons q qs ih =>
    have hrest := ih (h.step q)
    rwa [List.append_assoc] at hrest

end

theorem matchesPieces_iff (ps : List Piece) (text : List Char) :
    matchesPieces ps text = true ↔ Splits ps text := by
  have htells : Tells ps text (ps.foldl (step text) (start text)) := (tells_start text).foldl ps
  have hlast := htells.mark text.length (Nat.le_refl _)
  rw [List.take_length] at hlast
  rw [matchesPieces, List.getLast?_eq_getElem?, htells.length, Nat.add_sub_cancel, ← hlast]
  cases (ps.foldl (step text) (start text))[text.length]? with
  | none => simp
  | some mark => simp

theorem isMatch_iff_denotes (pattern text : String) :
    isMatch pattern text = true ↔ Denotes pattern.toList text.toList :=
  (matchesPieces_iff _ _).trans ⟨denotes_of_splits, splits_of_denotes⟩

/-! ### Patterns without special characters -/

theorem isPattern_eq_false_iff {s : String} :
    isPattern s = false ↔ ∀ c ∈ s.toList, c ∉ special := by
  simp only [isPattern, special, List.any_eq_false, Bool.or_eq_true, beq_iff_eq, List.mem_cons,
    List.not_mem_nil, or_false, or_assoc]

theorem isMark_of_mem_special {c : Char} (hc : c ∈ special) : Text.IsMark c := by
  simp only [special, List.mem_cons, List.not_mem_nil, or_false] at hc
  rcases hc with rfl | rfl | rfl <;> exact ⟨by decide, by decide⟩

/-- Lowering brings no special characters in. -/
theorem isPattern_lower {s : String} (h : isPattern s = false) :
    isPattern (Text.lower s) = false := by
  rw [isPattern_eq_false_iff] at h ⊢
  intro c hc hspecial
  exact h c ((Text.mem_lower_iff (isMark_of_mem_special hspecial) s).mp hc) hspecial

theorem denotes_iff_eq {pattern text : List Char} (h : ∀ c ∈ pattern, c ∉ special) :
    Denotes pattern text ↔ text = pattern := by
  induction pattern generalizing text with
  | nil =>
    constructor
    · rintro ⟨⟩
      rfl
    · rintro rfl
      exact .nil
  | cons c pattern ih =>
    have hc := h c (List.mem_cons_self ..)
    have hrest := fun d hd => h d (List.mem_cons_of_mem c hd)
    constructor
    · intro hdenotes
      cases hdenotes with
      | star => exact absurd (by decide) hc
      | question => exact absurd (by decide) hc
      | escaped => exact absurd (by decide) hc
      | tilde => exact absurd (by decide) hc
      | plain _ htext => rw [(ih hrest).mp htext]
    · rintro rfl
      exact .plain hc ((ih hrest).mpr rfl)

/-- Without special characters a pattern matches itself only. -/
theorem isMatch_iff_eq {pattern : String} (h : isPattern pattern = false) (text : String) :
    isMatch pattern text = true ↔ text = pattern := by
  rw [isMatch_iff_denotes, denotes_iff_eq (isPattern_eq_false_iff.mp h)]
  exact String.toList_inj

theorem isMatch_eq_beq {pattern : String} (h : isPattern pattern = false) (text : String) :
    isMatch pattern text = (pattern == text) := by
  rw [Bool.eq_iff_iff, isMatch_iff_eq h, beq_iff_eq, eq_comm]

/-- **Matching decides the texts of a pattern.**  Without special characters this is equality, so
it does not matter to criteria and to lookups whether a text is taken as a pattern. -/
theorem isMatch_language (pattern text : String) :
    (isMatch pattern text = true ↔ Denotes pattern.toList text.toList) ∧
    (isPattern pattern = false →
      (isMatch pattern text = true ↔ text = pattern) ∧
      ∀ tolerance : Float,
        Criterion.equals tolerance (.text (Text.lower pattern) true) (.text text) =
          Criterion.equals tolerance (.text (Text.lower pattern) false) (.text text) ∧
        isMatch (Text.lower pattern) (Text.lower text) =
          Lookup.isExact tolerance (.text pattern) (.text text)) := by
  refine ⟨isMatch_iff_denotes pattern text, fun h => ⟨isMatch_iff_eq h text, fun tolerance => ?_⟩⟩
  have hlower := isMatch_eq_beq (isPattern_lower h) (Text.lower text)
  refine ⟨hlower, hlower.trans ?_⟩
  rw [Lookup.isExact, h, if_neg Bool.false_ne_true]
  exact Bool.beq_comm

theorem isMatch_language_accents :
    isPattern "ÉTÉ" = false ∧ (isMatch "ÉTÉ" "été" = true ↔ "été" = "ÉTÉ") ∧
      isMatch (Text.lower "ÉTÉ") (Text.lower "été") =
        Lookup.isExact 0.0 (.text "ÉTÉ") (.text "été") := by
  have h : isPattern "ÉTÉ" = false := by decide +kernel
  obtain ⟨hself, hbranches⟩ := (isMatch_language "ÉTÉ" "été").2 h
  exact ⟨h, hself, (hbranches 0.0).2⟩

-- the tilde makes the second star a character
example : isMatch "a*~*?" "a-b-*c" = true := by decide +kernel

end Recalc.Wildcard
