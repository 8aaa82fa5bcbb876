/-
Recalc/Proofs/Eval/Criterion.lean

Criteria that want a text.  A literal is a text that reads neither as a blank nor as a number
nor as a truth value, and that is no pattern.  Behind a sign, in front of which nothing
stands, it is wanted in the relation that the sign spells, whatever the case of letters:

    (ofText (relation.sign ++ r)).accepts tolerance (.text v) ↔
      relation.Holds (Text.lower v) (Text.lower r).

This needs that the literal has no line break.  With one in it the sign is not split off, and
the text that is wanted is the sign with the literal behind it (`accepts_signed_broken`).
-/
import Recalc.Proofs.Eval.Wildcard

namespace Recalc

namespace Relation

/-- How the relation is spelled. -/
def sign : Relation → String
  | .equal => "="
  | .notEqual => "<>"
  | .less => "<"
  | .lessEqual => "<="
  | .greater => ">"
  | .greaterEqual => ">="

/-- Two texts stand in the relation. -/
def Holds : Relation → String → String → Prop
  | .equal, s, t => s = t
  | .notEqual, s, t => s ≠ t
  | .less, s, t => s < t
  | .lessEqual, s, t => ¬t < s
  | .greater, s, t => t < s
  | .greaterEqual, s, t => ¬s < t

end Relation

namespace Text

theorem compare_eq_lt_iff {s t : String} : compare s t = .lt ↔ s < t := by
  show compareOfLessAndEq s t = .lt ↔ s < t
  exact compareOfLessAndEq_eq_lt

/-- How two texts are ordered. -/
theorem compare_cases (s t : String) :
    (compare s t = .lt ∧ s < t ∧ ¬t < s) ∨ (compare s t = .eq ∧ ¬s < t ∧ ¬t < s) ∨
      (compare s t = .gt ∧ ¬s < t ∧ t < s) := by
  have hswap : compare s t = (compare t s).swap := Std.OrientedOrd.eq_swap
  rw [← compare_eq_lt_iff, ← compare_eq_lt_iff, hswap]
  cases compare t s <;> decide

end Text

namespace Criterion

open Text

variable {r : String} {relation : Relation}

/-- The characters that start a sign. -/
def signStarts : List Char := ['<', '>', '=']

theorem forall_signStarts_iff {p : Char → Prop} :
    (∀ c ∈ signStarts, p c) ↔ p '<' ∧ p '>' ∧ p '=' := by
  simp only [signStarts, List.mem_cons, List.not_mem_nil, or_false, forall_eq_or_imp, forall_eq]

/-- The text starts with a sign. -/
def isSigned (cs : List Char) : Bool := cs.head?.any signStarts.contains

/-- A text that is wanted as it stands. -/
structure IsLiteral (r : String) : Prop where
  nonempty : r ≠ ""
  noNumber : readFloat? (trim r) = none
  noTrue : sameIgnoringCase r "TRUE" = false
  noFalse : sameIgnoringCase r "FALSE" = false
  noPattern : Wildcard.isPattern r = false

instance (r : String) : Decidable (IsLiteral r) :=
  decidable_of_iff (r ≠ "" ∧ (readFloat? (trim r)).isNone = true ∧
      sameIgnoringCase r "TRUE" = false ∧ sameIgnoringCase r "FALSE" = false ∧
      Wildcard.isPattern r = false)
    ⟨fun ⟨h₁, h₂, h₃, h₄, h₅⟩ => ⟨h₁, Option.isNone_iff_eq_none.mp h₂, h₃, h₄, h₅⟩,
      fun h => ⟨h.nonempty, Option.isNone_iff_eq_none.mpr h.noNumber, h.noTrue, h.noFalse,
        h.noPattern⟩⟩

theorem IsLiteral.wantedText (h : IsLiteral r) : wantedText r = .text (lower r) false := by
  rw [Criterion.wantedText, if_neg h.nonempty, h.noNumber, h.noTrue, h.noFalse, h.noPattern]
  rfl

/-! ### Signs -/

theorem ne_of_isSigned {c : Char} {cs : List Char} (h : isSigned (c :: cs) = false) :
    c ≠ '<' ∧ c ≠ '>' ∧ c ≠ '=' := by
  have hc : c ∉ signStarts := by
    intro hmem
    have hsigned : isSigned (c :: cs) = true := List.contains_iff_mem.mpr hmem
    rw [h] at hsigned
    cases hsigned
  simpa only [signStarts, List.mem_cons, List.not_mem_nil, or_false, not_or] using hc

theorem splitSign_of_unsigned {cs : List Char} (h : isSigned cs = false) :
    splitSign cs = (.equal, cs) := by
  cases cs with
  | nil => rfl
  | cons c rest =>
    obtain ⟨hless, hgreater, hequal⟩ := ne_of_isSigned h
    unfold splitSign
    split <;> simp_all

/-- **A sign is split off.** -/
theorem splitSign_sign (relation : Relation) {cs : List Char} (h : isSigned cs = false) :
    splitSign (relation.sign.toList ++ cs) = (relation, cs) := by
  cases cs with
  | nil => cases relation <;> rfl
  | cons c rest =>
    obtain ⟨hless, hgreater, hequal⟩ := ne_of_isSigned h
    cases relation with
    | equal => rfl
    | notEqual => rfl
    | less =>
      show splitSign ('<' :: c :: rest) = (.less, c :: rest)
      unfold splitSign
      split <;> simp_all
    | lessEqual => rfl
    | greater =>
      show splitSign ('>' :: c :: rest) = (.greater, c :: rest)
      unfold splitSign
      split <;> simp_all
    | greaterEqual => rfl

theorem mem_signStarts_sign (relation : Relation) :
    ∃ c ∈ signStarts, ∃ cs, relation.sign.toList = c :: cs := by
  cases relation with
  | equal => exact ⟨'=', by decide, [], rfl⟩
  | notEqual => exact ⟨'<', by decide, ['>'], rfl⟩
  | less => exact ⟨'<', by decide, [], rfl⟩
  | lessEqual => exact ⟨'<', by decide, ['='], rfl⟩
  | greater => exact ⟨'>', by decide, [], rfl⟩
  | greaterEqual => exact ⟨'>', by decide, ['='], rfl⟩

/-- No number and no word for one starts with a sign. -/
theorem readChars?_of_signStart {c : Char} (hc : c ∈ signStarts) (cs : List Char) :
    Decimal.readChars? (c :: cs) = none := by
  have hlower : ∀ d ∈ signStarts, d.toLower ∈ signStarts := forall_signStarts_iff.mpr (by decide)
  -- the words for infinities and for no number start with letters
  have hword {w : String} {d : Char} (hw : w.toList.head? = some d) (hd : d ∉ signStarts) :
      ¬String.ofList ((c :: cs).map Char.toLower) = w := by
    rintro rfl
    rw [String.toList_ofList, List.map_cons, List.head?_cons, Option.some.injEq] at hw
    exact hd (hw ▸ hlower c hc)
  have hsplit : Decimal.splitSign (c :: cs) = (false, c :: cs) := by
    rw [Decimal.splitSign.eq_def]
    split
    case h_1 heq => exact absurd ((List.cons.inj heq).1 ▸ hc) (by decide)
    case h_2 heq => exact absurd ((List.cons.inj heq).1 ▸ hc) (by decide)
    case h_3 => rfl
  have hunsigned : Decimal.unsigned? false (c :: cs) = none := by
    have hdigit : ∀ d ∈ signStarts, ¬d.isDigit = true := forall_signStarts_iff.mpr (by decide)
    unfold Decimal.unsigned?
    rw [List.takeWhile_cons_of_neg (hdigit c hc), List.dropWhile_cons_of_neg (hdigit c hc)]
    dsimp only
    split
    case h_1 hpoint => exact absurd ((List.cons.inj hpoint).1 ▸ hc) (by decide)
    case h_2 => exact if_pos ⟨rfl, rfl⟩
  unfold Decimal.readChars?
  rw [hsplit]
  dsimp only
  rw [if_neg (not_or.mpr ⟨hword rfl (by decide), hword rfl (by decide)⟩),
    if_neg (hword rfl (by decide)), hunsigned]
  rfl

theorem sameIgnoringCase_of_signStart {c d : Char} (hc : c ∈ signStarts)
    (hd : d.toUpper ∉ signStarts) {s t : String} {cs ds : List Char} (hs : s.toList = c :: cs)
    (ht : t.toList = d :: ds) : sameIgnoringCase s t = false := by
  have hupper : ∀ e ∈ signStarts, e.toUpper ∈ signStarts := forall_signStarts_iff.mpr (by decide)
  rw [sameIgnoringCase, beq_eq_false_iff_ne, upperAscii, upperAscii, hs, ht]
  intro heq
  have hhead := (List.cons.inj (String.ofList_injective heq)).1
  exact hd (hhead ▸ hupper c hc)

/-- A sign in front of a literal makes another literal. -/
theorem IsLiteral.signed (h : IsLiteral r) (relation : Relation) :
    IsLiteral (relation.sign ++ r) := by
  obtain ⟨c, hc, cs, hsign⟩ := mem_signStarts_sign relation
  have hlist : (relation.sign ++ r).toList = c :: (cs ++ r.toList) := by
    rw [String.toList_append, hsign]
    rfl
  constructor
  case nonempty =>
    intro hempty
    rw [hempty] at hlist
    cases hlist
  case noNumber =>
    -- the sign is no blank, so it stays in front when blanks are trimmed
    have hblank : ∀ d ∈ signStarts, isBlank d = false := forall_signStarts_iff.mpr (by decide)
    obtain ⟨rest, htrim⟩ := exists_trimChars_cons (hblank c hc) (cs ++ r.toList)
    rw [readFloat?, trim, String.toList_ofList, hlist, htrim]
    exact readChars?_of_signStart hc rest
  case noTrue => exact sameIgnoringCase_of_signStart hc (by decide) hlist rfl
  case noFalse => exact sameIgnoringCase_of_signStart hc (by decide) hlist rfl
  case noPattern =>
    rw [Wildcard.isPattern_eq_false_iff, String.toList_append]
    intro d hd
    rcases List.mem_append.mp hd with hmark | hrest
    · have hsign : Wildcard.isPattern relation.sign = false := by
        cases relation <;> decide
      exact Wildcard.isPattern_eq_false_iff.mp hsign d hmark
    · exact Wildcard.isPattern_eq_false_iff.mp h.noPattern d hrest

/-! ### Reading -/

theorem ofText_of_break {s : String} (h : '\n' ∈ s.toList) : ofText s = ⟨.equal, wantedText s⟩ :=
  if_pos (List.contains_iff_mem.mpr h)

theorem ofText_eq {s : String} (h : '\n' ∉ s.toList) {relation : Relation} {cs : List Char}
    (hsplit : splitSign s.toList = (relation, cs)) :
    ofText s = ⟨relation, wantedText (String.ofList cs)⟩ := by
  rw [ofText, if_neg fun hmem => h (List.contains_iff_mem.mp hmem), hsplit]

theorem ofText_of_unsigned (h : isSigned r.toList = false) : ofText r = ⟨.equal, wantedText r⟩ := by
  by_cases hbreak : '\n' ∈ r.toList
  · exact ofText_of_break hbreak
  · rw [ofText_eq hbreak (splitSign_of_unsigned h), String.ofList_toList]

theorem ofText_signed (h : isSigned r.toList = false) (hbreak : '\n' ∉ r.toList)
    (relation : Relation) : ofText (relation.sign ++ r) = ⟨relation, wantedText r⟩ := by
  have hno : '\n' ∉ (relation.sign ++ r).toList := by
    rw [String.toList_append, List.mem_append, not_or]
    refine ⟨?_, hbreak⟩
    cases relation <;> decide
  have hsplit : splitSign (relation.sign ++ r).toList = (relation, r.toList) := by
    rw [String.toList_append]
    exact splitSign_sign relation h
  rw [ofText_eq hno hsplit, String.ofList_toList]

/-! ### Matching -/

/-- **A text satisfies a criterion that wants a literal iff both stand in its relation.** -/
theorem accepts_literal (relation : Relation) (tolerance : Float) (r v : String) :
    accepts tolerance ⟨relation, .text (lower r) false⟩ (.text v) = true ↔
      relation.Holds (lower v) (lower r) := by
  have hordered (accept : Ordering → Bool) :
      ordered tolerance accept (.text (lower r) false) (.text v) =
        accept (compare (lower v) (lower r)) := by
    -- the wanted text is in lower case already
    show accept (compare (lower v) (lower (lower r))) = _
    rw [lower_lower]
  cases relation with
  | equal => exact beq_iff_eq.trans eq_comm
  | notEqual =>
    show (!(lower r == lower v)) = true ↔ lower v ≠ lower r
    rw [Bool.not_eq_true', beq_eq_false_iff_ne, ne_comm]
  | less | lessEqual | greater | greaterEqual =>
    dsimp only [accepts, Relation.Holds]
    rw [hordered]
    rcases compare_cases (lower v) (lower r) with ⟨h, hless, hgreater⟩ | ⟨h, hless, hgreater⟩ |
      ⟨h, hless, hgreater⟩ <;> simp [h, hless, hgreater]

/-- **Criteria are read by their sign.**  A text that satisfies a literal equals it up to case.
Behind a sign the literal is wanted in the relation that the sign spells, unless it has a line
break: then the sign is part of the text that is wanted. -/
theorem accepts_by_sign (h : IsLiteral r) (hunsigned : isSigned r.toList = false)
    (tolerance : Float) (v : String) :
    ((ofValue (.text r)).accepts tolerance (.text v) = true ↔ lower v = lower r) ∧
    ∀ relation : Relation,
      ('\n' ∉ r.toList →
        ((ofValue (.text (relation.sign ++ r))).accepts tolerance (.text v) = true ↔
          relation.Holds (lower v) (lower r))) ∧
      ('\n' ∈ r.toList →
        ((ofValue (.text (relation.sign ++ r))).accepts tolerance (.text v) = true ↔
          lower v = lower (relation.sign ++ r))) := by
  refine ⟨?_, fun relation => ⟨fun hbreak => ?_, fun hbreak => ?_⟩⟩
  · rw [ofValue, ofText_of_unsigned hunsigned, h.wantedText]
    exact accepts_literal .equal tolerance r v
  · rw [ofValue, ofText_signed hunsigned hbreak, h.wantedText]
    exact accepts_literal relation tolerance r v
  · have hsigned : '\n' ∈ (relation.sign ++ r).toList := by
      rw [String.toList_append]
      exact List.mem_append_right _ hbreak
    rw [ofValue, ofText_of_break hsigned, (h.signed relation).wantedText]
    exact accepts_literal .equal tolerance _ v

theorem accepts_by_sign_apples :
    IsLiteral "Äpfel" ∧ isSigned "Äpfel".toList = false ∧ '\n' ∉ "Äpfel".toList ∧
      ((ofValue (.text (Relation.lessEqual.sign ++ "Äpfel"))).accepts 0.0 (.text "ÄPFEL") = true ↔
        ¬lower "Äpfel" < lower "ÄPFEL") := by
  have h : IsLiteral "Äpfel" := by decide +kernel
  have hunsigned : isSigned "Äpfel".toList = false := by decide +kernel
  have hbreak : '\n' ∉ "Äpfel".toList := by decide +kernel
  exact ⟨h, hunsigned, hbreak,
    ((accepts_by_sign h hunsigned 0.0 "ÄPFEL").2 .lessEqual).1 hbreak⟩

/-- **A line break hides the sign**: the literal `a⏎b` equals itself, but does not satisfy the
criterion with the equals sign in front of it. -/
theorem accepts_signed_broken :
    IsLiteral "a\nb" ∧ isSigned "a\nb".toList = false ∧
      ¬((ofValue (.text (Relation.equal.sign ++ "a\nb"))).accepts 0.0 (.text "a\nb") = true ↔
        Relation.equal.Holds (lower "a\nb") (lower "a\nb")) := by
  refine ⟨by decide +kernel, by decide +kernel, fun hiff => ?_⟩
  have hfalse : (ofValue (.text (Relation.equal.sign ++ "a\nb"))).accepts 0.0 (.text "a\nb") =
      false := by
    decide +kernel
  rw [hiff.mpr rfl] at hfalse
  cases hfalse

end Criterion

end Recalc
