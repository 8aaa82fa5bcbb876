/-
Recalc/Proofs/Eval/Criteria.lean

Large ranges under criteria.  The range of the first criterion leads: its cells are
walked, and in a large range only those that the source has.  A blank may satisfy a
criterion, so a cell without an entry may match, and is then missed.  The functions over
criteria give the same result at every threshold if they notice nothing that is missed:

    (∀ v, Missed conditions target v → body.notes v = false) →
      body.apply ⟨s, o.withThreshold n⟩ args = body.apply ⟨s, o.withThreshold k⟩ args.

This cannot be left out: blanks are counted in a small range and not in a large one
(`count_blanks_ne`).  It holds if the first criterion accepts no blank, and for a sum or a
mean of the tested cells themselves.
-/
import Recalc.Proofs.Eval.Threshold

namespace Recalc

open EvalContext

/-- The functions over criteria. -/
def Builtin.conditional : List Builtin := [.sumif, .sumifs, .countif, .averageif]

/-- The values that a function over criteria takes notice of: a count of all, a sum or a mean of
numbers and faults. -/
def Builtin.notes : Builtin → Value → Bool
  | .countif, _ => true
  | _, v => v.isNumeric || v.isError

namespace Conditional

variable {s : CellSource} {entry : Coordinate → Option Value} {o : EvalOptions} {n k : Nat}
  {args : List Operand} {conditions : List Condition} {target : CellRange}

/-- The conditions and the target of a function over criteria. -/
def criteria (ctx : EvalContext) (args : List Operand) :
    Builtin → Except Fault (List Condition × CellRange)
  | .sumifs => do
    let target ← rangeArg args 0
    return (← pairs ctx args.tail, target)
  | _ => single ctx args

/-- A value of the target where all conditions hold and the leading range has no entry. -/
def Missed (ctx : EvalContext) (entry : Coordinate → Option Value) (conditions : List Condition)
    (target : CellRange) (v : Value) : Prop :=
  ∃ lead others c, conditions = lead :: others ∧ entry c = none ∧
    matchAt ctx lead others target (c, .empty) = some v

/-! ### Readers of matched values -/

/-- A sum passes over all but numbers and faults. -/
theorem notices_tally (acc : Float) (count : Nat) :
    Notices (fun v => v.isNumeric || v.isError) (tally acc count) := by
  intro vs
  induction vs generalizing acc count with
  | nil => rfl
  | cons v vs ih =>
    cases v with
    | number x => exact ih (acc + x) (count + 1)
    | date x => exact ih (acc + x) (count + 1)
    | error f => rfl
    | text _ => exact ih acc count
    | boolean _ => exact ih acc count
    | empty => exact ih acc count

/-! ### Cells of the leading range -/

theorem matchAt_eq_none {ctx : EvalContext} {lead : Condition} {others : List Condition}
    {e : Coordinate × Value} (h : lead.range.contains e.1 = false) :
    matchAt ctx lead others target e = none := by
  have hoffset : lead.range.offset? e.1 = none := by simp [CellRange.offset?, h]
  rw [matchAt, hoffset]
  split <;> rfl

/-- A match is at an offset in the leading range, and has the target's value there. -/
theorem exists_of_matchAt {ctx : EvalContext} {lead : Condition} {others : List Condition}
    {e : Coordinate × Value} {v : Value} (h : matchAt ctx lead others target e = some v) :
    ∃ i j, lead.range.offset? e.1 = some (i, j) ∧
      v = ctx.source.value (CellRange.shift target.first i j) := by
  rw [matchAt] at h
  split at h
  case isFalse => cases h
  case isTrue =>
    split at h
    case h_2 => cases h
    case h_1 i j hoffset =>
      split at h
      case isFalse => cases h
      case isTrue => exact ⟨i, j, hoffset, (Option.some.inj h).symm⟩

/-- **What is noticed among the matches**, by walking the leading range. -/
theorem noticed_cells (h : s.HasEntries entry) {notes : Value → Bool} {lead : Condition}
    {others : List Condition} {ctx : EvalContext}
    (hmissed : ∀ c v, entry c = none → matchAt ctx lead others target (c, .empty) = some v →
      notes v = false) (o : EvalOptions) :
    ((cells ⟨s, o⟩ lead.range).filterMap (matchAt ctx lead others target)).filter notes =
      ((lead.range.cells.map fun c => (c, s.value c)).filterMap
        (matchAt ctx lead others target)).filter notes := by
  rw [cells]
  split
  case isFalse => rfl
  case isTrue =>
    show ((s.boundIn lead.range).filterMap _).filter _ = _
    by_cases hr : lead.range.Ordered
    · rw [h.boundIn_eq_filter hr, List.filterMap_filter, List.filter_filterMap,
        List.filter_filterMap]
      apply List.filterMap_congr
      intro e he
      obtain ⟨c, -, rfl⟩ := List.mem_map.mp he
      cases hc : entry c with
      | some v => simp
      | none =>
        -- a match without an entry is not noticed
        rw [h.value_of_none hc]
        cases hmatch : matchAt ctx lead others target (c, .empty) with
        | none => simp
        | some v => simp [Option.filter, hmissed c v hc hmatch]
    · -- a range with its corners out of order contains no cell, so nothing matches
      have hnone : ∀ c, lead.range.contains c = false := by
        intro c
        apply Bool.eq_false_iff.mpr
        intro hc
        obtain ⟨-, hrow, hcolumn⟩ := CellRange.contains_iff.mp hc
        exact hr ⟨Nat.le_trans hcolumn.1 hcolumn.2, Nat.le_trans hrow.1 hrow.2⟩
      rw [List.filterMap_congr fun e _ => matchAt_eq_none (hnone e.1),
        List.filterMap_congr fun e _ => matchAt_eq_none (hnone e.1)]
      simp

theorem matched_threshold (h : s.HasEntries entry) {notes : Value → Bool}
    (hmissed : ∀ v, Missed ⟨s, o⟩ entry conditions target v → notes v = false) :
    (matched ⟨s, o.withThreshold n⟩ conditions target).map (List.filter notes) =
      (matched ⟨s, o.withThreshold k⟩ conditions target).map (List.filter notes) := by
  cases conditions with
  | nil => rfl
  | cons lead others =>
    rw [matched, matched]
    split
    case isFalse => rfl
    case isTrue =>
      have hlead : ∀ c v, entry c = none →
          matchAt ⟨s, o⟩ lead others target (c, .empty) = some v → notes v = false :=
        fun c v hc hmatch => hmissed v ⟨lead, others, c, rfl, hc, hmatch⟩
      -- whether a cell matches does not depend on the threshold
      exact congrArg Except.ok ((noticed_cells h hlead _).trans (noticed_cells h hlead _).symm)

/-- A reader that notices nothing that is missed reads the matched values alike. -/
theorem read_matched (h : s.HasEntries entry) {notes : Value → Bool}
    (hmissed : ∀ v, Missed ⟨s, o⟩ entry conditions target v → notes v = false)
    {read : List Value → Except Fault Value} (hread : Notices notes read) :
    matched ⟨s, o.withThreshold n⟩ conditions target >>= read =
      matched ⟨s, o.withThreshold k⟩ conditions target >>= read := by
  have hfilter : ∀ x : Except Fault (List Value), x >>= read = x.map (List.filter notes) >>= read := by
    intro x
    cases x with
    | error f => rfl
    | ok vs => exact (hread vs).symm
  rw [hfilter, matched_threshold h hmissed, ← hfilter]

/-! ### The functions -/

/-- The functions over one criterion differ in what they read off the matched values. -/
theorem single_threshold (h : s.HasEntries entry) {notes : Value → Bool}
    (hmissed : ∀ conditions target v, single ⟨s, o⟩ args = .ok (conditions, target) →
      Missed ⟨s, o⟩ entry conditions target v → notes v = false)
    {read : List Value → Except Fault Value} (hread : Notices notes read) :
    (do
      let (conditions, target) ← single ⟨s, o.withThreshold n⟩ args
      read (← matched ⟨s, o.withThreshold n⟩ conditions target)) =
    (do
      let (conditions, target) ← single ⟨s, o.withThreshold k⟩ args
      read (← matched ⟨s, o.withThreshold k⟩ conditions target)) := by
  apply bind_congr_ok
  rintro ⟨conditions, target⟩ hsingle
  exact read_matched h (fun v => hmissed conditions target v hsingle) hread

theorem pairs_threshold (s : CellSource) (o : EvalOptions) (n : Nat) (args : List Operand) :
    pairs ⟨s, o.withThreshold n⟩ args = pairs ⟨s, o⟩ args := by
  fun_induction pairs ⟨s, o⟩ args with
  | case1 range criterion rest ih =>
    rw [pairs, ih]
    rfl
  | case2 args hne => rw [pairs]; exact hne

theorem sumIfs_threshold (h : s.HasEntries entry)
    (hmissed : ∀ conditions target v, criteria ⟨s, o⟩ args .sumifs = .ok (conditions, target) →
      Missed ⟨s, o⟩ entry conditions target v → Builtin.notes .sumifs v = false) :
    sumIfs ⟨s, o.withThreshold n⟩ args = sumIfs ⟨s, o.withThreshold k⟩ args := by
  rw [sumIfs, sumIfs, pairs_threshold, pairs_threshold]
  refine if_congr Iff.rfl rfl (bind_congr_ok fun target htarget => ?_)
  refine bind_congr_ok fun conditions hconditions => ?_
  refine read_matched h (fun v => hmissed conditions target v ?_) ((notices_tally 0.0 0).bind _)
  rw [criteria, htarget]
  exact congrArg (fun x => x >>= fun c => pure (c, target)) hconditions

/-- **Criteria over a source at every threshold.** -/
theorem apply_threshold (h : s.HasEntries entry) {body : Builtin}
    (hbody : body ∈ Builtin.conditional)
    (hmissed : ∀ conditions target v, criteria ⟨s, o⟩ args body = .ok (conditions, target) →
      Missed ⟨s, o⟩ entry conditions target v → body.notes v = false) :
    body.apply ⟨s, o.withThreshold n⟩ args = body.apply ⟨s, o.withThreshold k⟩ args := by
  simp only [Builtin.conditional, List.mem_cons, List.not_mem_nil, or_false] at hbody
  rcases hbody with rfl | rfl | rfl | rfl
  · exact single_threshold h hmissed ((notices_tally 0.0 0).bind _)
  · exact sumIfs_threshold h hmissed
  · -- every match counts
    refine single_threshold h hmissed fun vs => ?_
    have hall : vs.filter (Builtin.notes .countif) = vs := List.filter_eq_self.mpr fun _ _ => rfl
    rw [hall]
  · exact single_threshold h hmissed ((notices_tally 0.0 0).bind _)

/-- **Criteria at every threshold**: a function over criteria gives the same result, unless it takes
notice of a value where a cell that the map does not have matches. -/
theorem apply_eq_of_missed (m : CellMap) (options : EvalOptions) (n k : Nat) (args : List Operand)
    {body : Builtin} (hbody : body ∈ Builtin.conditional)
    (hmissed : ∀ conditions target v,
      criteria ⟨m.source, options⟩ args body = .ok (conditions, target) →
      Missed ⟨m.source, options⟩ (fun c => m[c]?) conditions target v → body.notes v = false) :
    body.apply ⟨m.source, options.withThreshold n⟩ args =
      body.apply ⟨m.source, options.withThreshold k⟩ args :=
  apply_threshold m.hasEntries hbody hmissed

/-- A sum or a mean of the tested cells themselves misses blanks only, so it is the same at every
threshold. -/
theorem apply_eq_of_self (h : s.HasEntries entry) {body : Builtin}
    (hbody : body = .sumif ∨ body = .averageif) (hself : args[2]? = none) :
    body.apply ⟨s, o.withThreshold n⟩ args = body.apply ⟨s, o.withThreshold k⟩ args := by
  have hmissed : ∀ conditions target v, single ⟨s, o⟩ args = .ok (conditions, target) →
      Missed ⟨s, o⟩ entry conditions target v → v = .empty := by
    rintro conditions target v hsingle ⟨lead, others, c, hlead, hc, hmatch⟩
    obtain ⟨range, criterion, -, rfl, htarget⟩ := single_eq_ok hsingle
    obtain ⟨rfl, rfl⟩ := List.cons.inj hlead
    obtain ⟨i, j, hoffset, rfl⟩ := exists_of_matchAt hmatch
    rcases htarget with rfl | ⟨arg, other, harg, -⟩
    · rw [← (CellRange.offset?_eq_some_iff.mp hoffset).2]
      exact h.value_of_none hc
    · rw [hself] at harg
      cases harg
  rcases hbody with rfl | rfl
  · refine apply_threshold h (by decide) fun conditions target v hsingle hv => ?_
    rw [hmissed conditions target v hsingle hv]
    rfl
  · refine apply_threshold h (by decide) fun conditions target v hsingle hv => ?_
    rw [hmissed conditions target v hsingle hv]
    rfl

/-- Two cells to test for blanks, and the cells beside them to sum up. -/
def blankSum : List Operand :=
  [.range ⟨⟨"S", 1, 1⟩, ⟨"S", 1, 2⟩⟩, .value (.text ""), .range ⟨⟨"S", 2, 1⟩, ⟨"S", 2, 2⟩⟩]

/-- A text beside the first of them. -/
def noted : CellMap := .ofList [(⟨"S", 2, 1⟩, .text "x")]

theorem apply_blankSum : Builtin.sumif ∈ Builtin.conditional ∧
    (∀ conditions target v,
      criteria ⟨noted.source, .standard⟩ blankSum .sumif = .ok (conditions, target) →
      Missed ⟨noted.source, .standard⟩ (fun c => noted[c]?) conditions target v →
      Builtin.notes .sumif v = false) ∧
    Builtin.sumif.apply ⟨noted.source, EvalOptions.standard.withThreshold 1⟩ blankSum =
      Builtin.sumif.apply ⟨noted.source, EvalOptions.standard.withThreshold 2⟩ blankSum := by
  have hbody : Builtin.sumif ∈ Builtin.conditional := by decide
  have hmissed : ∀ conditions target v,
      criteria ⟨noted.source, .standard⟩ blankSum .sumif = .ok (conditions, target) →
      Missed ⟨noted.source, .standard⟩ (fun c => noted[c]?) conditions target v →
      Builtin.notes .sumif v = false := by
    rintro conditions target v hcriteria ⟨lead, others, c, hlead, -, hmatch⟩
    obtain ⟨i, j, hoffset, rfl⟩ := exists_of_matchAt hmatch
    obtain ⟨rfl, rfl⟩ := Prod.mk.inj (Except.ok.inj hcriteria)
    obtain ⟨rfl, rfl⟩ := List.cons.inj hlead
    -- the target has a text and a blank
    have hbeside : ∀ i < 2, ∀ j < 1, Builtin.notes .sumif
        (noted.value (CellRange.shift ⟨"S", 2, 1⟩ i j)) = false := by
      decide +kernel
    obtain ⟨hi, hj⟩ := CellRange.lt_of_offset?_eq_some hoffset
    exact hbeside i hi j hj
  exact ⟨hbody, hmissed, apply_eq_of_missed noted .standard 1 2 blankSum hbody hmissed⟩

/-- Two cells to test for blanks. -/
def blankCount : List Operand := [.range ⟨⟨"S", 1, 1⟩, ⟨"S", 1, 2⟩⟩, .value (.text "")]

/-- **Blanks count in a small range only**: of two cells that are not there, both are blank as long
as the range is walked, and none is once it is large. -/
theorem count_blanks_ne :
    Builtin.countif.apply ⟨(∅ : CellMap).source, EvalOptions.standard.withThreshold 1⟩ blankCount ≠
      Builtin.countif.apply ⟨(∅ : CellMap).source, EvalOptions.standard.withThreshold 2⟩
        blankCount := by
  intro heq
  have hlarge : (Value.ofExcept (Builtin.countif.apply
      ⟨(∅ : CellMap).source, EvalOptions.standard.withThreshold 1⟩ blankCount)).same
        (.number 0.0) = true := by
    decide +kernel
  have hsmall : (Value.ofExcept (Builtin.countif.apply
      ⟨(∅ : CellMap).source, EvalOptions.standard.withThreshold 2⟩ blankCount)).same
        (.number 0.0) = false := by
    decide +kernel
  rw [heq, hsmall] at hlarge
  cases hlarge

end Conditional

end Recalc
