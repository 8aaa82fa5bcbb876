/-
Recalc/Proofs/Eval/Reads.lean

What functions read.  A function sees cells only through its operands, so over two
sources that agree on all cells of its operands it computes the same:

    Builtin.apply ⟨s, o⟩ args body = Builtin.apply ⟨t, o⟩ args body.

Design.  There are few ways to read an operand: its one value, all its values, its table,
and the cells of its range with other cells at the same offsets.  Each way has one lemma,
and the functions follow by rewriting with these.

One way reads more than the operand: where a criterion on one range selects from another
one, the second is taken in the shape of the first, whatever its own shape is.  `Resized`
says which cells these are.
-/
import Recalc.Eval.Builtin
import Recalc.Proofs.Eval.Source

namespace Recalc

variable {P : Coordinate → Prop} {s t : CellSource} {o : EvalOptions} {args : List Operand}

/-- All cells of the operand are in the set, and a range has its corners in order. -/
def Operand.Within (P : Coordinate → Prop) : Operand → Prop
  | .cell c => P c
  | .range r => r.Ordered ∧ ∀ c, r.contains c = true → P c
  | .value _ => True
  | .array _ => True

/-! ### Ways to read an operand -/

namespace EvalContext

theorem cells_congr (h : s.AgreeOn P t) {r : CellRange} (hr : (Operand.range r).Within P) :
    cells ⟨s, o⟩ r = cells ⟨t, o⟩ r := by
  have hlazy : isLazy ⟨s, o⟩ r = isLazy ⟨t, o⟩ r := rfl
  rw [cells, cells, hlazy]
  split
  · exact h.boundIn r hr.2
  · refine List.map_congr_left fun c hc => ?_
    rw [h.value c (hr.2 c (CellRange.contains_of_mem_cells hr.1 hc))]

theorem value_first (h : s.AgreeOn P t) {r : CellRange} (hr : (Operand.range r).Within P) :
    s.value r.first = t.value r.first :=
  h.value _ (hr.2 _ (CellRange.contains_first hr.1))

theorem scalar_congr (h : s.AgreeOn P t) {a : Operand} (ha : a.Within P) :
    scalar ⟨s, o⟩ a = scalar ⟨t, o⟩ a := by
  cases a with
  | value v => rfl
  | cell c => exact h.value c ha
  | range r => rw [scalar, scalar, value_first h ha]
  | array rows => rcases rows with - | ⟨- | ⟨v, - | -⟩, - | -⟩ <;> rfl

theorem values_congr (h : s.AgreeOn P t) {a : Operand} (ha : a.Within P) :
    values ⟨s, o⟩ a = values ⟨t, o⟩ a := by
  cases a with
  | value v => rfl
  | cell c => exact congrArg ([·]) (h.value c ha)
  | range r => rw [values, values, cells_congr h ha]
  | array rows => rfl

theorem topLeft_congr (h : s.AgreeOn P t) {a : Operand} (ha : a.Within P) :
    topLeft ⟨s, o⟩ a = topLeft ⟨t, o⟩ a := by
  cases a with
  | value v => rfl
  | cell c => exact h.value c ha
  | range r => exact value_first h ha
  | array rows => rcases rows with - | ⟨- | -, -⟩ <;> rfl

/-! ### Arguments -/

theorem getElem?_map_scalar_congr (h : s.AgreeOn P t) (hargs : ∀ a ∈ args, a.Within P) (i : Nat) :
    args[i]?.map (scalar ⟨s, o⟩) = args[i]?.map (scalar ⟨t, o⟩) := by
  cases ha : args[i]? with
  | none => rfl
  | some a => exact congrArg some (scalar_congr h (hargs a (List.mem_of_getElem? ha)))

theorem valueArg_congr (h : s.AgreeOn P t) (hargs : ∀ a ∈ args, a.Within P) :
    valueArg ⟨s, o⟩ args = valueArg ⟨t, o⟩ args := by
  funext i
  rw [valueArg, valueArg, getElem?_map_scalar_congr h hargs]

theorem numberArg_congr (h : s.AgreeOn P t) (hargs : ∀ a ∈ args, a.Within P) :
    numberArg ⟨s, o⟩ args = numberArg ⟨t, o⟩ args := by
  funext i
  rw [numberArg, numberArg, valueArg_congr h hargs]

theorem numberArgD_congr (h : s.AgreeOn P t) (hargs : ∀ a ∈ args, a.Within P) :
    numberArgD ⟨s, o⟩ args = numberArgD ⟨t, o⟩ args := by
  funext i default
  rw [numberArgD, numberArgD, numberArg_congr h hargs]

theorem textArg_congr (h : s.AgreeOn P t) (hargs : ∀ a ∈ args, a.Within P) :
    textArg ⟨s, o⟩ args = textArg ⟨t, o⟩ args := by
  funext i
  rw [textArg, textArg, valueArg_congr h hargs]

theorem boolArg_congr (h : s.AgreeOn P t) (hargs : ∀ a ∈ args, a.Within P) :
    boolArg ⟨s, o⟩ args = boolArg ⟨t, o⟩ args := by
  funext i
  rw [boolArg, boolArg, valueArg_congr h hargs]

theorem positionArg_congr (h : s.AgreeOn P t) (hargs : ∀ a ∈ args, a.Within P) :
    positionArg ⟨s, o⟩ args = positionArg ⟨t, o⟩ args := by
  funext i
  rw [positionArg, positionArg, numberArg_congr h hargs]

theorem countArg_congr (h : s.AgreeOn P t) (hargs : ∀ a ∈ args, a.Within P) :
    countArg ⟨s, o⟩ args = countArg ⟨t, o⟩ args := by
  funext i default
  rw [countArg, countArg, numberArgD_congr h hargs]

/-- A range given as an operand is within what the operand is. -/
theorem within_of_rangeOf {a : Operand} {r : CellRange} (ha : a.Within P)
    (hr : rangeOf a = .ok r) : (Operand.range r).Within P := by
  cases a with
  | range r' =>
    obtain rfl := Except.ok.inj hr
    exact ha
  | cell c =>
    obtain rfl := Except.ok.inj hr
    exact ⟨CellRange.ordered_single c, fun d hd => CellRange.contains_single.mp hd ▸ ha⟩
  | value v => cases v <;> cases hr
  | array rows => cases hr

theorem exists_of_rangeArg {i : Nat} {r : CellRange} (hr : rangeArg args i = .ok r) :
    ∃ a, args[i]? = some a ∧ rangeOf a = .ok r := by
  rw [rangeArg] at hr
  split at hr
  case h_1 a ha => exact ⟨a, ha, hr⟩
  case h_2 => cases hr

end EvalContext

open EvalContext

/-! ### Aggregates -/

namespace Aggregate

theorem numbersOf_congr (h : s.AgreeOn P t) {a : Operand} (ha : a.Within P) :
    numbersOf ⟨s, o⟩ a = numbersOf ⟨t, o⟩ a := by
  cases a with
  | value v => cases v <;> rfl
  | cell c => exact congrArg numbersAmong (values_congr h ha)
  | range r => exact congrArg numbersAmong (values_congr h ha)
  | array rows => rfl

theorem countOf_congr (h : s.AgreeOn P t) {a : Operand} (ha : a.Within P) :
    countOf ⟨s, o⟩ a = countOf ⟨t, o⟩ a := by
  cases a with
  | value v => cases v <;> rfl
  | cell c => exact congrArg (List.countP Value.isNumeric) (values_congr h ha)
  | range r => exact congrArg (List.countP Value.isNumeric) (values_congr h ha)
  | array rows => rfl

theorem logicalsOf_congr (h : s.AgreeOn P t) {a : Operand} (ha : a.Within P) :
    logicalsOf ⟨s, o⟩ a = logicalsOf ⟨t, o⟩ a := by
  cases a with
  | value v => cases v <;> rfl
  | cell c => exact congrArg logicalsAmong (values_congr h ha)
  | range r => exact congrArg logicalsAmong (values_congr h ha)
  | array rows => rfl

/-- A reader that fails or not is mapped over operands alike if it reads each alike. -/
theorem mapM_congr {α : Type} {f g : Operand → Except Fault α} (hfg : ∀ a ∈ args, f a = g a) :
    args.mapM f = args.mapM g := by
  induction args with
  | nil => rfl
  | cons a rest ih =>
    rw [List.mapM_cons, List.mapM_cons, hfg a List.mem_cons_self,
      ih fun a ha => hfg a (List.mem_cons_of_mem _ ha)]

theorem numbers_congr (h : s.AgreeOn P t) (hargs : ∀ a ∈ args, a.Within P) :
    numbers ⟨s, o⟩ args = numbers ⟨t, o⟩ args := by
  rw [numbers, numbers, mapM_congr fun a ha => numbersOf_congr h (hargs a ha)]

theorem logicals_congr (h : s.AgreeOn P t) (hargs : ∀ a ∈ args, a.Within P) :
    logicals ⟨s, o⟩ args = logicals ⟨t, o⟩ args := by
  rw [logicals, logicals, mapM_congr fun a ha => logicalsOf_congr h (hargs a ha)]

theorem map_countOf_congr (h : s.AgreeOn P t) (hargs : ∀ a ∈ args, a.Within P) :
    args.map (countOf ⟨s, o⟩) = args.map (countOf ⟨t, o⟩) :=
  List.map_congr_left fun a ha => countOf_congr h (hargs a ha)

theorem flatMap_values_congr (h : s.AgreeOn P t) (hargs : ∀ a ∈ args, a.Within P) :
    args.flatMap (values ⟨s, o⟩) = args.flatMap (values ⟨t, o⟩) :=
  List.flatMap_congr fun a ha => values_congr h (hargs a ha)

end Aggregate

/-! ### Tables -/

namespace Lookup

theorem ofOperand_congr (h : s.AgreeOn P t) {a : Operand} (ha : a.Within P) :
    Table.ofOperand ⟨s, o⟩ a = Table.ofOperand ⟨t, o⟩ a := by
  cases a with
  | value v => rfl
  | cell c => exact congrArg Table.single (h.value c ha)
  | range r => rw [Table.ofOperand, Table.ofOperand, cells_congr h ha]
  | array rows => rfl

theorem tableArg_congr (h : s.AgreeOn P t) (hargs : ∀ a ∈ args, a.Within P) :
    tableArg ⟨s, o⟩ args = tableArg ⟨t, o⟩ args := by
  funext i
  rw [tableArg, tableArg]
  cases ha : args[i]? with
  | none => rfl
  | some a => exact ofOperand_congr h (hargs a (List.mem_of_getElem? ha))

theorem modeArg_congr (h : s.AgreeOn P t) (hargs : ∀ a ∈ args, a.Within P) :
    modeArg ⟨s, o⟩ args = modeArg ⟨t, o⟩ args := by
  funext i
  rw [modeArg, modeArg, boolArg_congr h hargs]

/-- Searching among keys reads no cell. -/
theorem find_congr : find ⟨s, o⟩ = find ⟨t, o⟩ := rfl

end Lookup

/-! ### Criteria -/

namespace Conditional

/-- All cells at offsets within the shape of one range, counted from a given cell, are in the
set. -/
def Covers (P : Coordinate → Prop) (origin : Coordinate) (like : CellRange) : Prop :=
  ∀ i j, i < like.rows → j < like.columns → P (CellRange.shift origin i j)

/-- What a third argument is read as: the cells in the shape of the first argument from the first
cell of the third one on. -/
def Resized (P : Coordinate → Prop) (args : List Operand) : Prop :=
  ∀ range arg other, rangeArg args 0 = .ok range → args[2]? = some arg →
    rangeOf arg = .ok other → Covers P other.first range

theorem covers_of_within {r : CellRange} (hr : (Operand.range r).Within P) :
    Covers P r.first r :=
  fun _ _ hi hj => hr.2 _ (CellRange.contains_shift hr.1 hi hj)

/-- A range cut at the limits of the sheet is no larger than the range it is shaped after. -/
theorem covers_resized {origin : Coordinate} {like : CellRange} (h : Covers P origin like) :
    Covers P origin (resized origin like) := by
  intro i j hi hj
  refine h i j (Nat.lt_of_lt_of_le hi ?_) (Nat.lt_of_lt_of_le hj ?_)
  · simp only [CellRange.rows, resized]
    omega
  · simp only [CellRange.columns, resized]
    omega

theorem matchAt_congr (h : s.AgreeOn P t) {lead : Condition} {others : List Condition}
    {target : CellRange} (htarget : Covers P target.first lead.range)
    (hothers : ∀ c ∈ others, Covers P c.range.first lead.range) :
    matchAt ⟨s, o⟩ lead others target = matchAt ⟨t, o⟩ lead others target := by
  funext cell
  rw [matchAt, matchAt]
  refine if_congr Iff.rfl ?_ rfl
  cases hoffset : lead.range.offset? cell.1 with
  | none => rfl
  | some offset =>
    obtain ⟨i, j⟩ := offset
    obtain ⟨hi, hj⟩ := CellRange.lt_of_offset?_eq_some hoffset
    have holds : ∀ c ∈ others, holdsAt ⟨s, o⟩ i j c = holdsAt ⟨t, o⟩ i j c := fun c hc => by
      rw [holdsAt, holdsAt, h.value _ (hothers c hc i j hi hj)]
    have hall : others.all (holdsAt ⟨s, o⟩ i j) = others.all (holdsAt ⟨t, o⟩ i j) := by
      rw [Bool.eq_iff_iff, List.all_eq_true, List.all_eq_true]
      exact forall₂_congr fun c hc => by rw [holds c hc]
    show (if others.all (holdsAt ⟨s, o⟩ i j) then _ else _) = _
    rw [hall, h.value _ (htarget i j hi hj)]

/-- **Matching reads the ranges of the conditions and the target's cells at their offsets.** -/
theorem matched_congr (h : s.AgreeOn P t) {conditions : List Condition} {target : CellRange}
    (hconditions : ∀ c ∈ conditions, (Operand.range c.range).Within P)
    (htarget : Covers P target.first target) :
    matched ⟨s, o⟩ conditions target = matched ⟨t, o⟩ conditions target := by
  cases conditions with
  | nil => rfl
  | cons lead others =>
    rw [matched, matched]
    split
    case isFalse => rfl
    case isTrue hshape =>
      -- all ranges have the target's shape, so an offset in one is an offset in each
      have covers {r : CellRange} (hr : sameShape r target) {origin : Coordinate}
          (hc : Covers P origin r) : Covers P origin lead.range := by
        have hlead : sameShape lead.range target :=
          List.all_eq_true.mp hshape lead List.mem_cons_self
        simp only [sameShape, Bool.and_eq_true, beq_iff_eq] at hr hlead
        intro i j hi hj
        exact hc i j (hr.1 ▸ hlead.1 ▸ hi) (hr.2 ▸ hlead.2 ▸ hj)
      have hself : sameShape target target := by simp [sameShape]
      rw [cells_congr h (hconditions lead List.mem_cons_self),
        matchAt_congr h (covers hself htarget) fun c hc =>
          covers (List.all_eq_true.mp hshape c (List.mem_cons_of_mem _ hc))
            (covers_of_within (hconditions c (List.mem_cons_of_mem _ hc)))]

theorem single_congr (h : s.AgreeOn P t) (hargs : ∀ a ∈ args, a.Within P) :
    single ⟨s, o⟩ args = single ⟨t, o⟩ args := by
  rw [single, single, valueArg_congr h hargs]

/-- The condition is on the first argument, and the target is that argument too or the third one in
its shape. -/
theorem single_eq_ok {ctx : EvalContext} {conditions : List Condition} {target : CellRange}
    (hs : single ctx args = .ok (conditions, target)) :
    ∃ range criterion, rangeArg args 0 = .ok range ∧ conditions = [⟨range, criterion⟩] ∧
      (target = range ∨ ∃ arg other, args[2]? = some arg ∧ rangeOf arg = .ok other ∧
        target = resized other.first range) := by
  rw [single] at hs
  cases hrange : rangeArg args 0 with
  | error f => rw [hrange] at hs; cases hs
  | ok range =>
    cases hcriterion : ctx.valueArg args 1 with
    | error f => rw [hrange, hcriterion] at hs; cases hs
    | ok v =>
      rw [hrange, hcriterion] at hs
      cases hthird : args[2]? with
      | none =>
        rw [hthird] at hs
        obtain ⟨rfl, rfl⟩ := Prod.mk.inj (Except.ok.inj hs)
        exact ⟨range, _, rfl, rfl, .inl rfl⟩
      | some arg =>
        rw [hthird] at hs
        cases hother : rangeOf arg with
        | error f => simp [hother, bind, Except.bind] at hs
        | ok other =>
          simp only [hother, bind, Except.bind, pure, Except.pure] at hs
          obtain ⟨rfl, rfl⟩ := Prod.mk.inj (Except.ok.inj hs)
          exact ⟨range, _, rfl, rfl, .inr ⟨arg, other, rfl, hother, rfl⟩⟩

theorem matched_single_congr (h : s.AgreeOn P t) (hargs : ∀ a ∈ args, a.Within P)
    (hresized : Resized P args) {ctx : EvalContext} {conditions : List Condition}
    {target : CellRange} (hs : single ctx args = .ok (conditions, target)) :
    matched ⟨s, o⟩ conditions target = matched ⟨t, o⟩ conditions target := by
  obtain ⟨range, criterion, hrange, rfl, htarget⟩ := single_eq_ok hs
  obtain ⟨first, hfirst, hof⟩ := exists_of_rangeArg hrange
  have hwithin : (Operand.range range).Within P :=
    within_of_rangeOf (hargs first (List.mem_of_getElem? hfirst)) hof
  refine matched_congr h (fun c hc => by rw [List.mem_singleton.mp hc]; exact hwithin) ?_
  rcases htarget with rfl | ⟨arg, other, harg, hother, rfl⟩
  · exact covers_of_within hwithin
  · exact covers_resized (hresized range arg other hrange harg hother)

theorem bind_congr_ok {α β : Type} {x : Except Fault α} {f g : α → Except Fault β}
    (h : ∀ a, x = .ok a → f a = g a) : x >>= f = x >>= g := by
  cases x with
  | error e => rfl
  | ok a => exact h a rfl

theorem sumIf_congr (h : s.AgreeOn P t) (hargs : ∀ a ∈ args, a.Within P)
    (hresized : Resized P args) : sumIf ⟨s, o⟩ args = sumIf ⟨t, o⟩ args := by
  rw [sumIf, sumIf, single_congr h hargs]
  refine bind_congr_ok fun ⟨conditions, target⟩ hs => ?_
  simp only [matched_single_congr h hargs hresized hs]

theorem countIf_congr (h : s.AgreeOn P t) (hargs : ∀ a ∈ args, a.Within P)
    (hresized : Resized P args) : countIf ⟨s, o⟩ args = countIf ⟨t, o⟩ args := by
  rw [countIf, countIf, single_congr h hargs]
  refine bind_congr_ok fun ⟨conditions, target⟩ hs => ?_
  simp only [matched_single_congr h hargs hresized hs]

theorem averageIf_congr (h : s.AgreeOn P t) (hargs : ∀ a ∈ args, a.Within P)
    (hresized : Resized P args) : averageIf ⟨s, o⟩ args = averageIf ⟨t, o⟩ args := by
  rw [averageIf, averageIf, single_congr h hargs]
  refine bind_congr_ok fun ⟨conditions, target⟩ hs => ?_
  simp only [matched_single_congr h hargs hresized hs]

/-! Several criteria: every range is given as an argument. -/

theorem pairs_congr (h : s.AgreeOn P t) (hargs : ∀ a ∈ args, a.Within P) :
    pairs ⟨s, o⟩ args = pairs ⟨t, o⟩ args := by
  fun_induction pairs ⟨t, o⟩ args with
  | case1 range criterion rest ih =>
    have hpair : ∀ a ∈ [range, criterion], a.Within P := fun a ha => by
      refine hargs a ?_
      rcases List.mem_pair.mp ha with rfl | rfl <;> simp
    rw [pairs, valueArg_congr h hpair,
      ih fun a ha => hargs a (List.mem_cons_of_mem _ (List.mem_cons_of_mem _ ha))]
  | case2 args hne => rw [pairs]; exact hne

theorem within_of_mem_pairs {ctx : EvalContext} {conditions : List Condition}
    (hargs : ∀ a ∈ args, a.Within P) (hp : pairs ctx args = .ok conditions) :
    ∀ c ∈ conditions, (Operand.range c.range).Within P := by
  fun_induction pairs ctx args generalizing conditions with
  | case1 range criterion rest ih =>
    cases hrange : rangeOf range with
    | error f => rw [hrange] at hp; cases hp
    | ok r =>
      cases hvalue : ctx.valueArg [range, criterion] 1 with
      | error f => rw [hrange, hvalue] at hp; cases hp
      | ok v =>
        cases hrest : pairs ctx rest with
        | error f => rw [hrange, hvalue, hrest] at hp; cases hp
        | ok others =>
          rw [hrange, hvalue, hrest] at hp
          obtain rfl := Except.ok.inj hp
          intro c hc
          rcases List.mem_cons.mp hc with rfl | hc
          · exact within_of_rangeOf (hargs range List.mem_cons_self) hrange
          · exact ih (fun a ha => hargs a (by simp [ha])) hrest c hc
  | case2 args hne =>
    obtain rfl := Except.ok.inj hp
    simp

theorem sumIfs_congr (h : s.AgreeOn P t) (hargs : ∀ a ∈ args, a.Within P) :
    sumIfs ⟨s, o⟩ args = sumIfs ⟨t, o⟩ args := by
  have htail : ∀ a ∈ args.tail, a.Within P := fun a ha => hargs a (List.mem_of_mem_tail ha)
  rw [sumIfs, sumIfs, pairs_congr h htail]
  refine if_congr Iff.rfl rfl (bind_congr_ok fun target htarget => ?_)
  obtain ⟨first, hfirst, hof⟩ := exists_of_rangeArg htarget
  refine bind_congr_ok fun conditions hconditions => ?_
  rw [matched_congr h (within_of_mem_pairs htail hconditions)
    (covers_of_within (within_of_rangeOf (hargs first (List.mem_of_getElem? hfirst)) hof))]

end Conditional

/-! ### All functions -/

theorem testArg_congr (h : s.AgreeOn P t) (hargs : ∀ a ∈ args, a.Within P) (test : Value → Bool) :
    testArg test ⟨s, o⟩ args = testArg test ⟨t, o⟩ args := by
  rw [testArg, testArg, List.head?_eq_getElem?, getElem?_map_scalar_congr h hargs]

/-- **A function reads the cells of its operands**, and those of a target in the shape of its first
operand. -/
theorem Builtin.apply_congr (h : s.AgreeOn P t) (hargs : ∀ a ∈ args, a.Within P) (body : Builtin)
    (hresized : body = .sumif ∨ body = .countif ∨ body = .averageif →
      Conditional.Resized P args) :
    body.apply ⟨s, o⟩ args = body.apply ⟨t, o⟩ args := by
  cases body
  case sumif => exact Conditional.sumIf_congr h hargs (hresized (.inl rfl))
  case countif => exact Conditional.countIf_congr h hargs (hresized (.inr (.inl rfl)))
  case averageif => exact Conditional.averageIf_congr h hargs (hresized (.inr (.inr rfl)))
  case sumifs => exact Conditional.sumIfs_congr h hargs
  -- every other function is built from the ways to read an argument
  all_goals
    simp only [Builtin.apply, Aggregate.sum, Aggregate.product, Aggregate.average, Aggregate.count,
      Aggregate.countFilled, Aggregate.best, Aggregate.all, Aggregate.any, Aggregate.join,
      Arithmetic.abs, Arithmetic.round, Arithmetic.int, Arithmetic.mod, Arithmetic.power,
      Arithmetic.sqrt, TextFunction.mapText, TextFunction.concatenate, TextFunction.left,
      TextFunction.right, TextFunction.mid, Lookup.vertical, Lookup.horizontal, Lookup.index,
      Lookup.place, DateFunction.ofParts, DateFunction.part,
      Aggregate.numbers_congr h hargs, Aggregate.logicals_congr h hargs,
      Aggregate.map_countOf_congr h hargs, Aggregate.flatMap_values_congr h hargs,
      valueArg_congr h hargs, numberArg_congr h hargs, numberArgD_congr h hargs,
      textArg_congr h hargs, boolArg_congr h hargs, positionArg_congr h hargs,
      countArg_congr h hargs, testArg_congr h hargs, Lookup.tableArg_congr h hargs,
      Lookup.modeArg_congr h hargs, Lookup.find_congr (s := s) (t := t)]

end Recalc
