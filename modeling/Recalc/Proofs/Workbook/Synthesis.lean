/-
Recalc/Proofs/Workbook/Synthesis.lean

The tests of a cluster.  The first test has the stored inputs, every other test changes one
of them to a value that is to be tried, no two tests have the same inputs, and every value
to try is tried, if inputs are the same as themselves.  This is not so for every tolerance
and every value: with a tolerance that is no number nothing is the same, and values that
are to be tried once are tried again (`covering_compile`, `repeats_still`).

Design.  Which values are to be tried is said by `IsCandidate`, apart from the list that is
made of them.  Tests are kept one by one against all tests before, so what holds of the
list of inputs is proved of one more set of inputs: it is unlike those before it, or one
before it is like it.  Neither needs that being the same is transitive.
-/
import Recalc.Proofs.Eval.Finite
import Recalc.Proofs.Number.Distance
import Recalc.Proofs.Workbook.Extraction
import Recalc.Proofs.Workbook.Proceed
import Recalc.Proofs.Workbook.Sheets
import Mathlib.Data.List.Zip

namespace Recalc

namespace Synthesis

/-! ### What tests have to do -/

/-- A number as a value of the cell. -/
def numeral (cell : ClassifiedCell) (current : Value) (x : Float) : Value :=
  if cell.isDate || current.isDate then .date x else .number x

/-- The numbers at the edges of a rule, and one step beyond them. -/
inductive IsBoundary (step : Float) (rule : Option Validation) : Float → Prop
  | zero : IsBoundary step rule 0.0
  | least {x : Float} (hx : rule.bind Validation.min = some x) : IsBoundary step rule x
  | belowLeast {x : Float} (hx : rule.bind Validation.min = some x) :
    IsBoundary step rule (x - step)
  | most {x : Float} (hx : rule.bind Validation.max = some x) : IsBoundary step rule x
  | aboveMost {x : Float} (hx : rule.bind Validation.max = some x) :
    IsBoundary step rule (x + step)

/-- The values that are to be tried for an input. -/
inductive IsCandidate (step : Float) (cell : ClassifiedCell) (current : Value) : Value → Prop
  | boundary {x : Float} (hnumeric : cell.isNumericInput = true)
    (hx : IsBoundary step cell.validation x) :
    IsCandidate step cell current (numeral cell current x)
  | choice {rule : Validation} {v : StoredValue} (hrule : cell.validation = some rule)
    (hv : v ∈ rule.options) : IsCandidate step cell current (v.toValue cell.isDate)

/-- The coordinates of some nodes. -/
def places (ctx : RunContext) (ids : List Nat) : List Coordinate :=
  (ctx.graph.nodesOf ids).map Node.coordinate

/-- The value is to be tried for the cell, an input of the cluster. -/
def Tries (ctx : RunContext) (c : Cluster) (x : Coordinate) (v : Value) : Prop :=
  x ∈ places ctx c.inputs ∧ ∃ cell, ctx.cells[x]? = some cell ∧ cell.role = .input ∧
    IsCandidate ctx.options.boundaryStep cell (ctx.constants.value x) v

/-- A test covers some inputs: its own are the same within the tolerance. -/
def Covers (ctx : RunContext) (inputs : CellMap) (t : TestCase) : Prop :=
  sameInputs ctx.options.tolerance t.inputs inputs = true

/-- Every number among the inputs is finite. -/
def FiniteInputs (inputs : CellMap) : Prop :=
  ∀ (x : Coordinate) (v : Value), inputs[x]? = some v → v.Finite

/-- What the tests of a cluster do. -/
structure Covering (ctx : RunContext) (c : Cluster) (first : TestCase) (later : List TestCase) :
    Prop where
  observed : first.origin = .observed
  stored : ∀ x, first.inputs[x]? =
    if x ∈ places ctx c.inputs then some (ctx.constants.value x) else none
  alone : ∀ t ∈ later, t.origin ≠ .observed
  /-- A later test differs from the first in one input. -/
  changed : ∀ t ∈ later, ∃ x v, Tries ctx c x v ∧
    ∀ y, t.inputs[y]? = if y = x then some v else first.inputs[y]?
  distinct : (first :: later).Pairwise fun s t =>
    ¬ Covers ctx s.inputs t ∧ ¬ Covers ctx t.inputs s
  /-- What is to be tried is covered, if it is the same as itself. -/
  covers : ∀ x v, Tries ctx c x v → (0.0 : Float) ≤ ctx.options.tolerance →
    FiniteInputs (first.inputs.insert x v) →
    ∃ t ∈ first :: later, Covers ctx (first.inputs.insert x v) t
  /-- In any case, it is covered or there is a test with these very inputs. -/
  tried : ∀ x v, Tries ctx c x v → ∃ t ∈ first :: later,
    Covers ctx (first.inputs.insert x v) t ∨ t.inputs = first.inputs.insert x v
  expected : ∀ t ∈ first :: later, ∀ x, t.expectedOutputs[x]? =
    if x ∈ places ctx c.outputs then
      some (((((c.run ctx.engine ctx.graph ctx.constants t.inputs).computed[x]?).or
        t.inputs[x]?).or ctx.constants[x]?).getD .empty)
    else none

variable {ctx : RunContext} {c : Cluster} {tolerance : Float}

/-! ### The same inputs -/

theorem sameInput_comm (tolerance : Float) (v w : Value) :
    sameInput tolerance v w = sameInput tolerance w v := by
  cases v with
  | number x =>
    cases w with
    | number y => exact Binary64.near_comm tolerance x y
    | _ => rfl
  | date x =>
    cases w with
    | date y => exact Binary64.near_comm tolerance x y
    | _ => rfl
  | text s =>
    cases w with
    | text t => exact BEq.comm
    | _ => rfl
  | boolean a =>
    cases w with
    | boolean b => exact BEq.comm
    | _ => rfl
  | error f =>
    cases w with
    | error g => exact BEq.comm
    | _ => rfl
  | empty => cases w <;> rfl

/-- **Being the same inputs is symmetric.** -/
theorem sameInputs_comm (tolerance : Float) (a b : CellMap) :
    sameInputs tolerance a b = sameInputs tolerance b a := by
  have hsize : (a.size == b.size) = (b.size == a.size) := BEq.comm
  rw [sameInputs, sameInputs, hsize, ← List.zip_swap b.toList a.toList, List.all_map]
  refine congrArg _ (congrArg (fun p => List.all _ p) ?_)
  funext ⟨⟨x, v⟩, y, w⟩
  have hplace : (y == x) = (x == y) := BEq.comm
  show (y == x && sameInput tolerance w v) = (x == y && sameInput tolerance v w)
  rw [hplace, sameInput_comm]

theorem sameInput_self {v : Value} (h : 0.0 ≤ tolerance) (hv : v.Finite) :
    sameInput tolerance v v = true := by
  cases v with
  | number x => exact Binary64.near_self hv h
  | date x => exact Binary64.near_self hv h
  | text s => exact beq_self_eq_true s
  | boolean b => exact beq_self_eq_true b
  | error f => exact beq_self_eq_true f
  | empty => rfl

/-- **Finite inputs are the same as themselves.** -/
theorem sameInputs_self {a : CellMap} (h : 0.0 ≤ tolerance) (ha : FiniteInputs a) :
    sameInputs tolerance a a = true := by
  rw [sameInputs, beq_self_eq_true, Bool.true_and, List.all_eq_true]
  rintro ⟨⟨x, v⟩, y, w⟩ hmem
  obtain ⟨i, hi, hget⟩ := List.mem_iff_getElem.mp hmem
  rw [List.getElem_zip] at hget
  obtain ⟨hfirst, hsecond⟩ := Prod.mk.inj hget
  obtain ⟨rfl, rfl⟩ := Prod.mk.inj (hfirst.symm.trans hsecond)
  have hv := ha x v (Std.TreeMap.mem_toList_iff_getElem?_eq_some.mp
    (hfirst ▸ List.getElem_mem _))
  show (x == x && sameInput tolerance v v) = true
  rw [beq_self_eq_true, sameInput_self h hv]
  rfl

/-! ### Inputs of clusters -/

/-- A map made of nodes has a value at each of their places. -/
theorem getElem?_ofList_map (f : Coordinate → Value) (ns : List Node) (x : Coordinate) :
    (CellMap.ofList (ns.map fun n => (n.coordinate, f n.coordinate)))[x]? =
      if x ∈ ns.map Node.coordinate then some (f x) else none := by
  have hfold := ClusterRun.getElem?_foldl_insert_value f (ns.map Node.coordinate) ∅ x
  rw [List.foldl_map] at hfold
  rw [CellMap.ofList, List.foldl_map, hfold]
  split
  · rfl
  · exact Std.TreeMap.getElem?_emptyc

theorem getElem?_observedInputs (ctx : RunContext) (c : Cluster) (x : Coordinate) :
    (observedInputs ctx c)[x]? =
      if x ∈ places ctx c.inputs then some (ctx.constants.value x) else none :=
  getElem?_ofList_map ctx.constants.value _ x

theorem mem_boundaries_iff {α : Type} (number : Float → α) {step : Float}
    {rule : Option Validation} {p : α} :
    p ∈ number 0.0 ::
        ((rule.bind Validation.min).toList.flatMap fun x => [number x, number (x - step)]) ++
        ((rule.bind Validation.max).toList.flatMap fun x => [number x, number (x + step)]) ↔
      ∃ x, IsBoundary step rule x ∧ p = number x := by
  simp only [List.cons_append, List.mem_cons, List.mem_append, List.mem_flatMap,
    Option.mem_toList, List.not_mem_nil, or_false]
  constructor
  · rintro (rfl | ⟨x, hx, rfl | rfl⟩ | ⟨x, hx, rfl | rfl⟩)
    · exact ⟨_, .zero, rfl⟩
    · exact ⟨_, .least hx, rfl⟩
    · exact ⟨_, .belowLeast hx, rfl⟩
    · exact ⟨_, .most hx, rfl⟩
    · exact ⟨_, .aboveMost hx, rfl⟩
  · rintro ⟨_, hx, rfl⟩
    cases hx with
    | zero => exact .inl rfl
    | least hx => exact .inr (.inl ⟨_, hx, .inl rfl⟩)
    | belowLeast hx => exact .inr (.inl ⟨_, hx, .inr rfl⟩)
    | most hx => exact .inr (.inr ⟨_, hx, .inl rfl⟩)
    | aboveMost hx => exact .inr (.inr ⟨_, hx, .inr rfl⟩)

/-- **The values that are tried are those to be tried.** -/
theorem exists_mem_candidates_iff {step : Float} {cell : ClassifiedCell} {current v : Value} :
    (∃ origin, (origin, v) ∈ candidates step cell current) ↔ IsCandidate step cell current v := by
  unfold candidates
  extract_lets number least most numbers choices
  have hnumbers {p : TestOrigin × Value} : p ∈ numbers ↔ cell.isNumericInput = true ∧
      ∃ x, IsBoundary step cell.validation x ∧ p = number x := by
    simp only [numbers]
    by_cases hnumeric : cell.isNumericInput = true
    · rw [if_pos hnumeric, mem_boundaries_iff, and_iff_right hnumeric]
    · rw [if_neg hnumeric]
      exact iff_of_false List.not_mem_nil fun h => hnumeric h.1
  have hchoice {w : StoredValue} : w ∈ choices ↔
      ∃ rule, cell.validation = some rule ∧ w ∈ rule.options := by
    simp only [choices]
    cases cell.validation with
    | none => simp
    | some rule => simp
  constructor
  · rintro ⟨origin, hmem⟩
    rcases List.mem_append.mp hmem with hnumber | hlisted
    · obtain ⟨hnumeric, x, hx, heq⟩ := hnumbers.mp hnumber
      rw [(Prod.mk.inj heq).2]
      exact .boundary hnumeric hx
    · obtain ⟨w, hw, heq⟩ := List.mem_map.mp hlisted
      obtain ⟨rule, hrule, hoption⟩ := hchoice.mp hw
      rw [← (Prod.mk.inj heq).2]
      exact .choice hrule hoption
  · intro h
    cases h with
    | boundary hnumeric hx =>
      exact ⟨.boundary, List.mem_append_left _ (hnumbers.mpr ⟨hnumeric, _, hx, rfl⟩)⟩
    | choice hrule hv =>
      exact ⟨.synthetic, List.mem_append_right _
        (List.mem_map.mpr ⟨_, hchoice.mpr ⟨_, hrule, hv⟩, rfl⟩)⟩

theorem tries_of_mem_perturbed {t : TestInputs} (h : t ∈ perturbed ctx (observedInputs ctx c)) :
    t.origin ≠ .observed ∧
      ∃ x v, Tries ctx c x v ∧ t.inputs = (observedInputs ctx c).insert x v := by
  obtain ⟨⟨x, current⟩, hx, ht⟩ := List.mem_flatMap.mp h
  rw [Std.TreeMap.mem_toList_iff_getElem?_eq_some, getElem?_observedInputs] at hx
  dsimp only at ht
  split at ht
  case h_2 => cases ht
  case h_1 cell hcell =>
    split at ht
    case isFalse => cases ht
    case isTrue hrole =>
      obtain ⟨⟨origin, v⟩, hp, rfl⟩ := List.mem_map.mp ht
      refine ⟨origin_of_mem_candidates hp, x, v, ?_, rfl⟩
      split at hx
      case isFalse => cases hx
      case isTrue hplace =>
        obtain rfl := Option.some.inj hx
        exact ⟨hplace, cell, hcell, hrole, exists_mem_candidates_iff.mp ⟨origin, hp⟩⟩

theorem exists_mem_perturbed {x : Coordinate} {v : Value} (h : Tries ctx c x v) :
    ∃ t ∈ perturbed ctx (observedInputs ctx c),
      t.inputs = (observedInputs ctx c).insert x v := by
  obtain ⟨hplace, cell, hcell, hrole, hcandidate⟩ := h
  obtain ⟨origin, hp⟩ := exists_mem_candidates_iff.mpr hcandidate
  refine ⟨⟨origin, (observedInputs ctx c).insert x v⟩, ?_, rfl⟩
  refine List.mem_flatMap.mpr ⟨(x, ctx.constants.value x), ?_, ?_⟩
  · rw [Std.TreeMap.mem_toList_iff_getElem?_eq_some, getElem?_observedInputs, if_pos hplace]
  · dsimp only
    rw [hcell]
    dsimp only
    rw [if_pos hrole]
    exact List.mem_map.mpr ⟨(origin, v), hp, rfl⟩

/-! ### One set of inputs after the other -/

theorem addInputs_eq (tolerance : Float) (all : List TestInputs) (t : TestInputs) :
    ((∃ seen ∈ all, sameInputs tolerance seen.inputs t.inputs = true) ∧
        addInputs tolerance all t = all) ∨
      (∀ seen ∈ all, sameInputs tolerance seen.inputs t.inputs = false) ∧
        addInputs tolerance all t = all ++ [t] := by
  rw [addInputs]
  split
  case isTrue h => exact .inl ⟨List.any_eq_true.mp h, rfl⟩
  case isFalse h =>
    refine .inr ⟨fun seen hseen => ?_, rfl⟩
    rw [← Bool.not_eq_true]
    exact fun hsame => h (List.any_eq_true.mpr ⟨seen, hseen, hsame⟩)

/-- What was there stays, and only what is given is added. -/
theorem exists_foldl_addInputs (tolerance : Float) (all ts : List TestInputs) :
    ∃ added, ts.foldl (addInputs tolerance) all = all ++ added ∧ ∀ t ∈ added, t ∈ ts := by
  induction ts generalizing all with
  | nil => exact ⟨[], (List.append_nil all).symm, fun t ht => absurd ht List.not_mem_nil⟩
  | cons t rest ih =>
    rw [List.foldl_cons]
    obtain ⟨added, hfold, hadded⟩ := ih (addInputs tolerance all t)
    rw [hfold]
    rcases addInputs_eq tolerance all t with ⟨-, heq⟩ | ⟨-, heq⟩
    · exact ⟨added, by rw [heq], fun s hs => List.mem_cons_of_mem _ (hadded s hs)⟩
    · refine ⟨t :: added, by rw [heq, List.append_assoc]; rfl, fun s hs => ?_⟩
      rcases List.mem_cons.mp hs with rfl | hs
      · exact List.mem_cons_self
      · exact List.mem_cons_of_mem _ (hadded s hs)

/-- **No two sets of inputs that are kept are the same.** -/
theorem pairwise_foldl_addInputs (tolerance : Float) {all : List TestInputs}
    (ts : List TestInputs)
    (h : all.Pairwise fun s t => sameInputs tolerance s.inputs t.inputs = false) :
    (ts.foldl (addInputs tolerance) all).Pairwise
      fun s t => sameInputs tolerance s.inputs t.inputs = false := by
  induction ts generalizing all with
  | nil => exact h
  | cons t rest ih =>
    refine ih ?_
    rcases addInputs_eq tolerance all t with ⟨-, heq⟩ | ⟨hnew, heq⟩
    · rwa [heq]
    · rw [heq, List.pairwise_append]
      refine ⟨h, List.pairwise_singleton _ _, fun s hs u hu => ?_⟩
      rw [List.mem_singleton.mp hu]
      exact hnew s hs

/-- **All that is given is kept, or something like it is.** -/
theorem covered_foldl_addInputs (tolerance : Float) (all : List TestInputs)
    {ts : List TestInputs} {t : TestInputs} (h : t ∈ ts) : ∃ s ∈ ts.foldl (addInputs tolerance) all,
      sameInputs tolerance s.inputs t.inputs = true ∨ s = t := by
  induction ts generalizing all with
  | nil => exact absurd h List.not_mem_nil
  | cons u rest ih =>
    rcases List.mem_cons.mp h with rfl | hrest
    · obtain ⟨added, hfold, -⟩ := exists_foldl_addInputs tolerance (addInputs tolerance all t) rest
      rw [List.foldl_cons, hfold]
      rcases addInputs_eq tolerance all t with ⟨⟨seen, hseen, hsame⟩, heq⟩ | ⟨-, heq⟩
      · rw [heq]
        exact ⟨seen, List.mem_append_left _ hseen, .inl hsame⟩
      · rw [heq]
        exact ⟨t, List.mem_append_left _ (List.mem_append_right _ List.mem_cons_self), .inr rfl⟩
    · exact ih _ hrest

/-! ### Tests -/

/-- The first test has the stored inputs, and all others have changed ones. -/
theorem exists_tests_eq_cons (ctx : RunContext) (c : Cluster) :
    ∃ first later, (ofCluster ctx c).tests = first :: later ∧
      given first = ⟨.observed, observedInputs ctx c⟩ ∧
      ∀ t ∈ later, given t ∈ perturbed ctx (observedInputs ctx c) := by
  obtain ⟨added, hall, hadded⟩ := exists_foldl_addInputs ctx.options.tolerance
    [⟨.observed, observedInputs ctx c⟩] (perturbed ctx (observedInputs ctx c))
  have hgiven : (ofCluster ctx c).tests.map given = ⟨.observed, observedInputs ctx c⟩ :: added :=
    (map_given_tests ctx c).trans hall
  obtain ⟨first, later, htests, hfirst, hlater⟩ := List.map_eq_cons_iff.mp hgiven
  refine ⟨first, later, htests, hfirst, fun t ht => hadded _ ?_⟩
  rw [← hlater]
  exact List.mem_map_of_mem ht

theorem exists_test_of_tries {x : Coordinate} {v : Value} (h : Tries ctx c x v) :
    ∃ t ∈ (ofCluster ctx c).tests, Covers ctx ((observedInputs ctx c).insert x v) t ∨
      t.inputs = (observedInputs ctx c).insert x v := by
  obtain ⟨u, hu, huv⟩ := exists_mem_perturbed h
  obtain ⟨kept, hkept, hlike⟩ := covered_foldl_addInputs ctx.options.tolerance
    [⟨.observed, observedInputs ctx c⟩] hu
  rw [← allInputs, ← map_given_tests] at hkept
  obtain ⟨t, ht, rfl⟩ := List.mem_map.mp hkept
  rw [← huv]
  exact ⟨t, ht, hlike.imp id fun heq => congrArg TestInputs.inputs heq⟩

theorem pairwise_tests (ctx : RunContext) (c : Cluster) :
    (ofCluster ctx c).tests.Pairwise fun s t => ¬ Covers ctx s.inputs t ∧ ¬ Covers ctx t.inputs s := by
  have hpairwise := pairwise_foldl_addInputs ctx.options.tolerance
    (perturbed ctx (observedInputs ctx c))
    (List.pairwise_singleton _ (⟨.observed, observedInputs ctx c⟩ : TestInputs))
  rw [← allInputs, ← map_given_tests, List.pairwise_map] at hpairwise
  refine hpairwise.imp fun {s t} hunlike => ?_
  -- only the later one was compared with the earlier one
  have hsame : sameInputs ctx.options.tolerance s.inputs t.inputs = false := hunlike
  rw [Covers, Covers, sameInputs_comm _ t.inputs, hsame]
  exact ⟨Bool.false_ne_true, Bool.false_ne_true⟩

/-- **The tests of a cluster cover what is to be tried, and none repeats another.** -/
theorem covering_tests (ctx : RunContext) (c : Cluster) :
    ∃ first later, (ofCluster ctx c).tests = first :: later ∧ Covering ctx c first later := by
  obtain ⟨first, later, htests, hfirst, hlater⟩ := exists_tests_eq_cons ctx c
  have hinputs : first.inputs = observedInputs ctx c := congrArg TestInputs.inputs hfirst
  refine ⟨first, later, htests, ?_⟩
  refine ⟨congrArg TestInputs.origin hfirst, fun x => ?_,
    fun t ht => (tries_of_mem_perturbed (hlater t ht)).1, fun t ht => ?_,
    htests ▸ pairwise_tests ctx c, fun x v hv htolerance hfinite => ?_, fun x v hv => ?_,
    fun t ht x => ?_⟩
  · rw [hinputs, getElem?_observedInputs]
  · obtain ⟨-, x, v, hv, heq⟩ := tries_of_mem_perturbed (hlater t ht)
    have hinsert : t.inputs = (observedInputs ctx c).insert x v := heq
    refine ⟨x, v, hv, fun y => ?_⟩
    rw [hinsert, hinputs]
    by_cases hy : y = x
    · rw [hy, if_pos rfl, Std.TreeMap.getElem?_insert_self]
    · rw [if_neg hy, CellMap.getElem?_insert_of_ne (Ne.symm hy)]
  · rw [hinputs] at hfinite ⊢
    rw [← htests]
    obtain ⟨t, ht, hcovers | heq⟩ := exists_test_of_tries hv
    · exact ⟨t, ht, hcovers⟩
    · -- the test was added for these very inputs, which have to be the same as themselves
      refine ⟨t, ht, ?_⟩
      rw [Covers, heq]
      exact sameInputs_self htolerance hfinite
  · rw [hinputs, ← htests]
    exact exists_test_of_tries hv
  · rw [expectedOutputs_of_mem (htests ▸ ht), outputsOf, getElem?_ofList_map (Trial.value ctx _)]
    rfl

/-! ### The names of tests -/

/-- The name of a test: its cluster, its origin, and its number among those. -/
def testId (cluster : Nat) (origin : TestOrigin) (number : Nat) : String :=
  s!"cluster{cluster}_{origin.tag}_{number}"

/-- What stands before the first occurrence of a character is told by the whole. -/
theorem append_cons_inj {a : Char} {xs ys us vs : List Char} (hxs : a ∉ xs) (hys : a ∉ ys)
    (h : xs ++ a :: us = ys ++ a :: vs) : xs = ys ∧ us = vs := by
  have hlength := congrArg (List.idxOf a) h
  rw [List.idxOf_append_of_notMem hxs, List.idxOf_append_of_notMem hys, List.idxOf_cons_self,
    List.idxOf_cons_self] at hlength
  obtain ⟨hfront, hback⟩ := List.append_inj h hlength
  exact ⟨hfront, (List.cons.inj hback).2⟩

theorem toDigits_injective {m n : Nat} (h : Nat.toDigits 10 m = Nat.toDigits 10 n) : m = n := by
  rw [← Nat.ofDigitChars_ten_toDigits (n := m), h, Nat.ofDigitChars_ten_toDigits]

/-- **A name tells the cluster, the origin and the number.** -/
theorem testId_injective {i j m n : Nat} {o p : TestOrigin} (h : testId i o m = testId j p n) :
    i = j ∧ o = p ∧ m = n := by
  have hchars (i m : Nat) (o : TestOrigin) : (testId i o m).toList = "cluster".toList ++
      (Nat.toDigits 10 i ++ '_' :: (o.tag.toList ++ '_' :: Nat.toDigits 10 m)) := by
    simp only [testId, String.toList_append, Nat.toString_eq_ofList_toDigits, String.toList_ofList,
      List.append_assoc]
    rfl
  have htag (o : TestOrigin) : '_' ∉ o.tag.toList := by cases o <;> decide
  have hlist := congrArg String.toList h
  rw [hchars, hchars, List.append_cancel_left_eq] at hlist
  obtain ⟨hcluster, hrest⟩ := append_cons_inj Nat.underscore_not_in_toDigits
    Nat.underscore_not_in_toDigits hlist
  obtain ⟨horigin, hnumber⟩ := append_cons_inj (htag o) (htag p) hrest
  refine ⟨toDigits_injective hcluster, ?_, toDigits_injective hnumber⟩
  have htags : o.tag = p.tag := String.toList_injective horigin
  revert htags
  cases o <;> cases p <;> decide

theorem exists_id_of_mem_testCases {before : List TestOrigin} {trials : List Trial} {t : TestCase}
    (h : t ∈ testCases ctx c before trials) :
    ∃ number, before.count t.origin ≤ number ∧ t.id = testId c.id t.origin number := by
  induction trials generalizing before with
  | nil => exact absurd h List.not_mem_nil
  | cons trial rest ih =>
    rw [testCases] at h
    rcases List.mem_cons.mp h with rfl | h
    · exact ⟨_, le_rfl, rfl⟩
    · obtain ⟨number, hcount, hid⟩ := ih h
      refine ⟨number, le_trans ?_ hcount, hid⟩
      exact (List.sublist_cons_self _ _).count_le _

/-- **No two tests of a cluster have one name.** -/
theorem nodup_ids_testCases (ctx : RunContext) (c : Cluster) (before : List TestOrigin)
    (trials : List Trial) : ((testCases ctx c before trials).map TestCase.id).Nodup := by
  induction trials generalizing before with
  | nil => exact List.nodup_nil
  | cons trial rest ih =>
    rw [testCases, List.map_cons, List.nodup_cons]
    refine ⟨fun hmem => ?_, ih _⟩
    obtain ⟨t, ht, hid⟩ := List.mem_map.mp hmem
    -- a later test of this origin has a greater number
    obtain ⟨number, hcount, hnumber⟩ := exists_id_of_mem_testCases ht
    obtain ⟨-, horigin, heq⟩ := testId_injective (hnumber.symm.trans hid)
    rw [horigin, List.count_cons_self, heq] at hcount
    omega

end Synthesis

/-! ### Compiled workbooks -/

namespace Compilation

variable {options : CompilerOptions} {enricher : Option Enricher} {engine : Engine}
  {snapshot : Snapshot} {comp : Compilation}

/-- The tests of a result are those of its cluster. -/
theorem exists_cluster_of_result (hcomp : ofCells options enricher engine snapshot = .ok comp)
    {r : ClusterLogic} (hr : r ∈ comp.results) :
    ∃ cluster ∈ comp.graph.clusters, cluster.id = r.clusterId ∧
      r.tests = (Synthesis.ofCluster (context options engine snapshot comp.graph) cluster).tests := by
  obtain ⟨b, -, hgraph, hresults, -⟩ := ofCells_eq_ok hcomp
  rw [hresults] at hr
  obtain ⟨cluster, hcluster, rfl⟩ := List.mem_map.mp hr
  rw [hgraph]
  exact ⟨cluster, List.mem_of_mem_filter hcluster, rfl, rfl⟩

/-- **No two tests of a workbook have one name.** -/
theorem nodup_testIds (hcomp : ofCells options enricher engine snapshot = .ok comp) :
    (comp.results.flatMap fun r => r.tests.map TestCase.id).Nodup := by
  rw [List.nodup_flatMap]
  refine ⟨fun r hr => ?_, ?_⟩
  · obtain ⟨cluster, -, -, htests⟩ := exists_cluster_of_result hcomp hr
    rw [htests]
    exact Synthesis.nodup_ids_testCases _ cluster _ _
  · refine (List.pairwise_map.mp (nodup_clusterIds hcomp)).imp_of_mem ?_
    intro r r' hr hr' hne id hid hid'
    -- the name of a test tells its cluster
    have hnamed {r : ClusterLogic} (hr : r ∈ comp.results) (hid : id ∈ r.tests.map TestCase.id) :
        ∃ o n, id = Synthesis.testId r.clusterId o n := by
      obtain ⟨cluster, -, hcluster, htests⟩ := exists_cluster_of_result hcomp hr
      rw [htests] at hid
      obtain ⟨t, ht, rfl⟩ := List.mem_map.mp hid
      obtain ⟨number, -, heq⟩ := Synthesis.exists_id_of_mem_testCases ht
      exact ⟨t.origin, number, hcluster ▸ heq⟩
    obtain ⟨o, n, heq⟩ := hnamed hr hid
    obtain ⟨o', n', heq'⟩ := hnamed hr' hid'
    exact hne (Synthesis.testId_injective (heq.symm.trans heq')).1

end Compilation

namespace Snapshot

/-- **Tests cover what is to be tried and never repeat**, for every cluster, and the tests of a
workbook that compiles are those of its clusters, each with a name of its own. -/
theorem covering_compile (s : Snapshot) (options : CompilerOptions) (enricher : Option Enricher) :
    (∀ ctx c, ∃ first later, (Synthesis.ofCluster ctx c).tests = first :: later ∧
      Synthesis.Covering ctx c first later) ∧
    ∀ comp, s.compile options enricher = .ok comp →
      (∃ names, s.nameTable = .ok names ∧ ∀ r ∈ comp.results,
        ∃ c ∈ comp.graph.clusters, c.id = r.clusterId ∧
          r.tests = (Synthesis.ofCluster (Compilation.context options
            ⟨names, .builtin, options.evalOptions⟩ (s.canonical names) comp.graph) c).tests) ∧
      (comp.results.flatMap fun r => r.tests.map TestCase.id).Nodup := by
  refine ⟨Synthesis.covering_tests, fun comp hcomp => ?_⟩
  obtain ⟨names, hnames, -, hcells⟩ := compile_eq_ok hcomp
  exact ⟨⟨names, hnames, fun r hr => Compilation.exists_cluster_of_result hcells hr⟩,
    Compilation.nodup_testIds hcells⟩

/-- A compilation that passes a check was made. -/
theorem exists_compilation {s : Snapshot} {options : CompilerOptions} {check : Compilation → Bool}
    (h : (s.compile options none).toOption.any check = true) :
    ∃ comp, s.compile options none = .ok comp ∧ check comp = true := by
  cases hcomp : s.compile options none with
  | error e =>
    rw [hcomp] at h
    cases h
  | ok comp =>
    rw [hcomp] at h
    exact ⟨comp, rfl, h⟩

/-- A numeric input that stores 0. -/
def stillCell : ClassifiedCell := ⟨⟨"S", 1, 1⟩, .input, none, some (.number 0.0), none, none⟩

/-- That input, and an output that doubles it. -/
def still : Snapshot :=
  { sheets := ["S"],
    cells := [stillCell, ⟨⟨"S", 2, 1⟩, .output, some "=A1*2", none, none, none⟩],
    namedRanges := [],
    iteration := none }

/-- What the runs of that workbook see. -/
def stillContext (graph : Graph) : RunContext :=
  Compilation.context .standard ⟨.ofLists [] ["S"], .builtin, CompilerOptions.standard.evalOptions⟩
    (still.canonical (.ofLists [] ["S"])) graph

/-- The stored 0 is not tried again: the first test covers it. -/
theorem covering_still : ∃ comp, still.compile .standard none = .ok comp ∧
    (comp.results.flatMap fun r => r.tests.map TestCase.id).Nodup ∧
    ∃ r ∈ comp.results, ∃ t, r.tests = [t] ∧
      Synthesis.sameInputs CompilerOptions.standard.tolerance t.inputs
        (t.inputs.insert stillCell.coordinate (.number 0.0)) = true := by
  have hcheck : ((still.compile .standard none).toOption.any fun comp =>
      (comp.results.any fun r => r.tests.length == 1) && comp.graph.clusters.all fun c =>
        Synthesis.places (stillContext comp.graph) c.inputs == [stillCell.coordinate]) = true := by
    decide +kernel
  obtain ⟨comp, hcomp, hchecked⟩ := exists_compilation hcheck
  rw [Bool.and_eq_true] at hchecked
  obtain ⟨r, hr, hlength⟩ := List.any_eq_true.mp hchecked.1
  obtain ⟨t, ht⟩ := List.length_eq_one_iff.mp (eq_of_beq hlength)
  obtain ⟨⟨names, hnames, htests⟩, hids⟩ := (covering_compile still .standard none).2 comp hcomp
  obtain rfl : NameTable.ofLists [] ["S"] = names :=
    Except.ok.inj ((show still.nameTable = .ok (.ofLists [] ["S"]) from rfl).symm.trans hnames)
  obtain ⟨c, hc, -, heq⟩ := htests r hr
  have hplaces : Synthesis.places (stillContext comp.graph) c.inputs = [stillCell.coordinate] :=
    eq_of_beq (List.all_eq_true.mp hchecked.2 c hc)
  obtain ⟨first, later, hsplit, hcovering⟩ :=
    (covering_compile still .standard none).1 (stillContext comp.graph) c
  obtain ⟨rfl, rfl⟩ := List.cons.inj (hsplit.symm.trans (heq.symm.trans ht))
  have hvalue : (stillContext comp.graph).constants.value stillCell.coordinate = .number 0.0 := rfl
  have htries : Synthesis.Tries (stillContext comp.graph) c stillCell.coordinate (.number 0.0) := by
    refine ⟨hplaces ▸ List.mem_cons_self, stillCell, rfl, rfl, ?_⟩
    rw [hvalue]
    exact .boundary rfl .zero
  have hfinite : Synthesis.FiniteInputs (first.inputs.insert stillCell.coordinate (.number 0.0)) := by
    intro x v hv
    by_cases hx : x = stillCell.coordinate
    · rw [hx, Std.TreeMap.getElem?_insert_self] at hv
      obtain rfl := Option.some.inj hv
      decide +kernel
    · -- there is no other input
      rw [CellMap.getElem?_insert_of_ne (Ne.symm hx), hcovering.stored, hplaces,
        if_neg (fun hmem => hx (List.mem_singleton.mp hmem))] at hv
      cases hv
  have htolerance : (0.0 : Float) ≤ CompilerOptions.standard.tolerance := by decide +kernel
  obtain ⟨t, ht', hcovers⟩ := hcovering.covers _ _ htries htolerance hfinite
  rw [List.mem_singleton.mp ht'] at hcovers
  exact ⟨comp, hcomp, hids, r, hr, first, ht, hcovers⟩

/-- Options with a tolerance that is no number. -/
def unmeasured : CompilerOptions := { CompilerOptions.standard with tolerance := 0.0 / 0.0 }

/-- Two tests have the very same inputs, and neither covers a value for the cell. -/
def repeats (tolerance : Float) (x : Coordinate) (v : Value) : List TestCase → Bool
  | [s, t] => Synthesis.sameInputs 0.0 s.inputs t.inputs &&
      [s, t].all fun u => !Synthesis.sameInputs tolerance u.inputs (s.inputs.insert x v)
  | _ => false

/-- **With a tolerance that is no number, a test is repeated**: such options are accepted, the stored
0 is tried again, and still no test covers it. -/
theorem repeats_still : unmeasured.validated.isOk = true ∧
    Synthesis.IsCandidate unmeasured.boundaryStep stillCell (.number 0.0) (.number 0.0) ∧
    ∃ comp, still.compile unmeasured none = .ok comp ∧ ∃ r ∈ comp.results,
      repeats unmeasured.tolerance stillCell.coordinate (.number 0.0) r.tests = true := by
  have hrepeats : ((still.compile unmeasured none).toOption.any fun comp => comp.results.any
      fun r => repeats unmeasured.tolerance stillCell.coordinate (.number 0.0) r.tests) = true := by
    decide +kernel
  obtain ⟨comp, hcomp, hresult⟩ := exists_compilation hrepeats
  obtain ⟨r, hr, hr'⟩ := List.any_eq_true.mp hresult
  exact ⟨by decide +kernel, .boundary rfl .zero, comp, hcomp, r, hr, hr'⟩

end Snapshot

end Recalc
