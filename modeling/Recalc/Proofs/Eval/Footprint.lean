/-
Recalc/Proofs/Eval/Footprint.lean

What formulas read.  The footprint of a formula is the cells that it refers to, and one
thing more: a sum or a mean over one criterion with a range of its own to select from
takes that range in the shape of the range tested.  A formula has the same value over any
two maps that agree on its footprint:

    (∀ c, e.Footprint c → m[c]? = m'[c]?) → evaluate e m.source = evaluate e m'.source.

The second part cannot be left out: the sum may read a cell that no reference contains.

Design.  An operand that is a cell or a range comes from a reference of the formula, also
behind a conditional (`Operand.IsOf`).  So the operands of a call are within the footprint,
and what its function reads is known from `Builtin.apply_congr`.
-/
import Recalc.Eval.Engine
import Recalc.Proofs.Eval.Reads
import Recalc.Proofs.Formula.Expr
import Recalc.Proofs.Formula.Function

namespace Recalc

/-! ### Footprints -/

namespace Expr

/-- The range tested and the range selected from, if the call is one with both. -/
def targetCall (name : String) : List Expr → List (Expr × Expr)
  | [range, _, target] =>
    if Text.upperAscii name = "SUMIF" ∨ Text.upperAscii name = "AVERAGEIF" then [(range, target)]
    else []
  | _ => []

mutual

/-- The calls of a formula that test one range and select from another one. -/
def targetCalls : Expr → List (Expr × Expr)
  | .call name args => targetCall name args ++ targetCallsOfArgs args
  | .dynamic _ args => targetCallsOfArgs args
  | .binary _ left right => targetCalls left ++ targetCalls right
  | .unary _ operand => targetCalls operand
  | .reference _ => []
  | .literal _ => []
  | .array _ => []

/-- The calls of an argument list that test one range and select from another one. -/
def targetCallsOfArgs : List Expr → List (Expr × Expr)
  | [] => []
  | arg :: args => targetCalls arg ++ targetCallsOfArgs args

end

/-- The formula refers to the cell. -/
def Refers (e : Expr) (c : Coordinate) : Prop := ∃ r ∈ e.references, r.target.contains c = true

/-- The cells that a formula may read. -/
def Footprint (e : Expr) (c : Coordinate) : Prop :=
  e.Refers c ∨ ∃ call ∈ e.targetCalls, ∃ r ∈ call.1.references, ∃ t ∈ call.2.references,
    ∃ i j, i < r.target.toRange.rows ∧ j < r.target.toRange.columns ∧
      c = CellRange.shift t.target.toRange.first i j

/-- Where no call selects from another range, only cells referred to are read. -/
theorem footprint_iff_refers {e : Expr} (h : e.targetCalls = []) (c : Coordinate) :
    e.Footprint c ↔ e.Refers c :=
  or_iff_left fun ⟨p, hp, _⟩ => by
    rw [h] at hp
    exact List.not_mem_nil hp

/-- All ranges in a formula are well-formed. -/
def WellFormed (e : Expr) : Prop := ∀ r ∈ e.references, r.target.WellFormed

theorem mem_targetCallsOfArgs {args : List Expr} {call : Expr × Expr} :
    call ∈ targetCallsOfArgs args ↔ ∃ a ∈ args, call ∈ a.targetCalls := by
  induction args with
  | nil => simp [targetCallsOfArgs]
  | cons a rest ih => simp [targetCallsOfArgs, ih]

/-- The formula's ranges are well-formed and its footprint is in the set. -/
structure Within (P : Coordinate → Prop) (e : Expr) : Prop where
  wellFormed : e.WellFormed
  footprint : ∀ c, e.Footprint c → P c

variable {P : Coordinate → Prop}

/-- A part of a formula has no more references and calls. -/
theorem Within.of_part {e part : Expr} (h : e.Within P)
    (hrefs : ∀ r ∈ part.references, r ∈ e.references)
    (hcalls : ∀ call ∈ part.targetCalls, call ∈ e.targetCalls) : part.Within P where
  wellFormed r hr := h.wellFormed r (hrefs r hr)
  footprint c hc := by
    refine h.footprint c (hc.imp ?_ ?_)
    · exact fun ⟨r, hr, hcontains⟩ => ⟨r, hrefs r hr, hcontains⟩
    · exact fun ⟨p, hp, hread⟩ => ⟨p, hcalls p hp, hread⟩

theorem Within.args {name : String} {args : List Expr} (h : (Expr.call name args).Within P) :
    ∀ a ∈ args, a.Within P := fun a ha =>
  h.of_part
    (fun r hr => by rw [references]; exact mem_referencesOfArgs.mpr ⟨a, ha, hr⟩)
    fun call hcall => by
      rw [targetCalls]
      exact List.mem_append_right _ (mem_targetCallsOfArgs.mpr ⟨a, ha, hcall⟩)

theorem Within.left {op : BinaryOp} {a b : Expr} (h : (Expr.binary op a b).Within P) :
    a.Within P :=
  h.of_part (fun r hr => by simp [references, hr]) fun call hcall => by simp [targetCalls, hcall]

theorem Within.right {op : BinaryOp} {a b : Expr} (h : (Expr.binary op a b).Within P) :
    b.Within P :=
  h.of_part (fun r hr => by simp [references, hr]) fun call hcall => by simp [targetCalls, hcall]

theorem Within.operand {op : UnaryOp} {a : Expr} (h : (Expr.unary op a).Within P) : a.Within P :=
  h.of_part (fun r hr => by rwa [references]) fun call hcall => by rwa [targetCalls]

end Expr

/-! ### Operands come from references -/

/-- A range that the operand is, or is of one cell, is what a reference points at. -/
def Operand.IsOf (refs : List Reference) (a : Operand) : Prop :=
  ∀ r, EvalContext.rangeOf a = .ok r → ∃ ref ∈ refs, ref.target.toRange = r

namespace Operand.IsOf

theorem value (refs : List Reference) (v : Value) : (Operand.value v).IsOf refs := fun r hr => by
  cases v <;> cases hr

theorem ofTarget {refs : List Reference} {ref : Reference} (h : ref ∈ refs) :
    (Operand.ofTarget ref.target).IsOf refs := fun r hr => by
  refine ⟨ref, h, ?_⟩
  cases ht : ref.target <;> rw [ht] at hr <;> exact Except.ok.inj hr

theorem mono {refs refs' : List Reference} {a : Operand} (h : a.IsOf refs)
    (hsub : ∀ ref ∈ refs, ref ∈ refs') : a.IsOf refs' := fun r hr =>
  let ⟨ref, href, htarget⟩ := h r hr
  ⟨ref, hsub ref href, htarget⟩

/-- Operands from references that are within a set are. -/
theorem within {P : Coordinate → Prop} {refs : List Reference} {a : Operand} (h : a.IsOf refs)
    (hwf : ∀ ref ∈ refs, ref.target.WellFormed)
    (hin : ∀ ref ∈ refs, ∀ c, ref.target.contains c = true → P c) : a.Within P := by
  cases a with
  | value v => trivial
  | array rows => trivial
  | cell c =>
    obtain ⟨ref, href, htarget⟩ := h ⟨c, c⟩ rfl
    refine hin ref href c ((Target.contains_toRange _ c).mp ?_)
    rw [htarget]
    exact CellRange.contains_single.mpr rfl
  | range r =>
    obtain ⟨ref, href, rfl⟩ := h r rfl
    exact ⟨(hwf ref href).ordered, fun c hc => hin ref href c ((Target.contains_toRange _ c).mp hc)⟩

end Operand.IsOf

namespace Engine

variable {functions : Registry} {ctx : EvalContext}

theorem operands_eq_map (args : List Expr) :
    operands functions ctx args = args.map (operand functions ctx) := by
  induction args with
  | nil => rfl
  | cons a rest ih => rw [operands, ih, List.map_cons]

/-- What a call comes to without its function's body. -/
inductive Shortcut (functions : Registry) (ctx : EvalContext) (args : List Expr) : Operand → Prop
  | fault (f : Fault) : Shortcut functions ctx args (.fault f)
  | absent : Shortcut functions ctx args (.value (.boolean false))
  | omitted : Shortcut functions ctx args (.value (.number 0.0))
  | first : Shortcut functions ctx args (.value (ctx.scalar (operandAt functions ctx args 0)))
  | branch (k : Nat) : Shortcut functions ctx args (operandAt functions ctx args k)

theorem shortcut_branch {args : List Expr} {k : Nat} {a : Operand}
    (ha : a = match args[k]? with
      | none => .value (.boolean false)
      | some e => if e.isOmitted then .value (.number 0.0) else operandAt functions ctx args k) :
    Shortcut functions ctx args a := by
  subst ha
  split
  · exact .absent
  · split
    · exact .omitted
    · exact .branch k

/-- **A call applies a function to all its operands, or takes a shortcut.** -/
theorem operand_call_cases (functions : Registry) (ctx : EvalContext) (name : String)
    (args : List Expr) :
    (∃ f body, functions.find? name = some f ∧ f.kind = .eager body ∧
      operand functions ctx (.call name args) = f.applyTo body ctx (operands functions ctx args)) ∨
    Shortcut functions ctx args (operand functions ctx (.call name args)) := by
  rw [operand]
  split
  case h_1 => exact .inr (.fault _)
  case h_2 f hf =>
    split
    case isTrue => exact .inr (.fault _)
    case isFalse =>
      split
      case h_1 => exact .inr (.fault _)
      case h_2 body hkind => exact .inl ⟨f, body, hf, hkind, rfl⟩
      case h_3 =>
        -- only a conditional can hand an argument on
        dsimp only
        split
        · split
          · exact .inr (shortcut_branch rfl)
          · exact .inr (shortcut_branch rfl)
          · exact .inr (.fault _)
        · split
          · split
            · exact .inr (shortcut_branch rfl)
            · exact .inr .first
          · exact .inr (.fault _)

/-- A call computes a value, or is one of its arguments. -/
theorem operand_call (functions : Registry) (ctx : EvalContext) (name : String)
    (args : List Expr) :
    (∃ v, operand functions ctx (.call name args) = .value v) ∨
      ∃ k, operand functions ctx (.call name args) = operandAt functions ctx args k := by
  rcases operand_call_cases functions ctx name args with ⟨f, body, -, -, happly⟩ | hshort
  · rw [happly, FunctionSpec.applyTo]
    split <;> exact .inl ⟨_, rfl⟩
  · generalize operand functions ctx (.call name args) = a at hshort
    cases hshort with
    | branch k => exact .inr ⟨k, rfl⟩
    | _ => exact .inl ⟨_, rfl⟩

mutual

/-- **The operand of a formula comes from its references.** -/
theorem operand_isOf : ∀ e : Expr, (operand functions ctx e).IsOf e.references
  | .literal v => .value _ v
  | .array rows => fun r hr => by cases hr
  | .reference ref => .ofTarget (by simp [Expr.references])
  | .dynamic _ _ => .value _ _
  | .unary _ _ => by rw [operand]; exact .value _ _
  | .binary _ _ _ => by rw [operand]; exact .value _ _
  | .call name args => by
    rw [Expr.references]
    rcases operand_call functions ctx name args with ⟨v, hv⟩ | ⟨k, hk⟩
    · rw [hv]
      exact .value _ v
    · rw [hk]
      exact operandAt_isOf args k

/-- The operand of one argument comes from the references of all. -/
theorem operandAt_isOf : ∀ (args : List Expr) (k : Nat),
    (operandAt functions ctx args k).IsOf (Expr.referencesOfArgs args)
  | [], _ => .value _ _
  | arg :: args, 0 => by
    rw [operandAt, Expr.referencesOfArgs]
    exact (operand_isOf arg).mono fun ref => List.mem_append_left _
  | arg :: args, k + 1 => by
    rw [operandAt, Expr.referencesOfArgs]
    exact (operandAt_isOf args k).mono fun ref => List.mem_append_right _

end

theorem operand_within {P : Coordinate → Prop} {e : Expr} (he : e.Within P) :
    (operand functions ctx e).Within P :=
  (operand_isOf e).within he.wellFormed fun ref href c hc =>
    he.footprint c (.inl ⟨ref, href, hc⟩)

theorem operandAt_within {P : Coordinate → Prop} {args : List Expr}
    (hargs : ∀ a ∈ args, a.Within P) (k : Nat) : (operandAt functions ctx args k).Within P := by
  refine (operandAt_isOf args k).within (fun ref href => ?_) fun ref href c hc => ?_
  · obtain ⟨a, ha, href⟩ := Expr.mem_referencesOfArgs.mp href
    exact (hargs a ha).wellFormed ref href
  · obtain ⟨a, ha, href⟩ := Expr.mem_referencesOfArgs.mp href
    exact (hargs a ha).footprint c (.inl ⟨ref, href, hc⟩)

/-! ### Calls that select from another range -/

/-- Among the functions that test one range only two take another range to select from. -/
theorem selecting_of_mem_builtins : ∀ f ∈ FunctionSpec.builtins,
    (f.kind = .eager .sumif → f.name = "SUMIF" ∧ f.maxArgs = some 3) ∧
    (f.kind = .eager .averageif → f.name = "AVERAGEIF" ∧ f.maxArgs = some 3) ∧
    (f.kind = .eager .countif → f.maxArgs = some 2) := by
  decide

/-- A third argument of a function that tests its first one makes the call one that selects from
another range. -/
theorem mem_targetCall {name : String} {f : FunctionSpec} {body : Builtin} {args : List Expr}
    {a c : Expr} (hfind : Registry.builtin.find? name = some f) (hkind : f.kind = .eager body)
    (hbody : body = .sumif ∨ body = .countif ∨ body = .averageif)
    (harity : (f.arityFault? args.length (args.any Expr.isOmitted)).isSome = false)
    (ha : args[0]? = some a) (hc : args[2]? = some c) : (a, c) ∈ Expr.targetCall name args := by
  obtain ⟨hmem, hname⟩ := Registry.mem_of_find?_builtin hfind
  obtain ⟨hsum, haverage, hcount⟩ := selecting_of_mem_builtins f hmem
  have hlength : 2 < args.length := (List.getElem?_eq_some_iff.mp hc).1
  -- a call of three arguments is one under either name
  have three (hmost : f.maxArgs = some 3)
      (hcall : Text.upperAscii name = "SUMIF" ∨ Text.upperAscii name = "AVERAGEIF") :
      (a, c) ∈ Expr.targetCall name args := by
    have hmost := FunctionSpec.le_of_arityFault? hmost harity
    obtain ⟨x, y, z, rfl⟩ := List.length_eq_three.mp (by omega : args.length = 3)
    obtain rfl := Option.some.inj ha
    obtain rfl := Option.some.inj hc
    rw [Expr.targetCall, if_pos hcall]
    exact List.mem_singleton.mpr rfl
  rcases hbody with rfl | rfl | rfl
  · obtain ⟨hn, hmost⟩ := hsum hkind
    exact three hmost (.inl (hname.symm.trans (by rw [hn]; decide)))
  · have hmost := FunctionSpec.le_of_arityFault? (hcount hkind) harity
    omega
  · obtain ⟨hn, hmost⟩ := haverage hkind
    exact three hmost (.inr (hname.symm.trans (by rw [hn]; decide)))

/-- What such a call reads is in its footprint. -/
theorem resized_operands {P : Coordinate → Prop} {name : String} {f : FunctionSpec}
    {body : Builtin} {args : List Expr} (he : (Expr.call name args).Within P)
    (hfind : Registry.builtin.find? name = some f) (hkind : f.kind = .eager body)
    (harity : (f.arityFault? args.length (args.any Expr.isOmitted)).isSome = false)
    (hbody : body = .sumif ∨ body = .countif ∨ body = .averageif) :
    Conditional.Resized P (operands functions ctx args) := by
  intro range arg other hrange harg hother i j hi hj
  rw [operands_eq_map] at hrange harg
  obtain ⟨first, hfirst, hof⟩ := EvalContext.exists_of_rangeArg hrange
  rw [List.getElem?_map] at hfirst harg
  obtain ⟨a, ha, rfl⟩ := Option.map_eq_some_iff.mp hfirst
  obtain ⟨c, hc, rfl⟩ := Option.map_eq_some_iff.mp harg
  obtain ⟨r, hr, rfl⟩ := operand_isOf a range hof
  obtain ⟨t, ht, rfl⟩ := operand_isOf c other hother
  refine he.footprint _ (.inr ⟨(a, c), ?_, r, hr, t, ht, i, j, hi, hj, rfl⟩)
  rw [Expr.targetCalls]
  exact List.mem_append_left _ (mem_targetCall hfind hkind hbody harity ha hc)

/-! ### Evaluation over sources that agree -/

variable {P : Coordinate → Prop} {s t : CellSource} {o : EvalOptions}

theorem scalar_operand_congr (h : s.AgreeOn P t) {e : Expr} (he : e.Within P) :
    EvalContext.scalar ⟨s, o⟩ (operand functions ctx e) =
      EvalContext.scalar ⟨t, o⟩ (operand functions ctx e) :=
  EvalContext.scalar_congr h (operand_within he)

theorem applyTo_congr (h : s.AgreeOn P t) {args : List Operand} (hargs : ∀ a ∈ args, a.Within P)
    (f : FunctionSpec) {body : Builtin}
    (hresized : body = .sumif ∨ body = .countif ∨ body = .averageif →
      Conditional.Resized P args) :
    f.applyTo body ⟨s, o⟩ args = f.applyTo body ⟨t, o⟩ args := by
  rw [FunctionSpec.applyTo, FunctionSpec.applyTo, Builtin.apply_congr h hargs body hresized]

/-- A call whose arguments evaluate alike evaluates alike. -/
theorem operand_call_congr (h : s.AgreeOn P t) {name : String} {args : List Expr}
    (he : (Expr.call name args).Within P)
    (hall : operands .builtin ⟨s, o⟩ args = operands .builtin ⟨t, o⟩ args)
    (hat : ∀ k, operandAt .builtin ⟨s, o⟩ args k = operandAt .builtin ⟨t, o⟩ args k) :
    operand .builtin ⟨s, o⟩ (.call name args) = operand .builtin ⟨t, o⟩ (.call name args) := by
  have hfirst : EvalContext.scalar ⟨s, o⟩ (operandAt .builtin ⟨t, o⟩ args 0) =
      EvalContext.scalar ⟨t, o⟩ (operandAt .builtin ⟨t, o⟩ args 0) :=
    EvalContext.scalar_congr h (operandAt_within he.args 0)
  simp only [operand, hat, hfirst, hall]
  cases hfind : Registry.builtin.find? name with
  | none => rfl
  | some f =>
    dsimp only
    split
    case isTrue => rfl
    case isFalse harity =>
      cases hkind : f.kind with
      | dynamic => rfl
      | conditional => rfl
      | eager body =>
        refine applyTo_congr h (fun a ha => ?_) f fun hbody =>
          resized_operands he hfind hkind (Bool.eq_false_iff.mpr harity) hbody
        rw [operands_eq_map] at ha
        obtain ⟨e, hmem, rfl⟩ := List.mem_map.mp ha
        exact operand_within (he.args e hmem)

mutual

/-- **A formula evaluates alike over sources that agree on its footprint.** -/
theorem operand_congr (h : s.AgreeOn P t) : ∀ e : Expr, e.Within P →
    operand .builtin ⟨s, o⟩ e = operand .builtin ⟨t, o⟩ e
  | .literal _, _ => rfl
  | .array _, _ => rfl
  | .reference _, _ => rfl
  | .dynamic _ _, _ => rfl
  | .unary op e, he => by
    rw [operand, operand, operand_congr h e he.operand, scalar_operand_congr h he.operand]
  | .binary op a b, he => by
    rw [operand, operand, operand_congr h a he.left, operand_congr h b he.right,
      scalar_operand_congr h he.left, scalar_operand_congr h he.right]
  | .call name args, he =>
    operand_call_congr h he (operands_congr h args he.args) (operandAt_congr h args he.args)

theorem operands_congr (h : s.AgreeOn P t) : ∀ args : List Expr, (∀ a ∈ args, a.Within P) →
    operands .builtin ⟨s, o⟩ args = operands .builtin ⟨t, o⟩ args
  | [], _ => rfl
  | arg :: args, hargs => by
    rw [operands, operands, operand_congr h arg (hargs arg List.mem_cons_self),
      operands_congr h args fun a ha => hargs a (List.mem_cons_of_mem _ ha)]

theorem operandAt_congr (h : s.AgreeOn P t) : ∀ args : List Expr, (∀ a ∈ args, a.Within P) →
    ∀ k, operandAt .builtin ⟨s, o⟩ args k = operandAt .builtin ⟨t, o⟩ args k
  | [], _, _ => rfl
  | arg :: _, hargs, 0 => operand_congr h arg (hargs arg List.mem_cons_self)
  | _ :: args, hargs, k + 1 =>
    operandAt_congr h args (fun a ha => hargs a (List.mem_cons_of_mem _ ha)) k

end

theorem evaluate_congr {engine : Engine} (hfunctions : engine.functions = .builtin) {e : Expr}
    (hwf : e.WellFormed) (h : s.AgreeOn e.Footprint t) :
    engine.evaluate e s = engine.evaluate e t := by
  have he : e.Within e.Footprint := ⟨hwf, fun _ hc => hc⟩
  rw [evaluate, evaluate, hfunctions, operand_congr h e he]
  exact EvalContext.topLeft_congr h (operand_within he)

/-- **A formula reads nothing but its footprint.**  Over two maps with the same entries there it has
the same value, whatever else the maps hold. -/
theorem evaluate_eq_of_footprint (names : NameTable) (options : EvalOptions) {e : Expr}
    (hwf : e.WellFormed) {m m' : CellMap} (h : ∀ c, e.Footprint c → m[c]? = m'[c]?) :
    (Engine.mk names .builtin options).evaluate e m.source =
      (Engine.mk names .builtin options).evaluate e m'.source := by
  have hfunctions : (Engine.mk names .builtin options).functions = .builtin := by dsimp only
  exact evaluate_congr hfunctions hwf (CellMap.agreeOn h)

/-! ### A sum that reads more than its references -/

/-- The sum of what stands beside the positive numbers among two, from one cell on:
`SUMIF(A1:A2, ">0", B1)`. -/
def selectedSum : Expr :=
  .call "SUMIF" [.reference ⟨.range ⟨⟨"S", 1, 1⟩, ⟨"S", 1, 2⟩⟩, none⟩, .literal (.text ">0"),
    .reference ⟨.cell ⟨"S", 2, 1⟩, none⟩]

/-- Two numbers to test, and one beside the first. -/
def testedCells : CellMap :=
  .ofList [(⟨"S", 1, 1⟩, .number 1.0), (⟨"S", 1, 2⟩, .number 1.0), (⟨"S", 2, 1⟩, .number 10.0)]

/-- The same with another number beside the second. -/
def besideBoth : CellMap := testedCells.insert ⟨"S", 2, 2⟩ (.number 5.0)

/-- A workbook without names. -/
def plain : Engine := ⟨.ofLists [] [], .builtin, .standard⟩

theorem wellFormed_selectedSum : selectedSum.WellFormed := by
  intro r hr
  simp only [selectedSum, Expr.references, Expr.referencesOfArgs, List.append_nil, List.nil_append,
    List.singleton_append, List.mem_cons, List.not_mem_nil, or_false] at hr
  rcases hr with rfl | rfl
  · exact ⟨rfl, by decide, by decide⟩
  · trivial

/-- Cells in the third column are neither referred to nor in the shape of the range tested. -/
theorem not_footprint_selectedSum : ¬ selectedSum.Footprint ⟨"S", 3, 1⟩ := by
  have hrefs : ∀ r ∈ selectedSum.references, r.target.contains ⟨"S", 3, 1⟩ = false := by decide
  rintro (⟨r, hr, hcontains⟩ | ⟨p, hp, r, hr, t, ht, i, j, hi, hj, hcell⟩)
  · exact absurd hcontains (by rw [hrefs r hr]; decide)
  · obtain rfl : p = (.reference ⟨.range ⟨⟨"S", 1, 1⟩, ⟨"S", 1, 2⟩⟩, none⟩,
        .reference ⟨.cell ⟨"S", 2, 1⟩, none⟩) := by
      simpa [selectedSum, Expr.targetCalls, Expr.targetCall, Expr.targetCallsOfArgs,
        show Text.upperAscii "SUMIF" = "SUMIF" by decide] using hp
    obtain rfl := List.mem_singleton.mp hr
    obtain rfl := List.mem_singleton.mp ht
    have hcolumn : 3 = 2 + j := congrArg Coordinate.column hcell
    have hwidth : j < 1 := hj
    omega

theorem evaluate_selectedSum_insert : selectedSum.WellFormed ∧
    (∀ c, selectedSum.Footprint c →
      besideBoth[c]? = (besideBoth.insert ⟨"S", 3, 1⟩ (.number 7.0))[c]?) ∧
    plain.evaluate selectedSum besideBoth.source =
      plain.evaluate selectedSum (CellMap.source (besideBoth.insert ⟨"S", 3, 1⟩ (.number 7.0))) := by
  have agree : ∀ c, selectedSum.Footprint c →
      besideBoth[c]? = (besideBoth.insert ⟨"S", 3, 1⟩ (.number 7.0))[c]? := fun c hc => by
    refine (CellMap.getElem?_insert_of_ne ?_ _).symm
    rintro rfl
    exact not_footprint_selectedSum hc
  exact ⟨wellFormed_selectedSum, agree,
    evaluate_eq_of_footprint _ _ wellFormed_selectedSum agree⟩

/-- **Agreement on the cells referred to is not enough**: the number beside the second one tested is
in no reference of the sum, and counts. -/
theorem evaluate_selectedSum_ne : selectedSum.WellFormed ∧
    (∀ c, selectedSum.Refers c → testedCells[c]? = besideBoth[c]?) ∧
    plain.evaluate selectedSum testedCells.source ≠
      plain.evaluate selectedSum besideBoth.source := by
  have hrefs : ∀ r ∈ selectedSum.references, r.target.contains ⟨"S", 2, 2⟩ = false := by decide
  refine ⟨wellFormed_selectedSum, fun c hc => ?_, fun heq => ?_⟩
  · refine (CellMap.getElem?_insert_of_ne ?_ _).symm
    rintro rfl
    obtain ⟨r, hr, hcontains⟩ := hc
    exact absurd hcontains (by rw [hrefs r hr]; decide)
  · have hten : (plain.evaluate selectedSum testedCells.source).same (.number 10.0) = true := by
      decide +kernel
    have hmore : (plain.evaluate selectedSum besideBoth.source).same (.number 10.0) = false := by
      decide +kernel
    rw [heq, hmore] at hten
    cases hten

end Engine

end Recalc
