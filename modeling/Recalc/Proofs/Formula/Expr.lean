/-
Recalc/Proofs/Formula/Expr.lean

Trees and their argument lists.  What a tree refers to is what its parts refer to, and its
constants are those of its parts.  Trees are equal part by part, so equal argument lists have one length and omit the same
arguments.
-/
import Mathlib.Data.List.Forall2
import Recalc.Formula.Expr

namespace Recalc.Expr

variable {a b : Expr} {args args' : List Expr}

theorem mem_referencesOfArgs {r : Reference} :
    r ∈ referencesOfArgs args ↔ ∃ a ∈ args, r ∈ a.references := by
  induction args with
  | nil => simp [referencesOfArgs]
  | cons a rest ih => simp [referencesOfArgs, ih]

/-! ### Parts -/

mutual

/-- The literals and the elements of arrays, from left to right. -/
def constants : Expr → List Value
  | .literal v => [v]
  | .array rows => rows.flatten
  | .reference _ => []
  | .call _ args => constantsOfArgs args
  | .dynamic _ args => constantsOfArgs args
  | .unary _ operand => constants operand
  | .binary _ left right => constants left ++ constants right

/-- The literals and the elements of arrays of an argument list, from left to right. -/
def constantsOfArgs : List Expr → List Value
  | [] => []
  | arg :: args => constants arg ++ constantsOfArgs args

end

theorem mem_constantsOfArgs {v : Value} :
    v ∈ constantsOfArgs args ↔ ∃ a ∈ args, v ∈ a.constants := by
  induction args with
  | nil => simp [constantsOfArgs]
  | cons a rest ih => simp [constantsOfArgs, ih]

mutual

/-- The formula and all formulas in it. -/
def parts : Expr → List Expr
  | .literal v => [.literal v]
  | .array rows => [.array rows]
  | .reference r => [.reference r]
  | .call name args => .call name args :: partsOfArgs args
  | .dynamic function args => .dynamic function args :: partsOfArgs args
  | .unary op operand => .unary op operand :: parts operand
  | .binary op left right => .binary op left right :: (parts left ++ parts right)

/-- The arguments and all formulas in them. -/
def partsOfArgs : List Expr → List Expr
  | [] => []
  | arg :: args => parts arg ++ partsOfArgs args

end

theorem self_mem_parts (e : Expr) : e ∈ e.parts := by
  cases e <;> simp [parts]

/-! ### Omitted arguments -/

theorem eq_omitted (h : a.isOmitted = true) : a = .literal .empty := by
  unfold isOmitted at h
  split at h
  · rfl
  · cases h

/-! ### Equal trees -/

/-- Equal argument lists, one by one. -/
abbrev SameArgs (args args' : List Expr) : Prop := List.Forall₂ (fun a b => a.same b = true) args args'

theorem SameArgs.sameArgs (h : SameArgs args args') : Expr.sameArgs args args' = true := by
  induction h with
  | nil => rfl
  | cons harg _ ih => rw [Expr.sameArgs, harg, ih, Bool.and_true]

theorem sameRow_of_forall₂ {row row' : List Value}
    (h : List.Forall₂ (fun v w => v.same w = true) row row') : sameRow row row' = true := by
  induction h with
  | nil => rfl
  | cons hv _ ih => rw [sameRow, hv, ih, Bool.and_true]

theorem sameRows_of_forall₂ {rows rows' : List (List Value)}
    (h : List.Forall₂ (List.Forall₂ fun v w => v.same w = true) rows rows') :
    sameRows rows rows' = true := by
  induction h with
  | nil => rfl
  | cons hrow _ ih => rw [sameRows, sameRow_of_forall₂ hrow, ih, Bool.and_true]

theorem isOmitted_of_same (h : a.same b = true) : a.isOmitted = b.isOmitted := by
  rw [Expr.same.eq_def] at h
  split at h
  case h_5 v w => cases v <;> cases w <;> first | rfl | cases h
  case h_8 => cases h
  all_goals rfl

theorem any_isOmitted_of_same (h : SameArgs args args') :
    args.any isOmitted = args'.any isOmitted := by
  induction h with
  | nil => rfl
  | cons harg _ ih => rw [List.any_cons, List.any_cons, isOmitted_of_same harg, ih]

/-- A sole omitted argument equals nothing else. -/
theorem SameArgs.eq_omitted (h : SameArgs [.literal .empty] args) : args = [.literal .empty] := by
  cases h with
  | cons harg hrest =>
    cases hrest
    rw [Expr.eq_omitted (isOmitted_of_same harg).symm]

end Recalc.Expr
