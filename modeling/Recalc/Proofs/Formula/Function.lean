/-
Recalc/Proofs/Formula/Function.lean

Functions by name.  A registry finds a function under its own name, whatever the case of
its letters, so what is found in the registry of all workbooks is one of their functions:

    builtin.find? name = some f → f ∈ builtins ∧ upperAscii f.name = upperAscii name.

Facts about the functions found are then facts about a list.
-/
import Recalc.Formula.Function

namespace Recalc

namespace Registry

theorem find?_register (r : Registry) (f : FunctionSpec) (name : String) :
    (r.register f).find? name =
      if Text.upperAscii f.name = Text.upperAscii name then some f else r.find? name := by
  show (r.functions.insert (Text.upperAscii f.name) f)[Text.upperAscii name]? = _
  simp only [Std.TreeMap.getElem?_insert, Std.LawfulEqCmp.compare_eq_iff_eq]
  rfl

theorem mem_of_find?_foldl {fs : List FunctionSpec} {name : String} {f : FunctionSpec}
    {r : Registry} (h : (fs.foldl register r).find? name = some f) :
    f ∈ fs ∧ Text.upperAscii f.name = Text.upperAscii name ∨ r.find? name = some f := by
  induction fs generalizing r with
  | nil => exact .inr h
  | cons g gs ih =>
    rcases ih h with ⟨hmem, hname⟩ | hfind
    · exact .inl ⟨List.mem_cons_of_mem _ hmem, hname⟩
    · rw [find?_register] at hfind
      split at hfind
      case isTrue hname =>
        obtain rfl := Option.some.inj hfind
        exact .inl ⟨List.mem_cons_self, hname⟩
      case isFalse => exact .inr hfind

/-- **What is found is a function of that name.** -/
theorem mem_of_find?_builtin {name : String} {f : FunctionSpec}
    (h : builtin.find? name = some f) :
    f ∈ FunctionSpec.builtins ∧ Text.upperAscii f.name = Text.upperAscii name := by
  refine (mem_of_find?_foldl h).resolve_right fun hempty => ?_
  have hnone : (∅ : Std.TreeMap String FunctionSpec)[Text.upperAscii name]? = none :=
    Std.TreeMap.getElem?_emptyc
  exact absurd (hnone.symm.trans hempty) (by simp)

end Registry

namespace FunctionSpec

/-- A call that is fine has no more arguments than the function takes. -/
theorem le_of_arityFault? {f : FunctionSpec} {n most : Nat} {omitted : Bool}
    (hmost : f.maxArgs = some most) (h : (f.arityFault? n omitted).isSome = false) :
    n ≤ most := by
  rw [arityFault?] at h
  split at h
  case isTrue => exact absurd h (by simp)
  case isFalse htakes =>
    rw [takes, hmost] at htakes
    simp at htakes
    exact htakes.2

end FunctionSpec

end Recalc
