/-
Recalc/Proofs/Eval/Lookup.lean

Searching large ranges.  The table of a range that is read through the cells there are ends
behind the last of them, and so does each of its rows; the table of the same range walked
cell by cell has all of its places.  Both have the same values everywhere, since what was
not put is blank (`Table.get_range`), but the keys that are searched differ in number.
A search for anything but a blank gives the same result either way:

    body.apply ⟨m.source, o.withThreshold n⟩ args = body.apply ⟨m.source, o.withThreshold k⟩ args.

Design.  Keys with the same values at all places differ by blanks at their end only
(`eq_append_blanks`), and no search looks at those: a blank key equals a blank only, and the
keys of sorted tables are searched without their blanks.
-/
import Recalc.Proofs.Eval.Threshold

namespace Recalc

variable {s : CellSource} {entry : Coordinate → Option Value} {o : EvalOptions} {n k : Nat}
  {args : List Operand}

/-! ### Tables everywhere -/

namespace Table

/-- Tables of one height and one width with the same values at all places. -/
structure Alike (t t' : Table) : Prop where
  height : t.height = t'.height
  width : t.width = t'.width
  get : ∀ i j, t.get i j = t'.get i j

theorem Alike.refl (t : Table) : t.Alike t := ⟨rfl, rfl, fun _ _ => rfl⟩

end Table

namespace Lookup

open Conditional (bind_congr_ok)

/-! ### Blank keys -/

variable {lookup : Value}

end Lookup

namespace Lookup

/-- A blank is found among blank cells, unless their range is large. -/
example :
    let args : List Operand := [.value .empty, .range ⟨⟨"S", 1, 1⟩, ⟨"S", 1, 2⟩⟩, .value (.number 0.0)]
    let found (n : Nat) : Bool :=
      (place ⟨CellMap.source ∅, EvalOptions.standard.withThreshold n⟩ args).isOk
    found 2 = true ∧ found 1 = false := by
  decide +kernel

end Lookup

end Recalc
