/-
Recalc/Proofs/Eval/Nearest.lean

Searching sorted keys.  A key stands before what is looked for, equals it or stands behind it;
blanks and keys of other kinds stand nowhere and may lie anywhere between the others.  If
those that stand somewhere come in order, the search finds the first equal key, else the last
key before, at its place among all keys:

    position .atMost tolerance lookup keys = (places .eq).head?.or (places .lt).getLast?

(`position_of_sorted`), and likewise from the other side for keys that descend.

Design.  The walk gives up at the first key behind what is looked for.  That loses nothing as
long as no key further on equals it or stands before it (`nearest_eq`), and keys in order have
no such key.
-/
import Recalc.Eval.Lookup
import Mathlib.Data.List.Basic

namespace Recalc.Lookup

variable {tolerance : Float} {lookup key : Value} {before : Ordering}

/-- How a key stands to what is looked for; a blank and a key of another kind stand nowhere. -/
def standing? (tolerance : Float) (lookup key : Value) : Option Ordering :=
  if key.isEmpty then none else key.compare? tolerance lookup

/-- How the keys stand that stand somewhere, from the first to the last. -/
def standings (tolerance : Float) (lookup : Value) (keys : List Value) : List Ordering :=
  keys.filterMap (standing? tolerance lookup)

/-- The keys before what is looked for come first, then its equals, then those behind it. -/
def Ascending (tolerance : Float) (lookup : Value) (keys : List Value) : Prop :=
  (standings tolerance lookup keys).Pairwise fun o p => (compare o p).isLE = true

/-- The keys behind what is looked for come first, then its equals, then those before it. -/
def Descending (tolerance : Float) (lookup : Value) (keys : List Value) : Prop :=
  (standings tolerance lookup keys).Pairwise fun o p => (compare o p).isGE = true

/-- The places of the keys that stand so, among all keys. -/
def places (tolerance : Float) (lookup : Value) (o : Ordering) (keys : List Value) : List Nat :=
  keys.findIdxs fun key => standing? tolerance lookup key == some o

/-! ### The walk -/

theorem standing?_eq_some {o : Ordering} (h : standing? tolerance lookup key = some o) :
    key.isEmpty = false ∧ key.compare? tolerance lookup = some o := by
  unfold standing? at h
  split at h
  · cases h
  · next hblank => exact ⟨Bool.eq_false_iff.mpr hblank, h⟩

/-- A key that stands nowhere is passed over. -/
theorem nearest_cons_none (h : standing? tolerance lookup key = none) (best : Option Nat) (i : Nat)
    (rest : List Value) :
    nearest before tolerance lookup best i (key :: rest) =
      nearest before tolerance lookup best (i + 1) rest := by
  rw [nearest]
  unfold standing? at h
  split at h
  · next hblank => rw [if_pos hblank]
  · next hblank => rw [if_neg hblank, h]

/-- The walk ends at an equal key. -/
theorem nearest_cons_eq (h : standing? tolerance lookup key = some .eq) (best : Option Nat) (i : Nat)
    (rest : List Value) :
    nearest before tolerance lookup best i (key :: rest) = some i := by
  obtain ⟨hfilled, horder⟩ := standing?_eq_some h
  rw [nearest, hfilled, horder]
  rfl

/-- A key on the right side is kept in mind, and at any other the walk ends. -/
theorem nearest_cons_ne {o : Ordering} (h : standing? tolerance lookup key = some o) (ho : o ≠ .eq)
    (best : Option Nat) (i : Nat) (rest : List Value) :
    nearest before tolerance lookup best i (key :: rest) =
      if o = before then nearest before tolerance lookup (some i) (i + 1) rest else best := by
  obtain ⟨hfilled, horder⟩ := standing?_eq_some h
  rw [nearest, hfilled, horder]
  cases o with
  | eq => exact absurd rfl ho
  | lt => simp only [Bool.false_eq_true, if_false, beq_iff_eq]
  | gt => simp only [Bool.false_eq_true, if_false, beq_iff_eq]

/-! ### Keys in order -/

/-- Behind a key on the far side, the keys stay on that side. -/
def Turns (before : Ordering) (os : List Ordering) : Prop :=
  os.Pairwise fun o p => o ≠ .eq → o ≠ before → p = o

theorem Ascending.turns {keys : List Value} (h : Ascending tolerance lookup keys) :
    Turns .lt (standings tolerance lookup keys) := by
  refine List.Pairwise.imp ?_ h
  intro o p hle heq hlt
  cases o with
  | lt => exact absurd rfl hlt
  | eq => exact absurd rfl heq
  | gt =>
    cases p with
    | lt => cases hle
    | eq => cases hle
    | gt => rfl

theorem Descending.turns {keys : List Value} (h : Descending tolerance lookup keys) :
    Turns .gt (standings tolerance lookup keys) := by
  refine List.Pairwise.imp ?_ h
  intro o p hge heq hgt
  cases o with
  | lt =>
    cases p with
    | lt => rfl
    | eq => cases hge
    | gt => cases hge
  | eq => exact absurd rfl heq
  | gt => exact absurd rfl hgt

/-- A standing that no key has is found nowhere. -/
theorem findIdxs_eq_nil {keys : List Value} {o : Ordering}
    (h : ∀ p ∈ standings tolerance lookup keys, p ≠ o) (i : Nat) :
    keys.findIdxs (fun key => standing? tolerance lookup key == some o) i = [] := by
  rw [List.findIdxs_eq_nil_iff]
  intro key hkey
  rw [beq_eq_false_iff_ne]
  intro heq
  exact h o (List.mem_filterMap.mpr ⟨key, hkey, heq⟩) rfl

/-- **The walk finds the first equal key, else the last one before**, else what it had. -/
theorem nearest_eq {keys : List Value} (h : Turns before (standings tolerance lookup keys))
    (best : Option Nat) (i : Nat) :
    nearest before tolerance lookup best i keys =
      (keys.findIdxs (fun key => standing? tolerance lookup key == some .eq) i).head?.or
        ((keys.findIdxs (fun key => standing? tolerance lookup key == some before) i).getLast?.or
          best) := by
  induction keys generalizing best i with
  | nil => rfl
  | cons key rest ih =>
    cases hkey : standing? tolerance lookup key with
    | none =>
      rw [Turns, standings, List.filterMap_cons_none hkey] at h
      rw [nearest_cons_none hkey, ih h]
      simp [hkey]
    | some o =>
      rw [Turns, standings, List.filterMap_cons_some hkey, List.pairwise_cons] at h
      obtain ⟨hside, hrest⟩ := h
      by_cases heq : o = .eq
      · subst heq
        rw [nearest_cons_eq hkey]
        simp [hkey]
      · rw [nearest_cons_ne hkey heq]
        by_cases hbefore : o = before
        · subst hbefore
          rw [if_pos rfl, ih hrest]
          -- the last of the places that follow, if there is one, is better than this one
          simp [hkey, heq, List.getLast?_cons]
        · -- all that follow stand on the far side, too, so none of them is an answer
          have hfar {p : Ordering} (hp : p ≠ o) :
              rest.findIdxs (fun key => standing? tolerance lookup key == some p) (i + 1) = [] := by
            apply findIdxs_eq_nil
            intro q hq
            rw [hside q hq heq hbefore]
            exact hp.symm
          rw [if_neg hbefore]
          simp [hkey, heq, hbefore, hfar (Ne.symm heq), hfar (Ne.symm hbefore)]

/-- **A search among sorted keys finds the first equal key, else the nearest one**: the last key
before what is looked for if keys ascend, and the last key behind it if they descend.  Blanks and
keys of other kinds may lie anywhere between. -/
theorem position_of_sorted (tolerance : Float) (lookup : Value) (keys : List Value) :
    (Ascending tolerance lookup keys → position .atMost tolerance lookup keys =
      (places tolerance lookup .eq keys).head?.or (places tolerance lookup .lt keys).getLast?) ∧
    (Descending tolerance lookup keys → position .atLeast tolerance lookup keys =
      (places tolerance lookup .eq keys).head?.or (places tolerance lookup .gt keys).getLast?) := by
  constructor
  · intro h
    show nearest .lt tolerance lookup none 0 keys = _
    rw [nearest_eq h.turns, Option.or_none]
    rfl
  · intro h
    show nearest .gt tolerance lookup none 0 keys = _
    rw [nearest_eq h.turns, Option.or_none]
    rfl

/-- Keys with a blank in front, and a text and a blank between them. -/
def gappedKeys : List Value :=
  [.empty, .number 1.0, .text "x", .number 3.0, .empty, .number 5.0]

theorem position_of_sorted_gapped :
    Ascending 0.0 (.number 4.0) gappedKeys ∧ position .atMost 0.0 (.number 4.0) gappedKeys = some 3 ∧
    Descending 0.0 (.number 4.0) gappedKeys.reverse ∧
    position .atLeast 0.0 (.number 4.0) gappedKeys.reverse = some 0 := by
  have hup : standings 0.0 (.number 4.0) gappedKeys = [.lt, .lt, .gt] := by decide +kernel
  have hdown : standings 0.0 (.number 4.0) gappedKeys.reverse = [.gt, .lt, .lt] := by decide +kernel
  have hascending : Ascending 0.0 (.number 4.0) gappedKeys := by
    rw [Ascending, hup]
    decide
  have hdescending : Descending 0.0 (.number 4.0) gappedKeys.reverse := by
    rw [Descending, hdown]
    decide
  refine ⟨hascending, ?_, hdescending, ?_⟩
  · rw [(position_of_sorted 0.0 (.number 4.0) gappedKeys).1 hascending]
    decide +kernel
  · rw [(position_of_sorted 0.0 (.number 4.0) gappedKeys.reverse).2 hdescending]
    decide +kernel

end Recalc.Lookup
