/-
Recalc/Proofs/Graph/LongestChain.lean

Depths as lengths of lists.  The unit of a cell is the cycle it is on, or the cell alone; a
unit is joined to another if an edge leads from the one into the other.  The depth of a
cell outside cycles is the length of the longest list of distinct units, each joined to the
next, that ends in the cell; without cycles, that of the longest path to it
(`exactDepths_build`).

Design.  A chain of units is told by its cells in `UnitChain` and by its units in `ChainTo`.
The two have the same lengths for any naming of the units, that is for any map that is equal
on two cells exactly if each reaches the other (`unitChain_iff`).  Units are named by
`unitOf` in general, and by the cells themselves if there is no cycle.
-/
import Recalc.Proofs.Graph.Depth
import Mathlib.Data.List.Chain

open Relation

namespace Recalc

/-- Distinct entries, each related to the next one, of which `t` is the last. -/
structure ChainTo {τ : Type} (r : τ → τ → Prop) (t : τ) (l : List τ) : Prop where
  distinct : l.Nodup
  joined : l.IsChain r
  last : l.getLast? = some t

namespace Graph

/-- The unit of a cell: the cycle it is on, or the cell alone. -/
def unitOf (g : Graph) (v : Nat) : Step :=
  match g.cycleOf? v with
  | some k => .cycle k
  | none => .node v

/-- An edge leads from a cell of the one unit to a cell of the other. -/
def Joined (g : Graph) (s t : Step) : Prop :=
  ∃ u v, g.Adj u v ∧ g.unitOf u = s ∧ g.unitOf v = t

/-- What the depths of a graph owe its edges. -/
structure ExactDepths (g : Graph) : Prop where
  /-- The cells on cycles, and no others, have no depth. -/
  none_iff : ∀ v n, g.node? v = some n → (n.depth = none ↔ (g.cycleOf? v).isSome = true)
  /-- A depth is the number of units before the cell in the longest chain to it. -/
  longest : ∀ v n d, g.node? v = some n → n.depth = some d →
    IsGreatest {k | ∃ units, units.length = k + 1 ∧ ChainTo g.Joined (.node v) units} d
  /-- Without cycles it is the number of edges of the longest path. -/
  acyclic : g.isAcyclic = true → ∀ v n, g.node? v = some n → ∃ d, n.depth = some d ∧
    IsGreatest {k | ∃ path, path.length = k + 1 ∧ ChainTo g.Adj v path} d

end Graph

/-! ### Chains of cells and of units -/

section Units

variable {α τ : Type} {r : α → α → Prop} {unit : α → τ} {k : Nat} {v : α}
  (hunit : ∀ u v, unit u = unit v ↔ ReflTransGen r u v ∧ ReflTransGen r v u)
include hunit

/-- A chain of cells passes through distinct units, which all lead to its last one. -/
theorem UnitChain.exists_units (h : UnitChain r k v) :
    ∃ l : List τ, l.length = k + 1 ∧ ChainTo (Relation.Map r unit unit) (unit v) l ∧
      ∀ s ∈ l, ∃ x, unit x = s ∧ ReflTransGen r x v := by
  induction h with
  | start v =>
    refine ⟨[unit v], rfl, ⟨List.nodup_singleton _, .singleton _, rfl⟩, fun s hs => ?_⟩
    exact ⟨v, (List.mem_singleton.mp hs).symm, .refl⟩
  | @next k u w v _ hadj hapart hwv hvw ih =>
    obtain ⟨l, hlength, hchain, hlead⟩ := ih
    have hwunit : unit w = unit v := (hunit w v).mpr ⟨hwv, hvw⟩
    -- a unit from which `u` is reached is not that of `v`, from which it is not
    have hnew : unit v ∉ l := by
      intro hmem
      obtain ⟨x, hx, hxu⟩ := hlead _ hmem
      have hvx : ReflTransGen r v x := ((hunit x v).mp hx).2
      exact hapart (hwv.trans (hvx.trans hxu))
    refine ⟨l ++ [unit v], by rw [List.length_append, hlength]; rfl, ⟨?_, ?_, ?_⟩, fun s hs => ?_⟩
    · exact List.nodup_append.mpr ⟨hchain.distinct, List.nodup_singleton _,
        fun s hs t ht heq => hnew (List.mem_singleton.mp ht ▸ heq ▸ hs)⟩
    · refine hchain.joined.append (.singleton _) fun s hs t ht => ?_
      rw [hchain.last] at hs
      obtain rfl := Option.some.inj hs
      obtain rfl := Option.some.inj ht
      exact ⟨u, w, hadj, rfl, hwunit⟩
    · exact List.getLast?_concat
    · rcases List.mem_append.mp hs with hold | hlast
      · obtain ⟨x, hx, hxu⟩ := hlead s hold
        exact ⟨x, hx, hxu.trans (.head hadj hwv)⟩
      · exact ⟨v, (List.mem_singleton.mp hlast).symm, .refl⟩

/-- Distinct units that are joined one to the next are passed by a chain of cells. -/
theorem UnitChain.of_chainTo {l : List τ} (hlength : l.length = k + 1)
    (h : ChainTo (Relation.Map r unit unit) (unit v) l) : UnitChain r k v := by
  induction k generalizing l v with
  | zero => exact .start v
  | succ k ih =>
    obtain ⟨init, rfl⟩ := List.getLast?_eq_some_iff.mp h.last
    have hinit : init.length = k + 1 := by simpa using hlength
    have hs : init.getLast? = some (init.getLast (List.ne_nil_of_length_eq_add_one hinit)) :=
      List.getLast?_eq_some_getLast _
    obtain ⟨hjoined, -, hstep⟩ := List.isChain_append.mp h.joined
    obtain ⟨hdistinct, -, hdisjoint⟩ := List.nodup_append.mp h.distinct
    obtain ⟨u, w, hadj, hu, hw⟩ := hstep _ hs (unit v) rfl
    rw [← hu] at hs
    obtain ⟨hwv, hvw⟩ := (hunit w v).mp hw
    refine .next (ih hinit ⟨hdistinct, hjoined, hs⟩) hadj (fun hback => ?_) hwv hvw
    -- a way back would make the last two units one
    have heq : unit u = unit w := (hunit u w).mpr ⟨.single hadj, hback⟩
    exact hdisjoint _ (List.mem_of_getLast? hs) (unit v) (List.mem_singleton_self _) (heq.trans hw)

/-- **Chains of cells and of units have the same lengths.** -/
theorem unitChain_iff : UnitChain r k v ↔
    ∃ l : List τ, l.length = k + 1 ∧ ChainTo (Relation.Map r unit unit) (unit v) l := by
  constructor
  · intro h
    obtain ⟨l, hlength, hchain, -⟩ := h.exists_units hunit
    exact ⟨l, hlength, hchain⟩
  · rintro ⟨l, hlength, hchain⟩
    exact .of_chainTo hunit hlength hchain

end Units

/-! ### Depths -/

namespace GraphBuilder

variable {b : GraphBuilder} {u v : Nat}

/-- **Cells have one unit exactly if each reaches the other.** -/
theorem unitOf_eq_iff (h : b.Indexed) (u v : Nat) : b.build.unitOf u = b.build.unitOf v ↔
    ReflTransGen b.build.Adj u v ∧ ReflTransGen b.build.Adj v u := by
  by_cases heq : u = v
  · subst heq
    exact iff_of_true rfl ⟨.refl, .refl⟩
  · rw [← same_cycle_iff h heq, Graph.unitOf, Graph.unitOf]
    cases b.build.cycleOf? u <;> cases b.build.cycleOf? v <;> simp [heq, eq_comm]

/-- Without cycles no two cells reach each other. -/
theorem eq_iff_of_acyclic (hacyclic : ∀ x, ¬ TransGen b.build.Adj x x) (u v : Nat) :
    u = v ↔ ReflTransGen b.build.Adj u v ∧ ReflTransGen b.build.Adj v u := by
  constructor
  · rintro rfl
    exact ⟨.refl, .refl⟩
  · rintro ⟨huv, hvu⟩
    by_contra hne
    rcases reflTransGen_iff_eq_or_transGen.mp huv with heq | hpath
    · exact hne heq.symm
    · exact hacyclic u (hpath.trans_left hvu)

/-- **Depths are the lengths of longest chains of units**, whatever cells the graph was built
from. -/
theorem exactDepths_build {cells : List GraphCell} (h : cells.foldlM add empty = .ok b) :
    b.build.ExactDepths := by
  have hidx := (indexed_of_foldlM indexed_empty h).1
  refine ⟨fun v n hn => ?_, fun v n d hn hd => ?_, fun hacyclic v n hn => ?_⟩
  · rw [isSome_cycleOf?_build_iff hidx]
    rcases depth_build hidx hn with ⟨hcycle, hnone⟩ | ⟨hcycle, d, hsome, -⟩
    · exact iff_of_true hnone hcycle
    · exact iff_of_false (by rw [hsome]; exact Option.some_ne_none d) hcycle
  · rcases depth_build hidx hn with ⟨-, hnone⟩ | ⟨hcycle, d', hsome, hgreatest⟩
    · rw [hnone] at hd
      cases hd
    · obtain rfl := Option.some.inj (hsome.symm.trans hd)
      have halone : b.build.unitOf v = .node v := by
        rw [← isSome_cycleOf?_build_iff hidx, Bool.not_eq_true, Option.isSome_eq_false_iff,
          Option.isNone_iff_eq_none] at hcycle
        rw [Graph.unitOf, hcycle]
      simp only [unitChain_iff (unitOf_eq_iff hidx), halone] at hgreatest
      exact hgreatest
  · have hnone := (isAcyclic_build_iff hidx).mp hacyclic
    rcases depth_build hidx hn with ⟨hcycle, -⟩ | ⟨-, d, hsome, hgreatest⟩
    · exact absurd hcycle (hnone v)
    · refine ⟨d, hsome, ?_⟩
      have hpaths {k : Nat} : UnitChain b.build.Adj k v ↔ ∃ path : List Nat,
          path.length = k + 1 ∧ ChainTo (Relation.Map b.build.Adj id id) (id v) path :=
        unitChain_iff (eq_iff_of_acyclic hnone)
      simp only [hpaths, Relation.map_id_id, id] at hgreatest
      exact hgreatest

theorem exactDepths_loopCells :
    ∃ b, loopCells.foldlM add empty = .ok b ∧ b.build.ExactDepths := by
  obtain ⟨b, hb⟩ := exists_foldlM_add_iff.mpr
    (show (loopCells.map GraphCell.coordinate).Nodup by decide)
  exact ⟨b, hb, exactDepths_build hb⟩

end GraphBuilder

end Recalc
