/-
Recalc/Proofs/Graph/DisjointSets.lean

Partitions by their representatives.  `s.Represents root` says that following parents
from `x` ends at `root x`, and that a representative knows the size of its class:

    (s.find x).1 = root x,   (s.find x).2.Represents root,
    root' a = root' b ↔ a and b were in one class, or are in the two that were united.

So the classes of united pairs are the classes of the equivalence that the pairs generate
(`classes_ofPairs`).

Design.  Sizes grow strictly along parents, and no size is larger than the whole, so the
steps allowed suffice.  Halving the way changes parents but neither `root` nor sizes, so
one `root` serves before and after it.
-/
import Recalc.Graph.DisjointSets
import Mathlib.Data.List.Basic
import Mathlib.Logic.Relation

open Relation

namespace Recalc.DisjointSets

variable {s : DisjointSets} {root : Nat → Nat} {x y n : Nat}

/-- The representatives of the partition, and the sizes of its classes. -/
structure Represents (s : DisjointSets) (root : Nat → Nat) : Prop where
  size_size : s.size.size = s.parent.size
  root_lt : ∀ x < s.parent.size, root x < s.parent.size
  root_parent : ∀ x, root (s.parentOf x) = root x
  parent_root : ∀ x, s.parentOf (root x) = root x
  root_of_fixed : ∀ x, s.parentOf x = x → root x = x
  /-- Sizes grow along the parents. -/
  grows : ∀ x, s.parentOf x ≠ x → s.sizeAt x < s.sizeAt (s.parentOf x)
  le_root : ∀ x, s.sizeAt x ≤ s.sizeAt (root x)
  pos : ∀ x < s.parent.size, 0 < s.sizeAt x
  /-- The size kept at a representative is the size of its class. -/
  card : ∀ x < s.parent.size,
    s.sizeAt (root x) = (List.range s.parent.size).countP fun y => root y = root x

theorem parentOf_of_size_le (h : s.parent.size ≤ x) : s.parentOf x = x := by
  rw [parentOf, Array.getElem?_eq_none h, Option.getD_none]

/-- A number with another parent is one of the partition. -/
theorem lt_of_parentOf_ne (hx : s.parentOf x ≠ x) : x < s.parent.size :=
  Nat.lt_of_not_le fun hle => hx (parentOf_of_size_le hle)

/-! ### Singletons -/

theorem parentOf_singletons (n x : Nat) : (singletons n).parentOf x = x := by
  by_cases hx : x < n
  · simp [parentOf, singletons, hx]
  · exact parentOf_of_size_le (by simpa [singletons] using hx)

theorem sizeAt_singletons (hx : x < n) : (singletons n).sizeAt x = 1 := by
  simp [sizeAt, singletons, hx]

theorem size_parent_singletons (n : Nat) : (singletons n).parent.size = n := by
  simp [singletons]

theorem countP_range_eq (hx : x < n) : (List.range n).countP (fun y => y = x) = 1 := by
  have hcount : (List.range n).countP (fun y => y = x) = (List.range n).count x := by
    rw [List.count]
    exact List.countP_congr fun y _ => by simp
  rw [hcount, List.count_range, if_pos hx]

theorem represents_singletons (n : Nat) : (singletons n).Represents id where
  size_size := by simp [singletons]
  root_lt x hx := hx
  root_parent x := parentOf_singletons n x
  parent_root x := parentOf_singletons n x
  root_of_fixed x _ := rfl
  grows x hx := absurd (parentOf_singletons n x) hx
  le_root x := Nat.le_refl _
  pos x hx := by
    rw [size_parent_singletons] at hx
    rw [sizeAt_singletons hx]
    exact Nat.one_pos
  card x hx := by
    rw [size_parent_singletons] at hx ⊢
    rw [id, sizeAt_singletons hx, ← countP_range_eq hx]
    rfl

/-! ### Looking for a representative -/

@[simp] theorem size_parent_hang (s : DisjointSets) (x top : Nat) :
    (s.hang x top).parent.size = s.parent.size := by
  simp [hang]

@[simp] theorem sizeAt_hang (s : DisjointSets) (x top y : Nat) :
    (s.hang x top).sizeAt y = s.sizeAt y := rfl

theorem parentOf_hang_self (hx : x < s.parent.size) (top : Nat) :
    (s.hang x top).parentOf x = top := by
  simp [parentOf, hang, hx]

theorem parentOf_hang_of_ne (hne : y ≠ x) (top : Nat) :
    (s.hang x top).parentOf y = s.parentOf y := by
  simp [parentOf, hang, Ne.symm hne]

namespace Represents

variable (h : s.Represents root)

include h

theorem root_root (x : Nat) : root (root x) = root x := h.root_of_fixed _ (h.parent_root x)

theorem fixed_of_root (hx : root x = x) : s.parentOf x = x := by
  have hfixed := h.parent_root x
  rwa [hx] at hfixed

theorem sizeAt_le_parent (x : Nat) : s.sizeAt x ≤ s.sizeAt (s.parentOf x) := by
  by_cases hx : s.parentOf x = x
  · exact Nat.le_of_eq (by rw [hx])
  · exact Nat.le_of_lt (h.grows x hx)

/-- The grandparent of a number that is no representative is larger. -/
theorem sizeAt_lt_grandparent (hx : s.parentOf x ≠ x) :
    s.sizeAt x < s.sizeAt (s.parentOf (s.parentOf x)) :=
  Nat.lt_of_lt_of_le (h.grows x hx) (h.sizeAt_le_parent _)

/-- Halving the way keeps the representatives. -/
theorem hang (hx : s.parentOf x ≠ x) :
    (s.hang x (s.parentOf (s.parentOf x))).Represents root := by
  have hlt : x < s.parent.size := lt_of_parentOf_ne hx
  have hself : (s.hang x (s.parentOf (s.parentOf x))).parentOf x = s.parentOf (s.parentOf x) :=
    parentOf_hang_self hlt _
  have hgrows := h.sizeAt_lt_grandparent hx
  exact {
    size_size := by rw [size_parent_hang]; exact h.size_size
    root_lt := by rw [size_parent_hang]; exact h.root_lt
    root_parent := fun y => by
      by_cases hyx : y = x
      · rw [hyx, hself, h.root_parent, h.root_parent]
      · rw [parentOf_hang_of_ne hyx, h.root_parent]
    parent_root := fun y => by
      have hne : root y ≠ x := fun heq => hx (heq ▸ h.parent_root y)
      rw [parentOf_hang_of_ne hne, h.parent_root]
    root_of_fixed := fun y hy => by
      by_cases hyx : y = x
      · -- the number hung anew would be its own grandparent
        rw [hyx, hself] at hy
        rw [hy] at hgrows
        exact absurd hgrows (Nat.lt_irrefl _)
      · rw [parentOf_hang_of_ne hyx] at hy
        exact h.root_of_fixed y hy
    grows := fun y hy => by
      by_cases hyx : y = x
      · rw [hyx, hself, sizeAt_hang, sizeAt_hang]
        exact hgrows
      · rw [parentOf_hang_of_ne hyx] at hy ⊢
        exact h.grows y hy
    le_root := h.le_root
    pos := by rw [size_parent_hang]; exact h.pos
    card := by rw [size_parent_hang]; exact h.card }

/-- No class is larger than the whole. -/
theorem sizeAt_root_le (hx : x < s.parent.size) : s.sizeAt (root x) ≤ s.parent.size := by
  have hle := List.countP_le_length (p := fun y => root y = root x)
    (l := List.range s.parent.size)
  rw [List.length_range] at hle
  rw [h.card x hx]
  exact hle

theorem root_grandparent (x : Nat) : root (s.parentOf (s.parentOf x)) = root x := by
  rw [h.root_parent, h.root_parent]

/-- If the steps allowed suffice from a number, one less suffices from its grandparent. -/
theorem sizeAt_root_lt_hang {fuel : Nat} (hx : s.parentOf x ≠ x)
    (hfuel : s.sizeAt (root x) < s.sizeAt x + (fuel + 1)) :
    (s.hang x (s.parentOf (s.parentOf x))).sizeAt (root (s.parentOf (s.parentOf x))) <
      (s.hang x (s.parentOf (s.parentOf x))).sizeAt (s.parentOf (s.parentOf x)) + fuel := by
  have hgrows := h.sizeAt_lt_grandparent hx
  rw [h.root_grandparent, sizeAt_hang, sizeAt_hang]
  omega

end Represents

theorem findWithin_spec {fuel : Nat} (h : s.Represents root)
    (hfuel : s.sizeAt (root x) < s.sizeAt x + fuel) :
    (findWithin fuel s x).1 = root x ∧ (findWithin fuel s x).2.Represents root ∧
      (findWithin fuel s x).2.parent.size = s.parent.size := by
  induction fuel generalizing s x with
  | zero => exact absurd hfuel (Nat.not_lt.mpr (h.le_root x))
  | succ fuel ih =>
    rw [findWithin]
    split
    case isTrue hfixed => exact ⟨(h.root_of_fixed x hfixed).symm, h, rfl⟩
    case isFalse hx =>
      obtain ⟨hfound, hrep, hsize⟩ := ih (h.hang hx) (h.sizeAt_root_lt_hang hx hfuel)
      exact ⟨hfound.trans (h.root_grandparent x), hrep, hsize.trans (size_parent_hang _ _ _)⟩

/-- A search that is allowed enough steps is not changed by more of them. -/
theorem findWithin_of_le {fuel more : Nat} (h : s.Represents root)
    (hfuel : s.sizeAt (root x) < s.sizeAt x + fuel) (hle : fuel ≤ more) :
    findWithin more s x = findWithin fuel s x := by
  induction fuel generalizing s x more with
  | zero => exact absurd hfuel (Nat.not_lt.mpr (h.le_root x))
  | succ fuel ih =>
    cases more with
    | zero => exact absurd hle (Nat.not_succ_le_zero _)
    | succ more =>
      rw [findWithin, findWithin]
      split
      case isTrue => rfl
      case isFalse hx =>
        exact ih (h.hang hx) (h.sizeAt_root_lt_hang hx hfuel) (Nat.le_of_succ_le_succ hle)

/-- As many steps as there are numbers suffice. -/
theorem Represents.sizeAt_root_lt (h : s.Represents root) (hx : x < s.parent.size) :
    s.sizeAt (root x) < s.sizeAt x + s.parent.size := by
  have hle := h.sizeAt_root_le hx
  have hpos := h.pos x hx
  omega

/-- **Looking finds the representative** and keeps all of them. -/
theorem Represents.find (h : s.Represents root) (x : Nat) :
    (s.find x).1 = root x ∧ (s.find x).2.Represents root ∧
      (s.find x).2.parent.size = s.parent.size := by
  by_cases hx : x < s.parent.size
  · exact findWithin_spec h (h.sizeAt_root_lt hx)
  · -- beyond the last number nothing is looked up
    have hfixed : s.parentOf x = x := parentOf_of_size_le (Nat.le_of_not_lt hx)
    have hfind : s.find x = (x, s) := by
      rw [DisjointSets.find]
      cases s.parent.size with
      | zero => rfl
      | succ fuel => rw [findWithin, if_pos hfixed]
    rw [hfind]
    exact ⟨(h.root_of_fixed x hfixed).symm, h, rfl⟩

/-! ### Uniting -/

theorem parentOf_link_below {top below : Nat} (hbelow : below < s.parent.size) :
    (s.link top below).parentOf below = top := by
  simp [parentOf, link, DisjointSets.hang, hbelow]

theorem parentOf_link_of_ne {top below : Nat} (hne : y ≠ below) :
    (s.link top below).parentOf y = s.parentOf y := by
  simp [parentOf, link, DisjointSets.hang, Ne.symm hne]

theorem sizeAt_link_top {top below : Nat} (htop : top < s.size.size) :
    (s.link top below).sizeAt top = s.sizeAt top + s.sizeAt below := by
  simp [sizeAt, link, htop]

theorem sizeAt_link_of_ne {top below : Nat} (hne : y ≠ top) :
    (s.link top below).sizeAt y = s.sizeAt y := by
  simp [sizeAt, link, Ne.symm hne]

theorem size_parent_link (s : DisjointSets) (top below : Nat) :
    (s.link top below).parent.size = s.parent.size := by
  simp [link, DisjointSets.hang]

/-- The representatives once one class is hung under another. -/
def relink (root : Nat → Nat) (top below x : Nat) : Nat := if root x = below then top else root x

section Relink

variable {top below : Nat}

theorem relink_of_eq (hx : root x = below) : relink root top below x = top := if_pos hx

theorem relink_of_ne (hx : root x ≠ below) : relink root top below x = root x := if_neg hx

/-- Numbers are in one class if they were, or if one was in each of the two. -/
theorem relink_eq_relink_iff (a b : Nat) :
    relink root top below a = relink root top below b ↔ root a = root b ∨
      (root a = top ∧ root b = below) ∨ (root a = below ∧ root b = top) := by
  by_cases ha : root a = below
  · by_cases hb : root b = below
    · simp [relink_of_eq ha, relink_of_eq hb, ha, hb]
    · rw [relink_of_eq ha, relink_of_ne hb, ha]
      grind
  · by_cases hb : root b = below
    · rw [relink_of_ne ha, relink_of_eq hb, hb]
      grind
    · simp [relink_of_ne ha, relink_of_ne hb, ha, hb]

/-- The class hung under another one counts there. -/
theorem countP_relink_top (hne : top ≠ below) (l : List Nat) :
    l.countP (fun z => relink root top below z = top) =
      l.countP (fun z => root z = top) + l.countP fun z => root z = below := by
  induction l with
  | nil => rfl
  | cons z l ih =>
    rw [List.countP_cons, List.countP_cons, List.countP_cons, ih]
    by_cases hz : root z = below
    · simp [relink_of_eq hz, hz, Ne.symm hne]
      omega
    · simp [relink_of_ne hz, hz]
      omega

theorem countP_relink_of_ne (htop : y ≠ top) (hbelow : y ≠ below) (l : List Nat) :
    l.countP (fun z => relink root top below z = y) = l.countP fun z => root z = y := by
  refine List.countP_congr fun z _ => ?_
  by_cases hz : root z = below
  · simp [relink_of_eq hz, hz, Ne.symm hbelow, Ne.symm htop]
  · simp [relink_of_ne hz]

theorem relink_of_mem (hne : top ≠ below) (hx : root x = below ∨ root x = top) :
    relink root top below x = top := by
  rcases hx with hx | hx
  · exact relink_of_eq hx
  · rw [relink_of_ne (hx.symm ▸ hne), hx]

/-- Sizes only grow when a class is hung under another. -/
theorem sizeAt_le_link (htop : top < s.size.size) (y : Nat) :
    s.sizeAt y ≤ (s.link top below).sizeAt y := by
  by_cases hy : y = top
  · rw [hy, sizeAt_link_top htop]
    exact Nat.le_add_right _ _
  · exact Nat.le_of_eq (sizeAt_link_of_ne hy).symm

namespace Represents

variable (h : s.Represents root) (htop : root top = top) (hbelow : root below = below)
  (hne : top ≠ below) (hlt : top < s.parent.size) (hlt' : below < s.parent.size)

include h htop hne hlt

theorem grows_link (hlt' : below < s.parent.size) (hy : (s.link top below).parentOf y ≠ y) :
    (s.link top below).sizeAt y < (s.link top below).sizeAt ((s.link top below).parentOf y) := by
  have hbound : top < s.size.size := h.size_size ▸ hlt
  by_cases hyb : y = below
  · rw [hyb, parentOf_link_below hlt', sizeAt_link_top hbound, sizeAt_link_of_ne (Ne.symm hne)]
    have hpos := h.pos top hlt
    omega
  · -- only the upper representative gets another size, and it is its own parent
    rw [parentOf_link_of_ne hyb] at hy ⊢
    have hyt : y ≠ top := by
      rintro rfl
      exact hy (h.fixed_of_root htop)
    rw [sizeAt_link_of_ne hyt]
    exact Nat.lt_of_lt_of_le (h.grows y hy) (sizeAt_le_link hbound _)

theorem sizeAt_le_relink (y : Nat) :
    (s.link top below).sizeAt y ≤ (s.link top below).sizeAt (relink root top below y) := by
  have hbound : top < s.size.size := h.size_size ▸ hlt
  by_cases hyt : y = top
  · exact Nat.le_of_eq (by rw [hyt, relink_of_mem hne (.inr htop)])
  · have hley := h.le_root y
    rw [sizeAt_link_of_ne hyt]
    by_cases hroot : root y = below
    · rw [hroot] at hley
      rw [relink_of_eq hroot, sizeAt_link_top hbound]
      omega
    · rw [relink_of_ne hroot]
      exact Nat.le_trans hley (sizeAt_le_link hbound _)

include hbelow hlt'

/-- The representative of the two classes knows the size of both. -/
theorem card_link (hy : y < s.parent.size) :
    (s.link top below).sizeAt (relink root top below y) = (List.range s.parent.size).countP
      fun z => relink root top below z = relink root top below y := by
  by_cases hin : root y = below ∨ root y = top
  · have htopCard := h.card top hlt
    have hbelowCard := h.card below hlt'
    rw [htop] at htopCard
    rw [hbelow] at hbelowCard
    rw [relink_of_mem hne hin, sizeAt_link_top (h.size_size ▸ hlt), htopCard, hbelowCard,
      countP_relink_top hne]
  · obtain ⟨hyb, hyt⟩ := not_or.mp hin
    rw [relink_of_ne hyb, sizeAt_link_of_ne hyt, h.card y hy, countP_relink_of_ne hyt hyb]

/-- **Hanging one class under another.** -/
theorem link : (s.link top below).Represents (relink root top below) where
  size_size := by
    rw [size_parent_link, ← h.size_size]
    simp [DisjointSets.link]
  root_lt y hy := by
    rw [size_parent_link] at hy ⊢
    by_cases hroot : root y = below
    · rw [relink_of_eq hroot]
      exact hlt
    · rw [relink_of_ne hroot]
      exact h.root_lt y hy
  root_parent y := by
    by_cases hy : y = below
    · rw [hy, parentOf_link_below hlt', relink_of_mem hne (.inr htop), relink_of_eq hbelow]
    · rw [parentOf_link_of_ne hy, relink, relink, h.root_parent]
  parent_root y := by
    by_cases hroot : root y = below
    · rw [relink_of_eq hroot, parentOf_link_of_ne hne, h.fixed_of_root htop]
    · rw [relink_of_ne hroot, parentOf_link_of_ne hroot, h.parent_root]
  root_of_fixed y hy := by
    by_cases hyb : y = below
    · rw [hyb, parentOf_link_below hlt'] at hy
      exact absurd hy hne
    · rw [parentOf_link_of_ne hyb] at hy
      have hfixed := h.root_of_fixed y hy
      rw [relink_of_ne (hfixed.symm ▸ hyb), hfixed]
  grows y hy := h.grows_link htop hne hlt hlt' hy
  le_root y := h.sizeAt_le_relink htop hne hlt y
  pos y hy := by
    rw [size_parent_link] at hy
    exact Nat.lt_of_lt_of_le (h.pos y hy) (sizeAt_le_link (h.size_size ▸ hlt) y)
  card y hy := by
    rw [size_parent_link] at hy ⊢
    exact h.card_link htop hbelow hne hlt hlt' hy

end Represents

end Relink

/-- **Uniting joins the classes of two numbers** and no others. -/
theorem Represents.union (h : s.Represents root) (hx : x < s.parent.size)
    (hy : y < s.parent.size) :
    ∃ root', (s.union x y).Represents root' ∧ (s.union x y).parent.size = s.parent.size ∧
      ∀ a b, root' a = root' b ↔ root a = root b ∨ (root a = root x ∧ root b = root y) ∨
        (root a = root y ∧ root b = root x) := by
  obtain ⟨hfirst, hrep, hsize⟩ := h.find x
  obtain ⟨hsecond, hrep', hsize'⟩ := hrep.find y
  have hlt : root x < ((s.find x).2.find y).2.parent.size := by
    rw [hsize', hsize]
    exact h.root_lt x hx
  have hlt' : root y < ((s.find x).2.find y).2.parent.size := by
    rw [hsize', hsize]
    exact h.root_lt y hy
  rw [DisjointSets.union]
  dsimp only
  rw [hfirst, hsecond]
  split
  case isTrue hsame =>
    refine ⟨root, hrep', hsize'.trans hsize, fun a b => ?_⟩
    rw [hsame]
    constructor
    · exact .inl
    · rintro (hab | ⟨ha, hb⟩ | ⟨ha, hb⟩)
      · exact hab
      · exact ha.trans hb.symm
      · exact ha.trans hb.symm
  case isFalse hne =>
    split
    · refine ⟨_, hrep'.link (h.root_root y) (h.root_root x) (Ne.symm hne) hlt' hlt,
        (size_parent_link _ _ _).trans (hsize'.trans hsize), fun a b => ?_⟩
      rw [relink_eq_relink_iff]
      exact or_congr_right or_comm
    · exact ⟨_, hrep'.link (h.root_root x) (h.root_root y) hne hlt hlt',
        (size_parent_link _ _ _).trans (hsize'.trans hsize), relink_eq_relink_iff⟩

/-! ### Classes of pairs -/

/-- Uniting one more pair adds it to the generated equivalence. -/
theorem eqvGen_append_singleton {pairs : List (Nat × Nat)} {a b : Nat} :
    EqvGen (fun u v => (u, v) ∈ pairs ++ [(x, y)]) a b ↔
      EqvGen (fun u v => (u, v) ∈ pairs) a b ∨
        (EqvGen (fun u v => (u, v) ∈ pairs) a x ∧ EqvGen (fun u v => (u, v) ∈ pairs) b y) ∨
        (EqvGen (fun u v => (u, v) ∈ pairs) a y ∧ EqvGen (fun u v => (u, v) ∈ pairs) b x) := by
  have mono {a b : Nat} (hab : EqvGen (fun u v => (u, v) ∈ pairs) a b) :
      EqvGen (fun u v => (u, v) ∈ pairs ++ [(x, y)]) a b :=
    hab.mono fun u v huv => List.mem_append_left _ huv
  have hxy : EqvGen (fun u v => (u, v) ∈ pairs ++ [(x, y)]) x y :=
    .rel _ _ (List.mem_append_right _ List.mem_cons_self)
  constructor
  · intro hab
    induction hab with
    | rel u v huv =>
      rcases List.mem_append.mp huv with huv | huv
      · exact .inl (.rel _ _ huv)
      · obtain ⟨rfl, rfl⟩ := Prod.mk.inj (List.mem_singleton.mp huv)
        exact .inr (.inl ⟨.refl _, .refl _⟩)
    | refl u => exact .inl (.refl u)
    | symm u v _ ih =>
      rcases ih with huv | ⟨hu, hv⟩ | ⟨hu, hv⟩
      · exact .inl (.symm _ _ huv)
      · exact .inr (.inr ⟨hv, hu⟩)
      · exact .inr (.inl ⟨hv, hu⟩)
    | trans u v w _ _ ih ih' =>
      rcases ih with huv | ⟨hu, hv⟩ | ⟨hu, hv⟩ <;> rcases ih' with hvw | ⟨hv', hw⟩ | ⟨hv', hw⟩
      · exact .inl (.trans _ _ _ huv hvw)
      · exact .inr (.inl ⟨.trans _ _ _ huv hv', hw⟩)
      · exact .inr (.inr ⟨.trans _ _ _ huv hv', hw⟩)
      · exact .inr (.inl ⟨hu, .trans _ _ _ (.symm _ _ hvw) hv⟩)
      · exact .inr (.inl ⟨hu, hw⟩)
      · exact .inl (.trans _ _ _ hu (.symm _ _ hw))
      · exact .inr (.inr ⟨hu, .trans _ _ _ (.symm _ _ hvw) hv⟩)
      · exact .inl (.trans _ _ _ hu (.symm _ _ hw))
      · exact .inr (.inr ⟨hu, hw⟩)
  · rintro (hab | ⟨ha, hb⟩ | ⟨ha, hb⟩)
    · exact mono hab
    · exact .trans _ _ _ (mono ha) (.trans _ _ _ hxy (.symm _ _ (mono hb)))
    · exact .trans _ _ _ (mono ha) (.trans _ _ _ (.symm _ _ hxy) (.symm _ _ (mono hb)))

/-- No pairs relate nothing but equals. -/
theorem eqvGen_nil_iff {a b : Nat} :
    EqvGen (fun u v => (u, v) ∈ ([] : List (Nat × Nat))) a b ↔ a = b := by
  constructor
  · intro hab
    induction hab with
    | rel u v huv => exact absurd huv List.not_mem_nil
    | refl u => rfl
    | symm u v _ ih => exact ih.symm
    | trans u v w _ _ ih ih' => exact ih.trans ih'
  · rintro rfl
    exact .refl a

/-- The representatives tell the classes of the pairs apart. -/
def Separates (root : Nat → Nat) (pairs : List (Nat × Nat)) : Prop :=
  ∀ a b, root a = root b ↔ EqvGen (fun u v => (u, v) ∈ pairs) a b

theorem separates_id : Separates id [] := fun _ _ => eqvGen_nil_iff.symm

/-- One more pair is united. -/
theorem Represents.union_separates {done : List (Nat × Nat)} (h : s.Represents root)
    (hdone : Separates root done) (hx : x < s.parent.size) (hy : y < s.parent.size) :
    ∃ root', (s.union x y).Represents root' ∧ (s.union x y).parent.size = s.parent.size ∧
      Separates root' (done ++ [(x, y)]) := by
  obtain ⟨root', hrep, hsize, hroot⟩ := h.union hx hy
  refine ⟨root', hrep, hsize, fun a b => ?_⟩
  rw [hroot, eqvGen_append_singleton, hdone, hdone, hdone, hdone, hdone]

theorem Represents.foldl_union {done pairs : List (Nat × Nat)} (h : s.Represents root)
    (hdone : Separates root done)
    (hpairs : ∀ p ∈ pairs, p.1 < s.parent.size ∧ p.2 < s.parent.size) :
    ∃ root', (pairs.foldl (fun s (x, y) => s.union x y) s).Represents root' ∧
      (pairs.foldl (fun s (x, y) => s.union x y) s).parent.size = s.parent.size ∧
      Separates root' (done ++ pairs) := by
  induction pairs generalizing s root done with
  | nil =>
    rw [List.append_nil]
    exact ⟨root, h, rfl, hdone⟩
  | cons p pairs ih =>
    obtain ⟨x, y⟩ := p
    obtain ⟨hx, hy⟩ := hpairs (x, y) List.mem_cons_self
    obtain ⟨root', hrep, hsize, hroot⟩ := h.union_separates hdone hx hy
    obtain ⟨root'', hrep', hsize', hroot'⟩ := ih hrep hroot fun q hq => by
      rw [hsize]
      exact hpairs q (List.mem_cons_of_mem _ hq)
    rw [List.append_assoc, List.singleton_append] at hroot'
    exact ⟨root'', hrep', hsize'.trans hsize, hroot'⟩

/-- **United pairs generate the classes.** -/
theorem represents_ofPairs {pairs : List (Nat × Nat)} (hpairs : ∀ p ∈ pairs, p.1 < n ∧ p.2 < n) :
    ∃ root, (ofPairs n pairs).Represents root ∧ (ofPairs n pairs).parent.size = n ∧
      Separates root pairs := by
  obtain ⟨root, hrep, hsize, hroot⟩ := (represents_singletons n).foldl_union separates_id fun p hp => by
    rw [size_parent_singletons]
    exact hpairs p hp
  exact ⟨root, hrep, hsize.trans (size_parent_singletons n), hroot⟩

theorem Represents.findAll (h : s.Represents root) (xs : List Nat) :
    s.findAll xs = xs.map root := by
  induction xs generalizing s with
  | nil => rfl
  | cons x xs ih =>
    obtain ⟨hfound, hrep, -⟩ := h.find x
    rw [DisjointSets.findAll, List.map_cons]
    dsimp only
    rw [hfound, ih hrep]

/-- Numbers have one class exactly if they have one representative. -/
theorem Represents.classes_eq_iff (h : s.Represents root) (hx : x < s.parent.size)
    (hy : y < s.parent.size) : s.classes[x]? = s.classes[y]? ↔ root x = root y := by
  have hmem {z : Nat} (hz : z < s.parent.size) :
      root z ∈ ((List.range s.parent.size).map root).eraseDups :=
    List.mem_eraseDups.mpr (List.mem_map_of_mem (List.mem_range.mpr hz))
  have hget {z : Nat} (hz : z < s.parent.size) : s.classes[z]? =
      some (((List.range s.parent.size).map root).eraseDups.idxOf (root z)) := by
    rw [classes, h.findAll, List.getElem?_map, List.getElem?_map, List.getElem?_range hz]
    rfl
  rw [hget hx, hget hy, Option.some.injEq]
  exact List.idxOf_inj (hmem hx)

theorem nodup_eraseDups {α : Type} [BEq α] [LawfulBEq α] (l : List α) : l.eraseDups.Nodup := by
  match l with
  | [] => exact List.nodup_nil
  | x :: l =>
    rw [List.eraseDups_cons, List.nodup_cons]
    exact ⟨by simp, nodup_eraseDups _⟩
termination_by l.length
decreasing_by exact Nat.lt_succ_of_le (List.length_filter_le _ _)

/-- Classes are counted without gaps. -/
theorem mem_classes_of_le (hx : x ∈ s.classes) (hle : y ≤ x) : y ∈ s.classes := by
  obtain ⟨r, hr, rfl⟩ := List.mem_map.mp hx
  have hlt : y < (s.findAll (List.range s.parent.size)).eraseDups.length :=
    Nat.lt_of_le_of_lt hle (List.idxOf_lt_length_iff.mpr (List.mem_eraseDups.mpr hr))
  -- the representative counted at that place
  refine List.mem_map.mpr ⟨_, List.mem_eraseDups.mp (List.getElem_mem hlt), ?_⟩
  exact (nodup_eraseDups _).idxOf_getElem _ _

/-- **Classes of pairs**: two numbers have one class exactly if the pairs connect them. -/
theorem classes_ofPairs {pairs : List (Nat × Nat)} (hpairs : ∀ p ∈ pairs, p.1 < n ∧ p.2 < n)
    (hx : x < n) (hy : y < n) : (ofPairs n pairs).classes[x]? = (ofPairs n pairs).classes[y]? ↔
      EqvGen (fun u v => (u, v) ∈ pairs) x y := by
  obtain ⟨root, hrep, hsize, hroot⟩ := represents_ofPairs hpairs
  rw [← hroot]
  exact hrep.classes_eq_iff (hsize.symm ▸ hx) (hsize.symm ▸ hy)

theorem length_classes_ofPairs {pairs : List (Nat × Nat)}
    (hpairs : ∀ p ∈ pairs, p.1 < n ∧ p.2 < n) : (ofPairs n pairs).classes.length = n := by
  obtain ⟨root, hrep, hsize, -⟩ := represents_ofPairs hpairs
  rw [classes, hrep.findAll, List.length_map, List.length_map, List.length_range, hsize]

end Recalc.DisjointSets
