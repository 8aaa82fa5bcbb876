/-
Recalc/Proofs/Graph/Search.lean

What is true at every step of the search for components.  The frames cut the stack into
pieces, one for each frame: its number and the waiting numbers above it, up to the next frame.

    stack = piece ++ v :: piece' ++ v' :: piece'' ++ …,   frames = v, v', …

Every piece is strongly connected, and each frame is reached from the one under it; so
whatever waits reaches the frame on top (`Spine.reach_top`).  A frame that is left either
reaches nothing under it, and its piece is a component, or it reaches something under it,
and its piece joins the one below.  Which of the two is the case, the lowest index tells:
it is the index of a number that the frame reaches, and no edge that was followed from the
piece leads to a waiting number under that one (`Hangs`).

Design.  `Spine` follows the frames.  A step changes the piece on top and what is known of a
few numbers; all other pieces are carried over by one lemma (`Spine.mono`).  `Invariant` adds
what holds of the search as a whole, and `Invariant.walk` is the induction over its steps.
-/
import Recalc.Graph.Components
import Recalc.Proofs.Graph.Reach
import Mathlib.Data.List.Nodup
import Mathlib.Data.List.TakeDrop

open Relation

namespace Recalc.Adjacency

variable {a : Adjacency} {accept : Nat → Bool} {s s' : Search} {f : Frame} {frames : List Frame}
  {stack piece below : List Nat} {u v w x k : Nat}

namespace Search

/-! ### What is known of a number -/

/-- The number was entered. -/
def IsEntered (s : Search) (v : Nat) : Prop := ∃ k, s.index[v]? = some (some k)

theorem IsNew.lt_size (h : s.IsNew v) : v < s.index.size := (Array.getElem?_eq_some_iff.mp h).1

theorem IsNew.not_isEntered (h : s.IsNew v) : ¬ s.IsEntered v := by
  rintro ⟨k, hk⟩
  cases h.symm.trans hk

theorem isEntered_of_not_isNew (hv : v < s.index.size) (h : ¬ s.IsNew v) : s.IsEntered v := by
  rw [IsNew, Array.getElem?_eq_getElem hv] at h
  obtain ⟨k, hk⟩ := Option.ne_none_iff_exists'.mp fun hnone => h (congrArg some hnone)
  exact ⟨k, by rw [Array.getElem?_eq_getElem hv, hk]⟩

/-! Entering. -/

theorem isEntered_enter (h : s.IsNew w) : (s.enter w).IsEntered v ↔ v = w ∨ s.IsEntered v := by
  by_cases hv : v = w
  · subst hv
    simp [IsEntered, enter, Array.getElem?_setIfInBounds_self_of_lt h.lt_size]
  · simp [IsEntered, enter, Array.getElem?_setIfInBounds_ne (Ne.symm hv), hv]

theorem indexOf_enter_self (h : s.IsNew w) : (s.enter w).indexOf w = s.entered := by
  simp [indexOf, enter, Array.getElem?_setIfInBounds_self_of_lt h.lt_size]

theorem indexOf_enter_of_ne (h : v ≠ w) : (s.enter w).indexOf v = s.indexOf v := by
  simp [indexOf, enter, Array.getElem?_setIfInBounds_ne (Ne.symm h)]

theorem lowOf_enter_self (hw : w < s.low.size) : (s.enter w).lowOf w = s.entered := by
  simp [lowOf, enter, Array.getElem?_setIfInBounds_self_of_lt hw]

theorem lowOf_enter_of_ne (h : v ≠ w) : (s.enter w).lowOf v = s.lowOf v := by
  simp [lowOf, enter, Array.getElem?_setIfInBounds_ne (Ne.symm h)]

theorem isWaiting_enter (hw : w < s.waiting.size) :
    (s.enter w).isWaiting v = true ↔ v = w ∨ s.isWaiting v = true := by
  by_cases hv : v = w
  · subst hv
    simp [isWaiting, enter, Array.getElem?_setIfInBounds_self_of_lt hw]
  · simp [isWaiting, enter, Array.getElem?_setIfInBounds_ne (Ne.symm hv), hv]

/-! Lowering. -/

theorem lowOf_lower_self : (s.lower v k).lowOf v = min (s.lowOf v) k := by
  cases hv : s.low[v]? <;> simp [lowOf, lower, Array.getElem?_modify, hv]

theorem lowOf_lower_of_ne (h : u ≠ v) : (s.lower v k).lowOf u = s.lowOf u := by
  simp [lowOf, lower, Array.getElem?_modify, Ne.symm h]

theorem lower_eq_self (h : s.lowOf v ≤ k) : s.lower v k = s := by
  have hlow : s.low.modify v (min · k) = s.low := by
    refine Array.ext_getElem? fun i => ?_
    rw [Array.getElem?_modify]
    split
    case isTrue heq =>
      subst heq
      unfold lowOf at h
      cases hv : s.low[v]? with
      | none => rfl
      | some l =>
        rw [hv] at h
        exact congrArg some (Nat.min_eq_left h)
    case isFalse => rfl
  rw [lower, hlow]

/-! Closing. -/

theorem close_eq (hstack : s.stack = piece ++ v :: below) (hv : v ∉ piece) :
    s.close v = { s with
      waiting := (piece ++ [v]).foldl (fun waiting w => waiting.setIfInBounds w false) s.waiting
      stack := below
      found := s.found ++ [piece ++ [v]] } := by
  have hpiece : ∀ w ∈ piece, (w != v) = true := by
    intro w hw
    rw [bne_iff_ne]
    rintro rfl
    exact hv hw
  have hspan : s.stack.span (· != v) = (piece, v :: below) := by
    rw [List.span_eq_takeWhile_dropWhile, hstack, List.takeWhile_append_of_pos hpiece,
      List.dropWhile_append_of_pos hpiece]
    simp
  rw [close, hspan]
  rfl

theorem isWaiting_foldl (members : List Nat) (s : Search) :
    ({ s with waiting := members.foldl (fun waiting w => waiting.setIfInBounds w false) s.waiting }
      : Search).isWaiting v = true ↔ s.isWaiting v = true ∧ v ∉ members := by
  unfold isWaiting
  by_cases hv : v < s.waiting.size
  · rw [getElem?_foldl_setIfInBounds members s.waiting false hv]
    by_cases hmem : v ∈ members <;> simp [hmem]
  · have hle := Nat.le_of_not_lt hv
    rw [Array.getElem?_eq_none hle, Array.getElem?_eq_none (by
      rwa [size_foldl_setIfInBounds])]
    simp

/-! Leaving. -/

theorem leave_of_eq {parent : Option Frame} (hlow : s.lowOf v = s.indexOf v)
    (hparent : ∀ p ∈ parent, s.lowOf p.node ≤ s.lowOf v) : s.leave v parent = s.close v := by
  have hsame : (parent.elim s fun p => s.lower p.node (s.lowOf v)) = s := by
    cases parent with
    | none => rfl
    | some p => exact lower_eq_self (hparent p rfl)
  rw [leave, hsame]
  exact if_pos hlow

theorem leave_of_ne {p : Frame} (hlow : s.lowOf v ≠ s.indexOf v) (hp : v ≠ p.node) :
    s.leave v (some p) = s.lower p.node (s.lowOf v) := by
  refine if_neg ?_
  show (s.lower p.node (s.lowOf v)).lowOf v ≠ s.indexOf v
  rwa [lowOf_lower_of_ne hp]

end Search

/-! ### Pieces of the stack -/

/-- An edge from the piece of `v` to `w` needs no more care: `w` has its component, or `v` knows of
an index that is no greater. -/
def Search.Notes (s : Search) (v w : Nat) : Prop :=
  s.IsEntered w ∧ (s.isWaiting w = true → s.lowOf v ≤ s.indexOf w)

/-- A frame with its piece of the stack above it and the rest of the stack below. -/
structure Hangs (a : Adjacency) (accept : Nat → Bool) (s : Search) (f : Frame)
    (piece below : List Nat) : Prop where
  strong : ∀ u ∈ piece, (a.restrict accept).Mutual f.node u
  /-- The lowest index is that of a number that the frame reaches. -/
  low : ∃ x ∈ f.node :: below, s.indexOf x = s.lowOf f.node ∧
    ReflTransGen (a.restrict accept).Adj f.node x
  /-- What the frame has left are edges. -/
  left : ∀ w ∈ f.rest, accept w = true → (a.restrict accept).Adj f.node w
  /-- An edge is left to the frame, or it was followed. -/
  edges : ∀ u ∈ f.node :: piece, ∀ w < a.size, (a.restrict accept).Adj u w →
    (u = f.node ∧ w ∈ f.rest) ∨ s.Notes f.node w

/-- The frames cut the stack into pieces. -/
inductive Spine (a : Adjacency) (accept : Nat → Bool) (s : Search) : List Frame → List Nat → Prop
  | nil : Spine a accept s [] []
  | cons {f : Frame} {frames : List Frame} {piece below : List Nat}
      (h : Spine a accept s frames below)
      (hreach : ∀ p ∈ frames.head?, ReflTransGen (a.restrict accept).Adj p.node f.node)
      (hpiece : Hangs a accept s f piece below) :
      Spine a accept s (f :: frames) (piece ++ f.node :: below)

theorem Search.mem_stack_iff (hstack : s.stack = piece ++ v :: below) :
    u ∈ s.stack ↔ u ∈ piece ++ [v] ∨ u ∈ below := by
  rw [hstack]
  simp [or_assoc]

/-- What was known of the numbers entered before is still true, but some may wait no more. -/
structure Search.Keeps (s s' : Search) : Prop where
  entered : ∀ {v}, s.IsEntered v → s'.IsEntered v
  index : ∀ {v}, s.IsEntered v → s'.indexOf v = s.indexOf v
  waiting : ∀ {v}, s.IsEntered v → s'.isWaiting v = true → s.isWaiting v = true

/-- Indices fall from the top of the stack. -/
def Search.Falls (s : Search) (stack : List Nat) : Prop :=
  stack.Pairwise fun u v => s.indexOf v < s.indexOf u

theorem Search.Falls.nodup (h : s.Falls stack) : stack.Nodup :=
  h.imp fun hlt heq => by
    rw [heq] at hlt
    exact absurd hlt (Nat.lt_irrefl _)

theorem Search.Falls.falls_below (h : s.Falls (piece ++ v :: below)) : s.Falls below :=
  (List.pairwise_cons.mp (List.pairwise_append.mp h).2.1).2

theorem Search.Falls.under (h : s.Falls (piece ++ v :: below)) :
    ∀ x ∈ below, s.indexOf x < s.indexOf v :=
  (List.pairwise_cons.mp (List.pairwise_append.mp h).2.1).1

/-- What is no higher than a number lies at it or below. -/
theorem Search.Falls.mem_of_le (h : s.Falls (piece ++ v :: below)) (hu : u ∈ piece ++ v :: below)
    (hx : x ∈ v :: below) (hle : s.indexOf u ≤ s.indexOf x) : u ∈ v :: below := by
  rcases List.mem_append.mp hu with hpiece | hbelow
  · have hlt := (List.pairwise_append.mp h).2.2 u hpiece x hx
    omega
  · exact hbelow

theorem Search.Notes.keep (h : s.Notes v w) (hs : s.Keeps s') (hlow : s'.lowOf v ≤ s.lowOf v) :
    s'.Notes v w := by
  refine ⟨hs.entered h.1, fun hwaiting => ?_⟩
  rw [hs.index h.1]
  exact Nat.le_trans hlow (h.2 (hs.waiting h.1 hwaiting))

namespace Spine

theorem eq_nil (h : Spine a accept s [] stack) : stack = [] := by
  cases h
  rfl

theorem uncons (h : Spine a accept s (f :: frames) stack) :
    ∃ piece below, stack = piece ++ f.node :: below ∧ Spine a accept s frames below ∧
      (∀ p ∈ frames.head?, ReflTransGen (a.restrict accept).Adj p.node f.node) ∧
      Hangs a accept s f piece below := by
  cases h with
  | @cons _ _ piece below h hreach hpiece => exact ⟨piece, below, rfl, h, hreach, hpiece⟩

/-- **Whatever waits reaches the frame on top.** -/
theorem reach_top (h : Spine a accept s frames stack) :
    ∀ p ∈ frames.head?, ∀ x ∈ stack, ReflTransGen (a.restrict accept).Adj x p.node := by
  induction h with
  | nil => exact fun p hp => absurd hp (by simp)
  | @cons f frames piece below h hreach hpiece ih =>
    intro p hp x hx
    obtain rfl : f = p := Option.some.inj hp
    rcases List.mem_append.mp hx with hx | hx
    · exact (hpiece.strong x hx).2
    rcases List.mem_cons.mp hx with rfl | hx
    · exact ReflTransGen.refl
    cases frames with
    | nil =>
      rw [h.eq_nil] at hx
      exact absurd hx List.not_mem_nil
    | cons p frames => exact (ih p rfl x hx).trans (hreach p rfl)

theorem node_mem (h : Spine a accept s frames stack) : ∀ p ∈ frames.head?, p.node ∈ stack := by
  cases h with
  | nil => exact fun p hp => absurd hp (by simp)
  | cons =>
    intro p hp
    obtain rfl := Option.some.inj hp
    simp

theorem exists_low (h : Spine a accept s frames stack) :
    ∀ p ∈ frames.head?, ∃ x ∈ stack, s.indexOf x = s.lowOf p.node := by
  cases h with
  | nil => exact fun p hp => absurd hp (by simp)
  | cons _ _ hpiece =>
    intro p hp
    obtain rfl := Option.some.inj hp
    obtain ⟨x, hx, heq, -⟩ := hpiece.low
    exact ⟨x, List.mem_append_right _ hx, heq⟩

/-- Pieces are carried over to a search that knows the same of their numbers. -/
theorem mono (h : Spine a accept s frames stack) (hs : s.Keeps s')
    (hstack : ∀ v ∈ stack, s.IsEntered v ∧ s'.lowOf v = s.lowOf v) :
    Spine a accept s' frames stack := by
  -- a frame looks at the index of its own number and at those that edges lead to, which were
  -- all entered
  induction h with
  | nil => exact .nil
  | @cons f frames piece below h hreach hpiece ih =>
    have hnode := hstack f.node (by simp)
    have hbelow : ∀ v ∈ f.node :: below, s.IsEntered v ∧ s'.lowOf v = s.lowOf v :=
      fun v hv => hstack v (List.mem_append_right _ hv)
    refine .cons (ih fun v hv => hbelow v (List.mem_cons_of_mem _ hv)) hreach ⟨hpiece.strong, ?_,
      hpiece.left, fun u hu w hw hadj => ?_⟩
    · obtain ⟨x, hx, heq, hpath⟩ := hpiece.low
      exact ⟨x, hx, by rw [hs.index (hbelow x hx).1, heq, hnode.2], hpath⟩
    · refine (hpiece.edges u hu w hw hadj).imp_right fun hnotes => ?_
      exact hnotes.keep hs (Nat.le_of_eq hnode.2)

/-- A frame on top for a number that is just entered. -/
theorem push (h : Spine a accept s frames stack) (haccept : accept w = true)
    (hreach : ∀ p ∈ frames.head?, ReflTransGen (a.restrict accept).Adj p.node w)
    (hlow : s.lowOf w = s.indexOf w) :
    Spine a accept s (⟨w, a.next w⟩ :: frames) (w :: stack) := by
  have hpiece : Hangs a accept s ⟨w, a.next w⟩ [] stack := by
    refine ⟨fun u hu => absurd hu List.not_mem_nil, ?_, ?_, ?_⟩
    · exact ⟨w, List.mem_cons_self, hlow.symm, ReflTransGen.refl⟩
    · exact fun x hx hacc => adj_restrict.mpr ⟨haccept, hacc, hx⟩
    · intro u hu x _ hadj
      obtain rfl := List.mem_singleton.mp hu
      exact .inl ⟨rfl, (adj_restrict.mp hadj).2.2⟩
  exact .cons h hreach hpiece

/-- An edge is followed. -/
theorem drop {rest : List Nat} (h : Spine a accept s (⟨v, w :: rest⟩ :: frames) stack)
    (hw : w < a.size → (a.restrict accept).Adj v w → s.Notes v w) :
    Spine a accept s (⟨v, rest⟩ :: frames) stack := by
  cases h with
  | cons h hreach hpiece =>
    refine .cons h hreach ⟨hpiece.strong, hpiece.low,
      fun x hx => hpiece.left x (List.mem_cons_of_mem _ hx), fun u hu x hx hadj => ?_⟩
    rcases hpiece.edges u hu x hx hadj with ⟨rfl, hmem⟩ | hnotes
    · rcases List.mem_cons.mp hmem with rfl | hrest
      · exact .inr (hw hx hadj)
      · exact .inl ⟨rfl, hrest⟩
    · exact .inr hnotes

/-- The frame on top reaches a number of the stack. -/
theorem lower (h : Spine a accept s (f :: frames) stack) (hfalls : s.Falls stack)
    (hstack : ∀ v ∈ stack, s.IsEntered v) (hx : x ∈ stack)
    (hpath : ReflTransGen (a.restrict accept).Adj f.node x) :
    Spine a accept (s.lower f.node (s.indexOf x)) (f :: frames) stack := by
  have hkeeps : s.Keeps (s.lower f.node (s.indexOf x)) := ⟨id, fun _ => rfl, fun _ => id⟩
  cases h with
  | @cons _ _ piece below h hreach hpiece =>
    have hbelow : ∀ v ∈ below, v ≠ f.node := by
      rintro v hv rfl
      exact Nat.lt_irrefl _ (hfalls.under _ hv)
    refine .cons (h.mono hkeeps fun v hv => ⟨hstack v (by simp [hv]), ?_⟩) hreach
      ⟨hpiece.strong, ?_, hpiece.left, fun u hu w hw hadj => ?_⟩
    · exact Search.lowOf_lower_of_ne (hbelow v hv)
    · obtain ⟨y, hy, heq, hpathy⟩ := hpiece.low
      rw [Search.lowOf_lower_self]
      rcases Nat.le_total (s.lowOf f.node) (s.indexOf x) with hle | hle
      · exact ⟨y, hy, heq.trans (Nat.min_eq_left hle).symm, hpathy⟩
      · exact ⟨x, hfalls.mem_of_le hx hy (heq ▸ hle), (Nat.min_eq_right hle).symm, hpath⟩
    · refine (hpiece.edges u hu w hw hadj).imp_right fun hnotes => hnotes.keep hkeeps ?_
      rw [Search.lowOf_lower_self]
      exact Nat.min_le_left _ _

/-- A piece joins the one below. -/
theorem absorb (h : Spine a accept s (f :: frames) stack)
    (hstrong : ∀ u ∈ v :: piece, (a.restrict accept).Mutual f.node u)
    (hedges : ∀ u ∈ v :: piece, ∀ w < a.size, (a.restrict accept).Adj u w → s.Notes f.node w) :
    Spine a accept s (f :: frames) (piece ++ v :: stack) := by
  cases h with
  | @cons _ _ piece' below h hreach hpiece =>
    have hmem {u : Nat} (hu : u ∈ piece ++ v :: piece') : u ∈ v :: piece ∨ u ∈ piece' := by
      simpa [or_assoc, or_left_comm] using hu
    have hjoined : Hangs a accept s f (piece ++ v :: piece') below := by
      refine ⟨fun u hu => ?_, hpiece.low, hpiece.left, fun u hu w hw hadj => ?_⟩
      · rcases hmem hu with hu | hu
        · exact hstrong u hu
        · exact hpiece.strong u hu
      · rcases List.mem_cons.mp hu with rfl | hu
        · exact hpiece.edges _ List.mem_cons_self w hw hadj
        rcases hmem hu with hu | hu
        · exact .inr (hedges u hu w hw hadj)
        · exact hpiece.edges u (List.mem_cons_of_mem _ hu) w hw hadj
    have hspine := Spine.cons h hreach hjoined
    rwa [List.append_assoc, List.cons_append] at hspine

end Spine

/-! ### Components found -/

/-- Classes of mutual reach; an edge from a class leads into it or into a class before it. -/
inductive Listed (a : Adjacency) : List (List Nat) → Prop
  | nil : Listed a []
  | snoc {cs : List (List Nat)} {c : List Nat} (h : Listed a cs) (hne : c ≠ []) (hnodup : c.Nodup)
      (hnew : ∀ u ∈ c, u < a.size ∧ u ∉ cs.flatten)
      (hclass : ∀ u ∈ c, ∀ v, v ∈ c ↔ a.Mutual u v)
      (hedges : ∀ u ∈ c, ∀ w < a.size, a.Adj u w → w ∈ c ∨ w ∈ cs.flatten) :
      Listed a (cs ++ [c])

theorem mem_flatten_snoc {cs : List (List Nat)} {c : List Nat} :
    v ∈ (cs ++ [c]).flatten ↔ v ∈ cs.flatten ∨ v ∈ c := by
  rw [List.flatten_append, List.mem_append, List.flatten_singleton]

/-- No edge leads out of the components. -/
theorem Listed.mem_of_adj {cs : List (List Nat)} (h : Listed a cs) (hu : u ∈ cs.flatten)
    (hw : w < a.size) (hadj : a.Adj u w) : w ∈ cs.flatten := by
  induction h with
  | nil => exact absurd hu List.not_mem_nil
  | snoc h _ _ _ _ hedges ih =>
    rw [mem_flatten_snoc] at hu ⊢
    rcases hu with hu | hu
    · exact .inl (ih hu)
    · exact (hedges u hu w hw hadj).symm

/-- A set of numbers that no edge leads out of holds all that is reached from it. -/
theorem mem_of_reach {p : Nat → Prop} (hp : ∀ u w, p u → w < a.size → a.Adj u w → p w) (hu : p u)
    (hw : w < a.size) (hpath : ReflTransGen a.Adj u w) : p w := by
  induction hpath with
  | refl => exact hu
  | tail _ hadj ih => exact hp _ _ (ih hadj.lt_size) hw hadj

/-- Numbers that can be left and returned to lie below the size. -/
theorem Mutual.lt_size (h : a.Mutual u v) (hu : u < a.size) : v < a.size := by
  rcases ReflTransGen.cases_head h.2 with rfl | ⟨w, hadj, -⟩
  · exact hu
  · exact hadj.lt_size

/-! ### The whole search -/

/-- What is true of a search from some roots with the given frames. -/
structure Invariant (a : Adjacency) (accept : Nat → Bool) (roots : List Nat) (s : Search)
    (frames : List Frame) : Prop where
  size_index : s.index.size = a.size
  size_low : s.low.size = a.size
  size_waiting : s.waiting.size = a.size
  waiting_iff : ∀ v, s.isWaiting v = true ↔ v ∈ s.stack
  entered_iff : ∀ v, s.IsEntered v ↔ v ∈ s.stack ∨ v ∈ s.found.flatten
  falls : s.Falls s.stack
  index_lt : ∀ v ∈ s.stack, s.indexOf v < s.entered
  apart : ∀ v ∈ s.stack, v ∉ s.found.flatten
  reached : ∀ v, s.IsEntered v → ∃ r ∈ roots, ReflTransGen (a.restrict accept).Adj r v
  spine : Spine a accept s frames s.stack
  listed : Listed (a.restrict accept) s.found

namespace Invariant

variable {roots : List Nat} {frames' : List Frame}

theorem isEntered (h : Invariant a accept roots s frames) (hv : v ∈ s.stack) : s.IsEntered v :=
  (h.entered_iff v).mpr (.inl hv)

theorem lt_size (h : Invariant a accept roots s frames) (hv : s.IsEntered v) : v < a.size := by
  obtain ⟨k, hk⟩ := hv
  rw [← h.size_index]
  exact (Array.getElem?_eq_some_iff.mp hk).1

theorem start (a : Adjacency) (accept : Nat → Bool) (roots : List Nat) :
    Invariant a accept roots (.start a.size) [] := by
  have hentered (v : Nat) : ¬ (Search.start a.size).IsEntered v := by
    rintro ⟨k, hk⟩
    simp [Search.start, Array.getElem?_replicate] at hk
  have hwaiting (v : Nat) : (Search.start a.size).isWaiting v = false := by
    by_cases hv : v < a.size <;> simp [Search.start, Search.isWaiting, hv]
  exact
    { size_index := by simp [Search.start]
      size_low := by simp [Search.start]
      size_waiting := by simp [Search.start]
      waiting_iff := fun v => by
        rw [hwaiting]
        simp [Search.start]
      entered_iff := fun v => by
        refine iff_of_false (hentered v) ?_
        simp [Search.start]
      falls := .nil
      index_lt := fun v hv => absurd hv List.not_mem_nil
      apart := fun v hv => absurd hv List.not_mem_nil
      reached := fun v hv => absurd hv (hentered v)
      spine := .nil
      listed := .nil }

/-- A new number is entered. -/
theorem enter (h : Invariant a accept roots s frames) (hw : s.IsNew w)
    (hreached : ∃ r ∈ roots, ReflTransGen (a.restrict accept).Adj r w)
    (hspine : Spine a accept (s.enter w) frames' (w :: s.stack)) :
    Invariant a accept roots (s.enter w) frames' := by
  have hne {v : Nat} (hv : v ∈ s.stack) : v ≠ w := by
    rintro rfl
    exact hw.not_isEntered (h.isEntered hv)
  have hlt : w < a.size := h.size_index ▸ hw.lt_size
  have hindex : ∀ v ∈ s.stack, (s.enter w).indexOf v = s.indexOf v :=
    fun v hv => Search.indexOf_enter_of_ne (hne hv)
  exact
    { size_index := (Array.size_setIfInBounds ..).trans h.size_index
      size_low := (Array.size_setIfInBounds ..).trans h.size_low
      size_waiting := (Array.size_setIfInBounds ..).trans h.size_waiting
      waiting_iff := fun v => by
        rw [Search.isWaiting_enter (h.size_waiting ▸ hlt), h.waiting_iff]
        exact List.mem_cons.symm
      entered_iff := fun v => by
        rw [Search.isEntered_enter hw, h.entered_iff, ← or_assoc]
        exact or_congr_left List.mem_cons.symm
      falls := by
        refine List.pairwise_cons.mpr ⟨fun v hv => ?_, ?_⟩
        · rw [hindex v hv, Search.indexOf_enter_self hw]
          exact h.index_lt v hv
        · refine h.falls.imp_of_mem fun {u v} hu hv hlt => ?_
          rwa [hindex u hu, hindex v hv]
      index_lt := fun v hv => by
        rcases List.mem_cons.mp hv with rfl | hv
        · rw [Search.indexOf_enter_self hw]
          exact Nat.lt_succ_self _
        · rw [hindex v hv]
          exact Nat.lt_succ_of_lt (h.index_lt v hv)
      apart := fun v hv => by
        rcases List.mem_cons.mp hv with rfl | hv
        · exact fun hfound => hw.not_isEntered ((h.entered_iff v).mpr (.inr hfound))
        · exact h.apart v hv
      reached := fun v hv => by
        rcases (Search.isEntered_enter hw).mp hv with rfl | hv
        · exact hreached
        · exact h.reached v hv
      spine := hspine
      listed := h.listed }

/-- A lower index is noted. -/
theorem lower (h : Invariant a accept roots s frames)
    (hspine : Spine a accept (s.lower v k) frames' s.stack) :
    Invariant a accept roots (s.lower v k) frames' :=
  { h with
    size_low := (Array.size_modify ..).trans h.size_low
    spine := hspine }

/-- Entering changes nothing for the numbers that wait. -/
theorem spine_enter (h : Invariant a accept roots s frames) (hw : s.IsNew w) :
    Spine a accept (s.enter w) frames s.stack := by
  have hne {v : Nat} (hv : s.IsEntered v) : v ≠ w := by
    rintro rfl
    exact hw.not_isEntered hv
  have hlt : w < a.size := h.size_index ▸ hw.lt_size
  refine h.spine.mono ⟨fun hv => ?_, fun hv => ?_, fun hv hwaiting => ?_⟩ fun v hv => ?_
  · exact (Search.isEntered_enter hw).mpr (.inr hv)
  · exact Search.indexOf_enter_of_ne (hne hv)
  · exact ((Search.isWaiting_enter (h.size_waiting ▸ hlt)).mp hwaiting).resolve_left (hne hv)
  · exact ⟨h.isEntered hv, Search.lowOf_enter_of_ne (hne (h.isEntered hv))⟩

theorem low_enter (h : Invariant a accept roots s frames) (hw : s.IsNew w) :
    (s.enter w).lowOf w = (s.enter w).indexOf w := by
  have hlt : w < a.size := h.size_index ▸ hw.lt_size
  rw [Search.lowOf_enter_self (h.size_low ▸ hlt), Search.indexOf_enter_self hw]

/-! ### Steps -/

variable {rest : List Nat}

/-- An edge leads to a new number. -/
theorem step_enter (h : Invariant a accept roots s (⟨v, w :: rest⟩ :: frames))
    (haccept : accept w = true) (hw : s.IsNew w) :
    Invariant a accept roots (s.enter w) (⟨w, a.next w⟩ :: ⟨v, rest⟩ :: frames) := by
  obtain ⟨piece, below, hstack, -, -, hpiece⟩ := h.spine.uncons
  have hsub : ∀ x ∈ v :: below, x ∈ s.stack := fun x hx => hstack ▸ List.mem_append_right _ hx
  have hv : v ∈ s.stack := hsub v List.mem_cons_self
  have hadj : (a.restrict accept).Adj v w := hpiece.left w List.mem_cons_self haccept
  have hspine := (h.spine_enter hw).drop fun _ _ => by
    refine ⟨(Search.isEntered_enter hw).mpr (.inl rfl), fun _ => ?_⟩
    obtain ⟨x, hx, heq, -⟩ := hpiece.low
    have hne : v ≠ w := by
      rintro rfl
      exact hw.not_isEntered (h.isEntered hv)
    rw [Search.lowOf_enter_of_ne hne, Search.indexOf_enter_self hw, ← heq]
    exact Nat.le_of_lt (h.index_lt x (hsub x hx))
  refine h.enter hw ?_ (hspine.push haccept ?_ (h.low_enter hw))
  · obtain ⟨r, hr, hpath⟩ := h.reached v (h.isEntered hv)
    exact ⟨r, hr, hpath.tail hadj⟩
  · intro p hp
    obtain rfl := Option.some.inj hp
    exact .single hadj

/-- An edge leads to a waiting number. -/
theorem step_lower (h : Invariant a accept roots s (⟨v, w :: rest⟩ :: frames))
    (haccept : accept w = true) (hw : s.isWaiting w = true) :
    Invariant a accept roots (s.lower v (s.indexOf w)) (⟨v, rest⟩ :: frames) := by
  obtain ⟨_, _, -, -, -, hpiece⟩ := h.spine.uncons
  have hmem : w ∈ s.stack := (h.waiting_iff w).mp hw
  have hadj : (a.restrict accept).Adj v w := hpiece.left w List.mem_cons_self haccept
  have hspine := h.spine.lower h.falls (fun _ => h.isEntered) hmem (.single hadj)
  refine h.lower (hspine.drop fun _ _ => ⟨h.isEntered hmem, fun _ => ?_⟩)
  rw [Search.lowOf_lower_self]
  exact Nat.min_le_right _ _

/-- An edge leads out of the graph or to a number that has its component. -/
theorem step_skip (h : Invariant a accept roots s (⟨v, w :: rest⟩ :: frames))
    (hnew : ¬ (accept w = true ∧ s.IsNew w))
    (hwaiting : ¬ (accept w = true ∧ s.isWaiting w = true)) :
    Invariant a accept roots s (⟨v, rest⟩ :: frames) := by
  refine { h with spine := h.spine.drop fun hlt hadj => ?_ }
  have haccept := (adj_restrict.mp hadj).2.1
  refine ⟨Search.isEntered_of_not_isNew (h.size_index ▸ hlt) fun hw => hnew ⟨haccept, hw⟩, ?_⟩
  exact fun hw => absurd ⟨haccept, hw⟩ hwaiting

section Close

variable (h : Invariant a accept roots s (⟨v, []⟩ :: frames))
  (hstack : s.stack = piece ++ v :: below) (hpiece : Hangs a accept s ⟨v, []⟩ piece below)
  (hlow : s.lowOf v = s.indexOf v)

include h hstack hpiece hlow

/-- Edges of a piece that knows no index but its own lead into it or into components. -/
theorem mem_of_adj (hu : u ∈ piece ++ [v]) (hw : w < a.size)
    (hadj : (a.restrict accept).Adj u w) : w ∈ piece ++ [v] ∨ w ∈ s.found.flatten := by
  obtain ⟨-, hnil⟩ | ⟨hentered, hnotes⟩ :=
    hpiece.edges u (by simpa [or_comm] using hu) w hw hadj
  · exact absurd hnil List.not_mem_nil
  rcases (h.entered_iff w).mp hentered with hwait | hfound
  · -- the index of a number under `v` is less
    refine .inl (((Search.mem_stack_iff hstack).mp hwait).resolve_right fun hbelow => ?_)
    have hfalls := h.falls
    rw [hstack] at hfalls
    have hless := hfalls.under w hbelow
    have hle := hnotes ((h.waiting_iff w).mpr hwait)
    rw [hlow] at hle
    omega
  · exact .inr hfound

/-- Such a piece is a class: what it reaches and does not hold has its component already, and
components reach nothing that waits. -/
theorem mem_of_mutual (hu : u ∈ piece ++ [v]) (huw : (a.restrict accept).Mutual u w) :
    w ∈ piece ++ [v] := by
  have hwait : u ∈ s.stack := (Search.mem_stack_iff hstack).mpr (.inl hu)
  have hsize : u < (a.restrict accept).size := by
    rw [size_restrict]
    exact h.lt_size (h.isEntered hwait)
  have hreached : w ∈ piece ++ [v] ∨ w ∈ s.found.flatten := by
    refine mem_of_reach (p := fun w => w ∈ piece ++ [v] ∨ w ∈ s.found.flatten) ?_ (.inl hu)
      (huw.lt_size hsize) huw.1
    rintro x y (hx | hx) hy hadj
    · rw [size_restrict] at hy
      exact h.mem_of_adj hstack hpiece hlow hx hy hadj
    · exact .inr (h.listed.mem_of_adj hx hy hadj)
  refine hreached.resolve_right fun hfound => h.apart u hwait ?_
  exact mem_of_reach (p := (· ∈ s.found.flatten))
    (fun x y hx hy hadj => h.listed.mem_of_adj hx hy hadj) hfound hsize huw.2

theorem listed_snoc : Listed (a.restrict accept) (s.found ++ [piece ++ [v]]) := by
  have hstrong : ∀ u ∈ piece ++ [v], (a.restrict accept).Mutual v u := by
    intro u hu
    rcases List.mem_append.mp hu with hu | hu
    · exact hpiece.strong u hu
    · rw [List.mem_singleton.mp hu]
      exact .refl _ _
  refine .snoc h.listed (by simp) ?_ (fun u hu => ?_)
    (fun u hu w => ⟨fun hw => ?_, fun hw => ?_⟩) ?_
  · have hnodup := h.falls.nodup
    rw [hstack, ← List.singleton_append, ← List.append_assoc] at hnodup
    exact hnodup.of_append_left
  · have hwait : u ∈ s.stack := (Search.mem_stack_iff hstack).mpr (.inl hu)
    rw [size_restrict]
    exact ⟨h.lt_size (h.isEntered hwait), h.apart u hwait⟩
  · exact (hstrong u hu).symm.trans (hstrong w hw)
  · exact h.mem_of_mutual hstack hpiece hlow hu hw
  · intro u hu w hw hadj
    rw [size_restrict] at hw
    exact h.mem_of_adj hstack hpiece hlow hu hw hadj

/-- The piece on top is a component. -/
theorem step_close (hspine : Spine a accept s frames below) :
    Invariant a accept roots (s.close v) frames := by
  have hfalls := h.falls
  rw [hstack] at hfalls
  have hbelow : ∀ u ∈ below, u ∈ s.stack := fun u hu => (Search.mem_stack_iff hstack).mpr (.inr hu)
  have hapart : ∀ u ∈ below, u ∉ piece ++ [v] := by
    have hnodup := hfalls.nodup
    rw [← List.singleton_append, ← List.append_assoc] at hnodup
    exact fun u hu hpart => List.disjoint_of_nodup_append hnodup hpart hu
  have hv : v ∉ piece := fun hmem =>
    List.disjoint_of_nodup_append hfalls.nodup hmem List.mem_cons_self
  rw [Search.close_eq hstack hv]
  have hwaiting {u : Nat} := Search.isWaiting_foldl (v := u) (piece ++ [v]) s
  exact
    { size_index := h.size_index
      size_low := h.size_low
      size_waiting := (size_foldl_setIfInBounds ..).trans h.size_waiting
      waiting_iff := fun u => by
        refine hwaiting.trans ?_
        rw [h.waiting_iff, Search.mem_stack_iff hstack]
        constructor
        · rintro ⟨hu, hnot⟩
          exact hu.resolve_left hnot
        · exact fun hu => ⟨.inr hu, hapart u hu⟩
      entered_iff := fun u => by
        refine (h.entered_iff u).trans ?_
        show _ ↔ u ∈ below ∨ u ∈ (s.found ++ [piece ++ [v]]).flatten
        rw [Search.mem_stack_iff hstack, mem_flatten_snoc]
        tauto
      falls := hfalls.falls_below
      index_lt := fun u hu => h.index_lt u (hbelow u hu)
      apart := fun u hu => by
        rw [mem_flatten_snoc]
        exact not_or.mpr ⟨h.apart u (hbelow u hu), hapart u hu⟩
      reached := h.reached
      spine := by
        refine hspine.mono ⟨id, fun _ => rfl, fun _ hu => (hwaiting.mp hu).1⟩ fun u hu => ?_
        exact ⟨h.isEntered (hbelow u hu), rfl⟩
      listed := h.listed_snoc hstack hpiece hlow }

end Close

/-- A piece that reaches a number under it belongs to the piece there. -/
theorem step_join {p : Frame} (h : Invariant a accept roots s (⟨v, []⟩ :: p :: frames))
    (hstack : s.stack = piece ++ v :: below) (hspine : Spine a accept s (p :: frames) below)
    (hreach : ReflTransGen (a.restrict accept).Adj p.node v)
    (hpiece : Hangs a accept s ⟨v, []⟩ piece below) (hx : x ∈ below)
    (heq : s.indexOf x = s.lowOf v) (hpath : ReflTransGen (a.restrict accept).Adj v x) :
    Invariant a accept roots (s.lower p.node (s.lowOf v)) (p :: frames) := by
  have hfalls := h.falls
  rw [hstack] at hfalls
  have hbelow : ∀ u ∈ below, s.IsEntered u := fun u hu =>
    h.isEntered ((Search.mem_stack_iff hstack).mpr (.inr hu))
  have hpv : (a.restrict accept).Mutual p.node v :=
    ⟨hreach, hpath.trans (hspine.reach_top p rfl x hx)⟩
  rw [← heq]
  refine h.lower ?_
  rw [hstack]
  refine (hspine.lower hfalls.falls_below hbelow hx (hreach.trans hpath)).absorb ?_ ?_
  · intro u hu
    rcases List.mem_cons.mp hu with rfl | hu
    · exact hpv
    · exact hpv.trans (hpiece.strong u hu)
  · intro u hu w hw hadj
    obtain ⟨-, hnil⟩ | ⟨hentered, hnotes⟩ := hpiece.edges u hu w hw hadj
    · exact absurd hnil List.not_mem_nil
    refine ⟨hentered, fun hwaiting => ?_⟩
    rw [Search.lowOf_lower_self, heq]
    exact Nat.le_trans (Nat.min_le_right _ _) (hnotes hwaiting)

/-- All edges of the frame on top are followed. -/
theorem step_leave (h : Invariant a accept roots s (⟨v, []⟩ :: frames)) :
    Invariant a accept roots (s.leave v frames.head?) frames := by
  obtain ⟨piece, below, hstack, hspine, hreach, hpiece⟩ := h.spine.uncons
  have hfalls := h.falls
  rw [hstack] at hfalls
  have hunder : ∀ x ∈ below, s.indexOf x < s.indexOf v := hfalls.under
  by_cases hlow : s.lowOf v = s.indexOf v
  · -- the parent knows a lower index already, so its own is not changed
    rw [Search.leave_of_eq hlow]
    · exact h.step_close hstack hpiece hlow hspine
    · intro p hp
      obtain ⟨x, hx, heq⟩ := hspine.exists_low p hp
      rw [hlow, ← heq]
      exact Nat.le_of_lt (hunder x hx)
  · -- the number with the lowest index lies under the piece, so there is a parent
    obtain ⟨x, hx, heq, hpath⟩ := hpiece.low
    have hxbelow : x ∈ below := by
      rcases List.mem_cons.mp hx with rfl | hx
      · exact absurd heq.symm hlow
      · exact hx
    cases frames with
    | nil =>
      rw [hspine.eq_nil] at hxbelow
      exact absurd hxbelow List.not_mem_nil
    | cons p frames =>
      have hne : v ≠ p.node := by
        rintro rfl
        exact Nat.lt_irrefl _ (hunder _ (hspine.node_mem p rfl))
      rw [List.head?_cons, Search.leave_of_ne hlow hne]
      exact h.step_join hstack hspine (hreach p rfl) hpiece hxbelow heq hpath

/-! ### Runs -/

/-- **Every search keeps the invariant** until no frame is left. -/
theorem walk (h : Invariant a accept roots s frames) :
    Invariant a accept roots (walk a accept s frames) [] := by
  fun_induction Adjacency.walk a accept s frames with
  | case1 s => exact h
  | case2 s v frames ih => exact ih h.step_leave
  | case3 s v w rest frames hw ih => exact ih (h.step_enter hw.1 hw.2)
  | case4 s v w rest frames _ hw ih => exact ih (h.step_lower hw.1 hw.2)
  | case5 s v w rest frames hnew hwaiting ih => exact ih (h.step_skip hnew hwaiting)

theorem visit {root : Nat} (h : Invariant a accept roots s []) (hroot : root ∈ roots)
    (haccept : accept root = true) : Invariant a accept roots (visit a accept s root) [] := by
  unfold Adjacency.visit
  split
  case isTrue hnew =>
    refine (h.enter hnew ⟨root, hroot, .refl⟩ ?_).walk
    exact (h.spine_enter hnew).push haccept (fun p hp => absurd hp (by simp)) (h.low_enter hnew)
  case isFalse => exact h

end Invariant

theorem isEntered_walk (h : s.IsEntered v) : (walk a accept s frames).IsEntered v := by
  fun_induction walk a accept s frames with
  | case1 s => exact h
  | case2 s u frames ih =>
    refine ih ?_
    rwa [Search.IsEntered, Search.index_leave]
  | case3 s u w rest frames hw ih => exact ih ((Search.isEntered_enter hw.2).mpr (.inr h))
  | case4 s u w rest frames _ _ ih => exact ih h
  | case5 s u w rest frames _ _ ih => exact ih h

theorem isEntered_visit (h : s.IsEntered v) (root : Nat) : (visit a accept s root).IsEntered v := by
  unfold visit
  split
  case isTrue hnew => exact isEntered_walk ((Search.isEntered_enter hnew).mpr (.inr h))
  case isFalse => exact h

theorem isEntered_visit_self {root : Nat} (hroot : root < s.index.size) :
    (visit a accept s root).IsEntered root := by
  unfold visit
  split
  case isTrue hnew => exact isEntered_walk ((Search.isEntered_enter hnew).mpr (.inl rfl))
  case isFalse hold => exact Search.isEntered_of_not_isNew hroot hold

/-- Searching from one root after the other enters all of them. -/
theorem Invariant.foldl_visit {roots rs : List Nat} (h : Invariant a accept roots s [])
    (hrs : ∀ r ∈ rs, r ∈ roots ∧ accept r = true) :
    Invariant a accept roots (rs.foldl (a.visit accept) s) [] ∧
      ∀ v < a.size, s.IsEntered v ∨ v ∈ rs → (rs.foldl (a.visit accept) s).IsEntered v := by
  induction rs generalizing s with
  | nil => exact ⟨h, fun v _ hv => hv.resolve_right List.not_mem_nil⟩
  | cons r rs ih =>
    have hr := hrs r List.mem_cons_self
    obtain ⟨hinv, hentered⟩ := ih (h.visit hr.1 hr.2) fun r' hr' =>
      hrs r' (List.mem_cons_of_mem _ hr')
    refine ⟨hinv, fun v hlt hv => hentered v hlt ?_⟩
    rcases hv with hv | hv
    · exact .inl (isEntered_visit hv r)
    rcases List.mem_cons.mp hv with rfl | hv
    · exact .inl (isEntered_visit_self (h.size_index ▸ hlt))
    · exact .inr hv

end Recalc.Adjacency
