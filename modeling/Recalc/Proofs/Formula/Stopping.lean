/-
Recalc/Proofs/Formula/Stopping.lean

The parser stops, and it stops before the end.  Whatever tokens a formula has, the steps
allowed are enough, and nothing behind the end of the formula is ever looked at:

    expression ctx (ts ++ behind) = (expression ctx ts).map (with `behind` left over).

Design.  Both facts are one statement about two runs (`LeavesUnread`): the first on the
tokens of the formula with some steps, the second with more tokens behind the end and more
steps.  Both come to the same, neither for want of steps, and the second has the additional
tokens left.  Without additional tokens this says that more steps change nothing.  A run on
`k` tokens needs ten steps for each and at most nine more, by the function it starts with;
one induction on the steps of the first run carries all functions (`stopsAt`).
-/
import Recalc.Proofs.Formula.Derivation
import Recalc.Proofs.Formula.Positions

namespace Recalc.Parser

variable {ctx : FormulaContext} {behind : List Token} {b c d : Cursor} {e : Expr} {s : String}
  {pos fuel fuel' n : Nat}

/-! ### Cursors before the end -/

namespace Cursor

/-- The end of the formula is still ahead. -/
def Bounded (c : Cursor) : Prop := ∃ t ∈ c.rest, t.kind = .eof

/-- The cursor with more tokens behind its own. -/
def followedBy (c : Cursor) (behind : List Token) : Cursor := { c with rest := c.rest ++ behind }

theorem Bounded.exists_cons (h : c.Bounded) : ∃ t rest, c.rest = t :: rest := by
  obtain ⟨t, ht, -⟩ := h
  exact List.exists_cons_of_ne_nil (List.ne_nil_of_mem ht)

/-- Before the end, the next token does not depend on what is behind it. -/
theorem Bounded.token_followedBy (h : c.Bounded) (behind : List Token) :
    (c.followedBy behind).token = c.token := by
  obtain ⟨t, rest, hrest⟩ := h.exists_cons
  simp [token, followedBy, hrest]

theorem Bounded.kind_followedBy (h : c.Bounded) (behind : List Token) :
    (c.followedBy behind).kind = c.kind := congrArg Token.kind (h.token_followedBy behind)

theorem Bounded.skip_followedBy (h : c.Bounded) (behind : List Token) :
    (c.followedBy behind).skip = c.skip.followedBy behind := by
  obtain ⟨t, rest, hrest⟩ := h.exists_cons
  obtain ⟨_, flagged⟩ := c
  obtain rfl := hrest
  obtain ⟨kind, pos, length⟩ := t
  cases kind <;> rfl

/-- The end is never skipped. -/
theorem Bounded.skip (h : c.Bounded) : c.skip.Bounded := by
  unfold Cursor.skip
  split
  case h_1 => exact h
  case h_2 => exact h
  case h_3 t rest hne hrest =>
    obtain ⟨u, hu, heof⟩ := h
    rw [hrest] at hu
    rcases List.mem_cons.mp hu with rfl | hu
    · exact absurd rfl (heof ▸ hne u.pos u.length)
    · exact ⟨u, hu, heof⟩

theorem length_skip (h : c.kind ≠ .eof) : c.skip.rest.length + 1 = c.rest.length := by
  obtain ⟨rest, flagged⟩ := c
  cases rest with
  | nil => exact absurd rfl h
  | cons t rest =>
    obtain ⟨kind, pos, length⟩ := t
    cases kind <;> first | rfl | exact absurd rfl h

/-- On the way from one cursor to another no token is passed back over, nor is the end. -/
structure Leads (c d : Cursor) : Prop where
  suffix : d.rest <:+ c.rest
  bounded : d.Bounded

/-- On the way from one cursor to another some token is passed over. -/
structure Passes (c d : Cursor) : Prop extends c.Leads d where
  shorter : d.rest.length < c.rest.length

theorem Bounded.leads (h : c.Bounded) : c.Leads c := ⟨List.suffix_refl _, h⟩

theorem Leads.length_le (h : c.Leads d) : d.rest.length ≤ c.rest.length := h.suffix.length_le

theorem Leads.trans (h : b.Leads c) (h' : c.Leads d) : b.Leads d :=
  ⟨h'.suffix.trans h.suffix, h'.bounded⟩

theorem Leads.skip (h : c.Leads d) : c.Leads d.skip :=
  ⟨d.suffix_skip.trans h.suffix, h.bounded.skip⟩

theorem Passes.trans (h : b.Passes c) (h' : c.Leads d) : b.Passes d :=
  ⟨h.toLeads.trans h', Nat.lt_of_le_of_lt h'.length_le h.shorter⟩

/-- Behind the next token, which is not the end. -/
theorem Passes.of_skip (hc : c.kind ≠ .eof) (h : c.skip.Leads d) : c.Passes d := by
  have hlength := length_skip hc
  have hle := h.length_le
  exact ⟨⟨h.suffix.trans c.suffix_skip, h.bounded⟩, by omega⟩

end Cursor

/-! ### Two runs -/

/-- Two runs of a part of the parser, the second with more tokens behind the end of the formula:
they come to the same, but not because steps were lacking, and the second run has the additional
tokens left. -/
inductive LeavesUnread {α : Type} (behind : List Token) (P : Cursor → Prop) :
    Except FormulaError (α × Cursor) → Except FormulaError (α × Cursor) → Prop
  | ok {a : α} {d : Cursor} (h : P d) :
      LeavesUnread behind P (.ok (a, d)) (.ok (a, d.followedBy behind))
  | error {e : FormulaError} (h : ∀ pos, e ≠ .parse pos .tooDeep) :
      LeavesUnread behind P (.error e) (.error e)

namespace LeavesUnread

variable {α β : Type} {P Q : Cursor → Prop} {x y : Except FormulaError (α × Cursor)}

theorem bind {f g : α × Cursor → Except FormulaError (β × Cursor)} (h : LeavesUnread behind P x y)
    (hfg : ∀ a d, P d → LeavesUnread behind Q (f (a, d)) (g (a, d.followedBy behind))) :
    LeavesUnread behind Q (x >>= f) (y >>= g) := by
  cases h with
  | ok h => exact hfg _ _ h
  | error h => exact .error h

theorem imp (h : LeavesUnread behind P x y) (hPQ : ∀ d, P d → Q d) : LeavesUnread behind Q x y := by
  cases h with
  | ok h => exact .ok (hPQ _ h)
  | error h => exact .error h

/-- A fault at a token, which is none of lacking steps. -/
theorem failAt {fault : SyntaxFault} (h : fault ≠ .tooDeep) (t : Token) :
    LeavesUnread (α := α) behind P (Parser.failAt t fault) (Parser.failAt t fault) := by
  refine .error ?_
  intro pos heq
  exact h (FormulaError.parse.inj heq).2

theorem of_ok {a : α} (h : LeavesUnread behind P x y) (hx : x = .ok (a, d)) : P d := by
  cases h with
  | ok h =>
    obtain ⟨-, rfl⟩ := Prod.mk.inj (Except.ok.inj hx)
    exact h
  | error => cases hx

theorem ne_tooDeep (h : LeavesUnread behind P x y) (pos : Nat) :
    x ≠ .error (.parse pos .tooDeep) := by
  intro heq
  cases h with
  | ok => cases heq
  | error h => exact h pos (Except.error.inj heq)

theorem eq_map (h : LeavesUnread behind P x y) :
    y = x.map fun p => (p.1, p.2.followedBy behind) := by
  cases h <;> rfl

/-- With no more tokens the second run comes to the same. -/
theorem eq_of_nil (h : LeavesUnread [] P x y) : y = x := by
  cases h with
  | @ok a d _ =>
    obtain ⟨rest, flagged⟩ := d
    rw [Cursor.followedBy, List.append_nil]
  | error => rfl

end LeavesUnread

/-! ### References -/

theorem unread_resolveAt {sheet : Option String} (hc : c.Bounded) :
    LeavesUnread behind c.Leads (resolveAt ctx sheet s pos c)
      (resolveAt ctx sheet s pos (c.followedBy behind)) := by
  unfold resolveAt
  extract_lets text
  split
  case h_1 r hr => exact .ok hc.leads
  case h_2 => exact .error (by simp)

theorem unread_reference {sheet : Option String} (hc : c.Bounded) :
    LeavesUnread behind c.Leads (reference ctx sheet s pos c)
      (reference ctx sheet s pos (c.followedBy behind)) := by
  unfold reference
  rw [hc.kind_followedBy, hc.skip_followedBy, hc.skip.token_followedBy, hc.skip.skip_followedBy]
  split
  case h_1 =>
    extract_lets last
    split
    case h_1 lastText _ =>
      exact (unread_resolveAt hc.skip.skip).imp fun d hd => hc.leads.skip.skip.trans hd
    case h_2 => exact .failAt (by simp) _
  case h_2 => exact unread_resolveAt hc

theorem unread_qualified {sheet : String} (hc : c.Bounded) :
    LeavesUnread behind c.Leads (qualified ctx sheet pos c)
      (qualified ctx sheet pos (c.followedBy behind)) := by
  unfold qualified
  rw [hc.kind_followedBy, hc.skip_followedBy, hc.skip.token_followedBy, hc.skip.skip_followedBy]
  split
  case h_1 =>
    extract_lets t
    split
    case h_1 => exact (unread_reference hc.skip.skip).imp fun d hd => hc.leads.skip.skip.trans hd
    case h_2 => exact .failAt (by simp) _
  case h_2 => exact .error (by simp)

/-! ### Arrays -/

theorem unread_signedConstant (sign : Float → Float) (hc : c.Bounded) :
    LeavesUnread behind c.Passes (signedConstant sign c)
      (signedConstant sign (c.followedBy behind)) := by
  unfold signedConstant
  rw [hc.kind_followedBy, hc.skip_followedBy, hc.token_followedBy]
  split
  case h_1 x _ hx => exact .ok (.of_skip (by simp [hx]) hc.skip.leads)
  case h_2 => exact .failAt (by simp) _

theorem unread_constant (hc : c.Bounded) :
    LeavesUnread behind c.Passes (constant c) (constant (c.followedBy behind)) := by
  have hskip (hk : c.kind ≠ .eof) : c.Passes c.skip := .of_skip hk hc.skip.leads
  unfold constant
  rw [hc.kind_followedBy, hc.skip_followedBy, hc.token_followedBy]
  split
  case h_1 hk =>
    exact (unread_signedConstant _ hc.skip).imp fun d hd => (hskip (by simp [hk])).trans hd.toLeads
  case h_2 hk =>
    exact (unread_signedConstant _ hc.skip).imp fun d hd => (hskip (by simp [hk])).trans hd.toLeads
  case h_3 hk => exact .ok (hskip (by simp [hk]))
  case h_4 hk => exact .ok (hskip (by simp [hk]))
  case h_5 hk => exact .ok (hskip (by simp [hk]))
  case h_6 name hk =>
    split
    · exact .ok (hskip (by simp [hk]))
    · exact .failAt (by simp) _
  case h_7 => exact .failAt (by simp) _

/-- Every element takes a token, and so does what separates it from the next. -/
theorem unread_arrayRows (hc : c.Bounded) (hfuel : c.rest.length ≤ fuel) (hle : fuel ≤ fuel') :
    LeavesUnread behind c.Passes (arrayRows fuel c) (arrayRows fuel' (c.followedBy behind)) := by
  induction fuel generalizing c fuel' with
  | zero =>
    obtain ⟨t, rest, hrest⟩ := hc.exists_cons
    rw [hrest] at hfuel
    exact absurd hfuel (Nat.not_succ_le_zero _)
  | succ fuel ih =>
    cases fuel' with
    | zero => exact absurd hle (Nat.not_succ_le_zero _)
    | succ fuel' =>
      rw [arrayRows, arrayRows]
      refine (unread_constant hc).bind ?_
      intro v d hd
      have hmore (hk : d.kind ≠ .eof) : LeavesUnread behind d.Passes (arrayRows fuel d.skip)
          (arrayRows fuel' (d.skip.followedBy behind)) := by
        have hlength := Cursor.length_skip hk
        have hshorter := hd.shorter
        refine (ih hd.bounded.skip (by omega) (Nat.le_of_succ_le_succ hle)).imp fun d' hd' => ?_
        exact .of_skip hk hd'.toLeads
      dsimp only
      rw [hd.bounded.kind_followedBy, hd.bounded.skip_followedBy, hd.bounded.token_followedBy]
      split
      case h_1 hk =>
        refine (hmore (by simp [hk])).bind ?_
        intro rows d' hd'
        cases rows with
        | nil => exact .ok (hd.trans hd'.toLeads)
        | cons row rows => exact .ok (hd.trans hd'.toLeads)
      case h_2 hk =>
        refine (hmore (by simp [hk])).bind ?_
        intro rows d' hd'
        exact .ok (hd.trans hd'.toLeads)
      case h_3 => exact .ok (hd.trans hd.bounded.leads.skip)
      case h_4 => exact .failAt (by simp) _

theorem unread_array (hc : c.Bounded) :
    LeavesUnread behind c.Leads (array pos c) (array pos (c.followedBy behind)) := by
  have hle : c.rest.length ≤ (c.followedBy behind).rest.length := by
    simp [Cursor.followedBy]
  rw [array, array]
  refine (unread_arrayRows hc (Nat.le_refl _) hle).bind ?_
  intro rows d hd
  dsimp only
  split
  · exact .ok hd.toLeads
  · exact .error (by simp)

/-! ### Calls and percent signs -/

theorem unread_call {args : List Expr} (hc : c.Bounded) :
    LeavesUnread behind c.Leads (call ctx s args pos c)
      (call ctx s args pos (c.followedBy behind)) := by
  have hflag (u : Unsupported) : c.Leads (c.flag u) := ⟨List.suffix_refl _, hc⟩
  unfold call
  extract_lets function
  split
  case h_1 => exact .ok (hflag ⟨pos, function, .unknownFunction⟩)
  case h_2 spec _ =>
    split
    case h_1 => exact .error (by simp)
    case h_2 =>
      split
      case isTrue =>
        split
        case h_1 => exact .ok hc.leads
        case h_2 => exact .ok (hflag ⟨pos, function, .dynamicReference⟩)
      case isFalse => exact .ok hc.leads

/-- Percent signs end before the end of the formula. -/
theorem percents_append {ts : List Token} (h : ∃ t ∈ ts, t.kind = .eof) (e : Expr)
    (behind : List Token) : (percents e ts).2 <:+ ts ∧ (∃ t ∈ (percents e ts).2, t.kind = .eof) ∧
      percents e (ts ++ behind) = ((percents e ts).1, (percents e ts).2 ++ behind) := by
  induction ts generalizing e with
  | nil =>
    obtain ⟨t, ht, -⟩ := h
    exact absurd ht List.not_mem_nil
  | cons t ts ih =>
    rw [List.cons_append, percents, percents]
    split
    case h_1 hpercent =>
      have hrest : ∃ u ∈ ts, u.kind = .eof := by
        obtain ⟨u, hu, heof⟩ := h
        rcases List.mem_cons.mp hu with rfl | hu
        · rw [hpercent] at heof
          cases heof
        · exact ⟨u, hu, heof⟩
      obtain ⟨hsuffix, hbounded, heq⟩ := ih hrest (.unary .percent e)
      exact ⟨hsuffix.trans (List.suffix_cons _ _), hbounded, heq⟩
    case h_2 => exact ⟨List.suffix_refl _, h, rfl⟩

/-! ### Expressions -/

/-- What the functions of the parser do on given steps, if these are enough for the tokens left. -/
structure StopsAt (ctx : FormulaContext) (behind : List Token) (fuel : Nat) : Prop where
  level : ∀ {n fuel' c}, n ≤ topLevel → c.Bounded → 10 * c.rest.length + n + 4 ≤ fuel →
    fuel ≤ fuel' → LeavesUnread behind c.Passes (level ctx fuel n c)
      (level ctx fuel' n (c.followedBy behind))
  chain : ∀ {n fuel' left c}, n < topLevel → c.Bounded → 10 * c.rest.length + 1 ≤ fuel →
    fuel ≤ fuel' → LeavesUnread behind c.Leads (chain ctx fuel n left c)
      (chain ctx fuel' n left (c.followedBy behind))
  power : ∀ {fuel' c}, c.Bounded → 10 * c.rest.length + 3 ≤ fuel → fuel ≤ fuel' →
    LeavesUnread behind c.Passes (power ctx fuel c) (power ctx fuel' (c.followedBy behind))
  signed : ∀ {fuel' c}, c.Bounded → 10 * c.rest.length + 2 ≤ fuel → fuel ≤ fuel' →
    LeavesUnread behind c.Passes (signed ctx fuel c) (signed ctx fuel' (c.followedBy behind))
  primary : ∀ {fuel' c}, c.Bounded → 10 * c.rest.length + 1 ≤ fuel → fuel ≤ fuel' →
    LeavesUnread behind c.Passes (primary ctx fuel c) (primary ctx fuel' (c.followedBy behind))
  arguments : ∀ {fuel' c}, c.Bounded → 10 * c.rest.length + 9 ≤ fuel → fuel ≤ fuel' →
    LeavesUnread behind c.Passes (arguments ctx fuel c) (arguments ctx fuel' (c.followedBy behind))

section Step

variable (ih : StopsAt ctx behind fuel) (hle : fuel ≤ fuel') (hc : c.Bounded)

include ih hle hc

theorem unread_level (hn : n ≤ topLevel) (hfuel : 10 * c.rest.length + n + 4 ≤ fuel + 1) :
    LeavesUnread behind c.Passes (level ctx (fuel + 1) n c)
      (level ctx (fuel' + 1) n (c.followedBy behind)) := by
  cases n with
  | zero =>
    rw [level, level]
    exact ih.power hc (by omega) hle
  | succ n =>
    rw [level, level]
    refine (ih.level (Nat.le_of_succ_le hn) hc (by omega) hle).bind ?_
    intro left d hd
    have hshorter := hd.shorter
    exact (ih.chain hn hd.bounded (by omega) hle).imp fun d' hd' => hd.trans hd'

theorem unread_chain {left : Expr} (hn : n < topLevel) (hfuel : 10 * c.rest.length + 1 ≤ fuel + 1) :
    LeavesUnread behind c.Leads (chain ctx (fuel + 1) n left c)
      (chain ctx (fuel' + 1) n left (c.followedBy behind)) := by
  rw [chain, chain, hc.kind_followedBy, hc.skip_followedBy]
  rw [topLevel] at hn
  split
  case h_1 op hop =>
    have hlength := Cursor.length_skip (eq_token_of_operator? hop).2.2.2.2
    refine (ih.level (Nat.le_of_lt hn) hc.skip (by omega) hle).bind ?_
    intro right d hd
    have hshorter := hd.shorter
    refine (ih.chain hn hd.bounded (by omega) hle).imp fun d' hd' => ?_
    exact (hc.leads.skip.trans hd.toLeads).trans hd'
  case h_2 => exact .ok hc.leads

theorem unread_power (hfuel : 10 * c.rest.length + 3 ≤ fuel + 1) :
    LeavesUnread behind c.Passes (power ctx (fuel + 1) c)
      (power ctx (fuel' + 1) (c.followedBy behind)) := by
  rw [power, power]
  refine (ih.signed hc (by omega) hle).bind ?_
  intro base d hd
  dsimp only
  rw [hd.bounded.kind_followedBy, hd.bounded.skip_followedBy]
  split
  case h_1 hcaret =>
    have hlength := Cursor.length_skip (c := d) (by simp [hcaret])
    have hshorter := hd.shorter
    refine (ih.power hd.bounded.skip (by omega) hle).bind ?_
    intro exponent d' hd'
    exact .ok (hd.trans (hd.bounded.leads.skip.trans hd'.toLeads))
  case h_2 => exact .ok hd

theorem unread_signed (hfuel : 10 * c.rest.length + 2 ≤ fuel + 1) :
    LeavesUnread behind c.Passes (signed ctx (fuel + 1) c)
      (signed ctx (fuel' + 1) (c.followedBy behind)) := by
  -- behind a sign, which takes a token
  have hsign (hk : c.kind ≠ .eof) : LeavesUnread behind c.Passes (signed ctx fuel c.skip)
      (signed ctx fuel' (c.skip.followedBy behind)) := by
    have hlength := Cursor.length_skip hk
    exact (ih.signed hc.skip (by omega) hle).imp fun d hd => .of_skip hk hd.toLeads
  rw [signed, signed, hc.kind_followedBy, hc.skip_followedBy]
  split
  case h_1 hplus =>
    refine (hsign (by simp [hplus])).bind ?_
    intro operand d hd
    exact .ok hd
  case h_2 hminus =>
    refine (hsign (by simp [hminus])).bind ?_
    intro operand d hd
    exact .ok hd
  case h_3 =>
    refine (ih.primary hc (by omega) hle).bind ?_
    intro operand d hd
    obtain ⟨hsuffix, hbounded, heq⟩ := percents_append hd.bounded operand behind
    dsimp only [Cursor.followedBy]
    rw [heq]
    exact .ok (d := ⟨(percents operand d.rest).2, d.flagged⟩) (hd.trans ⟨hsuffix, hbounded⟩)

theorem unread_primary (hfuel : 10 * c.rest.length + 1 ≤ fuel + 1) :
    LeavesUnread behind c.Passes (primary ctx (fuel + 1) c)
      (primary ctx (fuel' + 1) (c.followedBy behind)) := by
  -- every operand takes its first token
  have hfirst {x y : Except FormulaError (Expr × Cursor)} (hk : c.kind ≠ .eof)
      (h : LeavesUnread behind c.skip.Leads x y) : LeavesUnread behind c.Passes x y :=
    h.imp fun d hd => .of_skip hk hd
  have hskip := hc.skip
  rw [primary, primary]
  dsimp only
  rw [hc.token_followedBy, hc.skip_followedBy, hskip.kind_followedBy, hskip.skip_followedBy,
    hskip.skip.kind_followedBy, hskip.skip.skip_followedBy]
  split
  case h_1 x spelling hx =>
    have hk : c.kind ≠ .eof := by simp [Cursor.kind, hx]
    split
    case h_1 => exact hfirst hk (unread_reference hskip)
    case h_2 => exact hfirst hk (.ok hskip.leads)
  case h_2 s hs => exact hfirst (by simp [Cursor.kind, hs]) (.ok hskip.leads)
  case h_3 f hf => exact hfirst (by simp [Cursor.kind, hf]) (.ok hskip.leads)
  case h_4 address haddress =>
    exact hfirst (by simp [Cursor.kind, haddress]) (unread_reference hskip)
  case h_5 sheet hsheet => exact hfirst (by simp [Cursor.kind, hsheet]) (unread_qualified hskip)
  case h_6 name hname =>
    -- a call looks two tokens ahead; behind an opening parenthesis the end is still to come
    have hk : c.kind ≠ .eof := by simp [Cursor.kind, hname]
    split
    case h_1 => exact hfirst hk (unread_qualified hskip)
    case h_2 hopen =>
      have hbehind := hskip.leads.skip
      split
      case h_1 =>
        exact hfirst hk ((unread_call hbehind.skip.bounded).imp fun d hd => hbehind.skip.trans hd)
      case h_2 =>
        have hlength := Cursor.length_skip hk
        have hlength' := Cursor.length_skip (c := c.skip) (by simp [hopen])
        refine hfirst hk ((ih.arguments hbehind.bounded (by omega) hle).bind ?_)
        intro args d hd
        exact (unread_call hd.bounded).imp fun d' hd' => (hbehind.trans hd.toLeads).trans hd'
    case h_3 => exact hfirst hk (unread_reference hskip)
    case h_4 =>
      split
      case h_1 => exact hfirst hk (.ok hskip.leads)
      case h_2 => exact hfirst hk (unread_reference hskip)
  case h_7 hbrace => exact hfirst (by simp [Cursor.kind, hbrace]) (unread_array hskip)
  case h_8 hopen =>
    have hk : c.kind ≠ .eof := by simp [Cursor.kind, hopen]
    have hlength := Cursor.length_skip hk
    refine hfirst hk ((ih.level (Nat.le_refl _) hskip (by rw [topLevel]; omega) hle).bind ?_)
    intro inner d hd
    dsimp only
    rw [hd.bounded.kind_followedBy, hd.bounded.skip_followedBy, hd.bounded.token_followedBy]
    split
    case h_1 => exact .ok hd.toLeads.skip
    case h_2 => exact .failAt (by simp) _
  case h_9 => exact .failAt (by simp) _
  case h_10 => exact .failAt (by simp) _

/-- An omitted argument takes no token, but what follows it does. -/
theorem unread_argument (hfuel : 10 * c.rest.length + 8 ≤ fuel) :
    LeavesUnread behind c.Leads (argument ctx fuel c)
      (argument ctx fuel' (c.followedBy behind)) := by
  unfold argument
  rw [hc.kind_followedBy]
  split
  case isTrue => exact .ok hc.leads
  case isFalse =>
    exact (ih.level (Nat.le_refl _) hc (by rw [topLevel]; omega) hle).imp fun d hd => hd.toLeads

theorem unread_behindArgument {arg : Expr} (hfuel : 10 * c.rest.length ≤ fuel + 1) :
    LeavesUnread behind c.Passes (behindArgument ctx fuel arg c)
      (behindArgument ctx fuel' arg (c.followedBy behind)) := by
  -- a separator leads to more arguments
  have hmore (hk : c.kind ≠ .eof) : LeavesUnread behind c.Passes
      (arguments ctx fuel c.skip >>= fun p => return (arg :: p.1, p.2))
      (arguments ctx fuel' (c.skip.followedBy behind) >>= fun p => return (arg :: p.1, p.2)) := by
    have hlength := Cursor.length_skip hk
    refine (ih.arguments hc.skip (by omega) hle).bind ?_
    intro args d hd
    exact .ok (.of_skip hk hd.toLeads)
  unfold behindArgument
  rw [hc.kind_followedBy, hc.skip_followedBy, hc.token_followedBy]
  split
  case h_1 hcomma => exact hmore (by simp [hcomma])
  case h_2 hsemicolon => exact hmore (by simp [hsemicolon])
  case h_3 hclose => exact .ok (.of_skip (by simp [hclose]) hc.skip.leads)
  case h_4 => exact .failAt (by simp) _

theorem unread_arguments (hfuel : 10 * c.rest.length + 9 ≤ fuel + 1) :
    LeavesUnread behind c.Passes (arguments ctx (fuel + 1) c)
      (arguments ctx (fuel' + 1) (c.followedBy behind)) := by
  rw [arguments_succ, arguments_succ]
  refine (unread_argument ih hle hc (by omega)).bind ?_
  intro arg d hd
  have hlength := hd.length_le
  refine (unread_behindArgument ih hle hd.bounded (by omega)).imp fun d' hd' => ?_
  exact ⟨hd.trans hd'.toLeads, Nat.lt_of_lt_of_le hd'.shorter hlength⟩

end Step

theorem stopsAt (ctx : FormulaContext) (behind : List Token) (fuel : Nat) :
    StopsAt ctx behind fuel := by
  induction fuel with
  | zero =>
    refine ⟨fun _ _ hfuel => ?_, fun _ _ hfuel => ?_, fun _ hfuel => ?_, fun _ hfuel => ?_,
      fun _ hfuel => ?_, fun _ hfuel => ?_⟩
    all_goals exact absurd hfuel (Nat.not_succ_le_zero _)
  | succ fuel ih =>
    have hmore {fuel' : Nat} (hle : fuel + 1 ≤ fuel') : ∃ k, fuel' = k + 1 ∧ fuel ≤ k := by
      obtain ⟨k, rfl⟩ := Nat.exists_eq_add_of_le hle
      exact ⟨fuel + k, by omega, Nat.le_add_right _ _⟩
    constructor
    · intro n fuel' c hn hc hfuel hle
      obtain ⟨k, rfl, hk⟩ := hmore hle
      exact unread_level ih hk hc hn hfuel
    · intro n fuel' left c hn hc hfuel hle
      obtain ⟨k, rfl, hk⟩ := hmore hle
      exact unread_chain ih hk hc hn hfuel
    · intro fuel' c hc hfuel hle
      obtain ⟨k, rfl, hk⟩ := hmore hle
      exact unread_power ih hk hc hfuel
    · intro fuel' c hc hfuel hle
      obtain ⟨k, rfl, hk⟩ := hmore hle
      exact unread_signed ih hk hc hfuel
    · intro fuel' c hc hfuel hle
      obtain ⟨k, rfl, hk⟩ := hmore hle
      exact unread_primary ih hk hc hfuel
    · intro fuel' c hc hfuel hle
      obtain ⟨k, rfl, hk⟩ := hmore hle
      exact unread_arguments ih hk hc hfuel

/-! ### Formulas -/

/-- The parser comes to an end on a token list, and sees nothing behind the end of the formula. -/
structure StopsWithin (ctx : FormulaContext) (ts : List Token) : Prop where
  /-- More steps than are allowed change nothing. -/
  enough : ∀ fuel, allowance ts ≤ fuel → level ctx fuel topLevel ⟨ts, []⟩ = expression ctx ts
  /-- It never gives up for want of steps. -/
  finished : ∀ pos, expression ctx ts ≠ .error (.parse pos .tooDeep)
  /-- It passes over tokens, but not over the end. -/
  passes : ∀ e c, expression ctx ts = .ok (e, c) → Cursor.Passes ⟨ts, []⟩ c
  /-- Whatever stands behind the end makes no difference and is left over. -/
  blind : ∀ behind, expression ctx (ts ++ behind) =
    (expression ctx ts).map fun p => (p.1, p.2.followedBy behind)

theorem stopsWithin {ts : List Token} (ctx : FormulaContext) (h : ∃ t ∈ ts, t.kind = .eof) :
    StopsWithin ctx ts := by
  have hruns (behind : List Token) {fuel : Nat} (hfuel : allowance ts ≤ fuel) :
      LeavesUnread behind (Cursor.Passes ⟨ts, []⟩) (expression ctx ts)
        (level ctx fuel topLevel ⟨ts ++ behind, []⟩) := by
    refine (stopsAt ctx behind (allowance ts)).level (Nat.le_refl _) h ?_ hfuel
    show 10 * ts.length + 4 + 4 ≤ 10 * (ts.length + 1)
    omega
  have hallowed := hruns [] (Nat.le_refl _)
  constructor
  · intro fuel hfuel
    have hmore := (hruns [] hfuel).eq_of_nil
    rwa [List.append_nil] at hmore
  · exact hallowed.ne_tooDeep
  · exact fun e c => hallowed.of_ok
  · intro behind
    refine (hruns behind ?_).eq_map
    rw [allowance, allowance, List.length_append]
    omega

end Recalc.Parser

namespace Recalc

/-- The tokens of the characters of a formula from the `start`-th on. -/
structure Lexer.Tokenizes (chars : List Char) (start : Nat) (ts : List Token) : Prop where
  tiles : Tiles start (chars.drop start) ts
  increasing : ts.Pairwise fun t u => t.pos < u.pos
  /-- The last token is the only end, behind the text, and the only one that covers nothing. -/
  ends : ∃ before, ts = before ++ [⟨.eof, max start chars.length, 0⟩] ∧
    ∀ t ∈ before, t.kind ≠ .eof ∧ 0 < t.length

/-- **Tokens tile the text, and the parser stays within them.** -/
theorem tokenizes_and_stopsWithin {chars : List Char} {start : Nat} {ts : List Token}
    (h : Lexer.tokens start (chars.drop start) = .ok ts) :
    Lexer.Tokenizes chars start ts ∧ ∀ ctx, Parser.StopsWithin ctx ts := by
  have htiles : Tiles start (chars.drop start) ts := Lexer.tiles_scan (Nat.zero_le _) h
  obtain ⟨before, hts, hbefore⟩ := htiles.exists_stop
  constructor
  · refine ⟨htiles, htiles.pairwise_pos, before, ?_, hbefore⟩
    have hend : start + (chars.drop start).length = max start chars.length := by
      rw [List.length_drop]
      omega
    rw [hts, hend]
  · intro ctx
    refine Parser.stopsWithin ctx ⟨⟨.eof, start + (chars.drop start).length, 0⟩, ?_, rfl⟩
    rw [hts]
    exact List.mem_append_right _ List.mem_cons_self

/-- Quotes in quotes, an exponent and one that is none, a name that only starts like a cell and
one that is a cell of no sheet, a fault in small letters, and blanks. -/
def assorted : List Char :=
  "x= -'It''s'!$A$1+ 1.5e3%&\"a\"\"b\"<>SUM(A1:B2,,#n/a) XFE1 A1b 2E ".toList

theorem tokenizes_and_stopsWithin_assorted :
    ∃ ts, Lexer.tokens 2 (assorted.drop 2) = .ok ts ∧
      Lexer.Tokenizes assorted 2 ts ∧ ∀ ctx, Parser.StopsWithin ctx ts := by
  have hsome : (Lexer.tokens 2 (assorted.drop 2)).toOption.isSome = true := by decide +kernel
  cases hread : Lexer.tokens 2 (assorted.drop 2) with
  | ok ts => exact ⟨ts, rfl, tokenizes_and_stopsWithin hread⟩
  | error e =>
    rw [hread] at hsome
    cases hsome

example : (Lexer.tokens 2 (assorted.drop 2)).toOption.map (·.map fun t => (t.pos, t.length)) =
    some [(3, 1), (4, 7), (11, 1), (12, 4), (16, 1), (18, 5), (23, 1), (24, 1), (25, 6), (31, 2),
      (33, 3), (36, 1), (37, 2), (39, 1), (40, 2), (42, 1), (43, 1), (44, 4), (48, 1), (50, 4),
      (55, 3), (59, 1), (60, 1), (62, 0)] := by decide +kernel

end Recalc
