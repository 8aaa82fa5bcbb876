/-
Recalc/Proofs/Formula/Derivation.lean

What the parser accepts.  Whatever a function of the parser returns is the tree of the tokens
that it passed over, with the strength that belongs to the function (`derivesAt`).  With the
other direction, `Renders.readAt`, the parser accepts exactly the grammar
(`Parser.followsGrammar`).

Design.  As in `Reading`, the functions call each other on less fuel, and `DerivesAt` is what
one induction on the fuel carries for all of them.  A chain is given the text of what stands
on its left, and makes it longer.
-/
import Recalc.Proofs.Formula.Grammar

namespace Recalc.Parser

variable {ctx : FormulaContext} {c c' d : Cursor} {n fuel pos : Nat} {k : TokenKind}
  {kinds ks : List TokenKind} {e : Expr} {s : String}

/-! ### Cursors -/

/-- The cursor moves over tokens of these kinds. -/
def Cursor.Moves (c : Cursor) (kinds : List TokenKind) (c' : Cursor) : Prop :=
  c.kinds = kinds ++ c'.kinds

namespace Cursor.Moves

theorem refl (c : Cursor) : c.Moves [] c := rfl

theorem trans (h : c.Moves kinds d) (h' : d.Moves ks c') : c.Moves (kinds ++ ks) c' := by
  rw [Cursor.Moves, List.append_assoc, ← h']
  exact h

/-- One token is skipped, unless it is the end. -/
theorem skip (h : c.kind = k) (hk : k ≠ .eof) : c.Moves [k] c.skip := by
  obtain ⟨rest, flagged⟩ := c
  cases rest with
  | nil => exact absurd h.symm hk
  | cons t rest =>
    obtain rfl : t.kind = k := h
    obtain ⟨kind, pos, length⟩ := t
    cases kind <;> first | rfl | exact absurd rfl hk

theorem cons (h : c.kind = k) (hk : k ≠ .eof) (hrest : c.skip.Moves kinds c') :
    c.Moves (k :: kinds) c' := (skip h hk).trans hrest

theorem snoc (h : c.Moves kinds d) (hk : d.kind = k) (hne : k ≠ .eof) :
    c.Moves (kinds ++ [k]) d.skip := h.trans (skip hk hne)

/-- Over no tokens, the next one stays the same. -/
theorem kind_eq (h : c.Moves [] c') : c.kind = c'.kind := by
  have hkind (c : Cursor) : c.kind = c.kinds.headD .eof := by
    obtain ⟨rest, flagged⟩ := c
    cases rest <;> rfl
  rw [hkind c, hkind c', show c.kinds = c'.kinds from h]

end Cursor.Moves

/-- The tokens passed over are a text of the tree. -/
def Derives (ctx : FormulaContext) (n : Nat) (c : Cursor) (e : Expr) (c' : Cursor) : Prop :=
  ∃ kinds, c.Moves kinds c' ∧ Renders ctx n kinds e

/-! ### References -/

/-- A reference takes one part, or two with a colon between them. -/
theorem exists_spells_of_reference {sheet : Option String} (hk : referencePart? k = some s)
    (h : reference ctx sheet s pos c = .ok (e, c')) :
    ∃ kinds t r, c.Moves kinds c' ∧ Spells (k :: kinds) t ∧
      ctx.names.resolve (referenceText sheet t) ctx.sheet = .ok r ∧ e = .reference r ∧
      (kinds = [] → c.kind ≠ .colon) := by
  unfold reference at h
  split at h
  case h_1 hcolon =>
    dsimp only at h
    split at h
    case h_1 last hlast =>
      obtain ⟨r, hr, rfl, rfl⟩ := resolveAt_eq_ok h
      have hmoves := Cursor.Moves.skip (c := c.skip) rfl (ne_eof_of_referencePart? hlast)
      exact ⟨_, _, r, hmoves.cons hcolon (by simp), .pair hk hlast, hr, rfl, by simp⟩
    case h_2 => cases h
  case h_2 hcolon =>
    obtain ⟨r, hr, rfl, rfl⟩ := resolveAt_eq_ok h
    exact ⟨[], s, r, .refl _, .single hk, hr, rfl, fun _ => hcolon⟩

/-- A reference whose first part is the token before the cursor. -/
theorem atom_of_reference (hk : referencePart? k = some s)
    (halone : c.kind ≠ .colon → standsAlone k) (h : reference ctx none s pos c = .ok (e, c')) :
    ∃ kinds, c.Moves kinds c' ∧ Atom ctx (k :: kinds) e := by
  obtain ⟨kinds, t, r, hmoves, hspells, hr, rfl, hcolon⟩ := exists_spells_of_reference hk h
  refine ⟨kinds, hmoves, .reference hspells ?_ hr⟩
  intro k' hk'
  obtain ⟨rfl, hnil⟩ := List.cons.inj hk'
  exact halone (hcolon hnil)

theorem atom_of_qualified {sheet : String} (hk : k = .identifier sheet ∨ k = .sheetName sheet)
    (h : qualified ctx sheet pos c = .ok (e, c')) :
    ∃ kinds, c.Moves kinds c' ∧ Atom ctx (k :: kinds) e := by
  unfold qualified at h
  split at h
  case h_1 hbang =>
    dsimp only at h
    split at h
    case h_1 part hpart =>
      obtain ⟨kinds, t, r, hmoves, hspells, hr, rfl, -⟩ := exists_spells_of_reference hpart h
      have hfirst := hmoves.cons (c := c.skip) rfl (ne_eof_of_referencePart? hpart)
      exact ⟨_, hfirst.cons hbang (by simp), .qualified hk hspells hr⟩
    case h_2 => cases h
  case h_2 => cases h

/-! ### Arrays -/

theorem element_of_signedConstant {sign : Float → Float} {v : Value}
    (h : signedConstant sign c = .ok (v, c')) :
    ∃ x s, c.Moves [.number x s] c' ∧ v = .number (sign x) := by
  unfold signedConstant at h
  split at h
  case h_1 x s hx =>
    obtain ⟨rfl, rfl⟩ := Prod.mk.inj (Except.ok.inj h)
    exact ⟨x, s, .skip hx (by simp), rfl⟩
  case h_2 => cases h

theorem element_of_constant {v : Value} (h : constant c = .ok (v, c')) :
    ∃ kinds, c.Moves kinds c' ∧ Element kinds v := by
  unfold constant at h
  split at h
  case h_1 hminus =>
    obtain ⟨x, s, hmoves, rfl⟩ := element_of_signedConstant h
    exact ⟨_, hmoves.cons hminus (by simp), .negative x s⟩
  case h_2 hplus =>
    obtain ⟨x, s, hmoves, rfl⟩ := element_of_signedConstant h
    exact ⟨_, hmoves.cons hplus (by simp), .positive x s⟩
  case h_3 x s hx =>
    obtain ⟨rfl, rfl⟩ := Prod.mk.inj (Except.ok.inj h)
    exact ⟨_, .skip hx (by simp), .number x s⟩
  case h_4 s hs =>
    obtain ⟨rfl, rfl⟩ := Prod.mk.inj (Except.ok.inj h)
    exact ⟨_, .skip hs (by simp), .text s⟩
  case h_5 f hf =>
    obtain ⟨rfl, rfl⟩ := Prod.mk.inj (Except.ok.inj h)
    exact ⟨_, .skip hf (by simp), .error f⟩
  case h_6 name hname =>
    split at h
    case h_1 b hb =>
      obtain ⟨rfl, rfl⟩ := Prod.mk.inj (Except.ok.inj h)
      exact ⟨_, .skip hname (by simp), .boolean hb⟩
    case h_2 => cases h
  case h_7 => cases h

theorem arrayRows_of_arrayRows {rows : List (List Value)}
    (h : Parser.arrayRows fuel c = .ok (rows, c')) :
    ∃ kinds, c.Moves (kinds ++ [.rightBrace]) c' ∧ ArrayRows kinds rows := by
  induction fuel generalizing c c' rows with
  | zero => cases h
  | succ fuel ih =>
    rw [Parser.arrayRows] at h
    obtain ⟨⟨v, d⟩, hv, h⟩ := ok_of_bind h
    obtain ⟨kinds, hmoves, helement⟩ := element_of_constant hv
    dsimp only at h
    split at h
    case h_1 hcomma =>
      obtain ⟨⟨rest, d'⟩, hrest, h⟩ := ok_of_bind h
      obtain ⟨ks, hmoves', hrows⟩ := ih hrest
      have hall := hmoves.trans (hmoves'.cons hcomma (by simp))
      -- the element joins the first of the rows behind it
      cases rest with
      | nil => cases hrows
      | cons row rest =>
        obtain ⟨rfl, rfl⟩ := Prod.mk.inj (Except.ok.inj h)
        refine ⟨kinds ++ .comma :: ks, ?_, .comma helement hrows⟩
        rwa [List.append_assoc]
    case h_2 hsemicolon =>
      obtain ⟨⟨rest, d'⟩, hrest, h⟩ := ok_of_bind h
      obtain ⟨ks, hmoves', hrows⟩ := ih hrest
      have hall := hmoves.trans (hmoves'.cons hsemicolon (by simp))
      obtain ⟨rfl, rfl⟩ := Prod.mk.inj (Except.ok.inj h)
      refine ⟨kinds ++ .semicolon :: ks, ?_, .semicolon helement hrows⟩
      rwa [List.append_assoc]
    case h_3 hbrace =>
      obtain ⟨rfl, rfl⟩ := Prod.mk.inj (Except.ok.inj h)
      exact ⟨kinds, hmoves.snoc hbrace (by simp), .last helement⟩
    case h_4 => cases h

theorem atom_of_array (h : array pos c = .ok (e, c')) :
    ∃ kinds, c.Moves kinds c' ∧ Atom ctx (.leftBrace :: kinds) e := by
  unfold array at h
  obtain ⟨⟨rows, d⟩, hrows, h⟩ := ok_of_bind h
  obtain ⟨kinds, hmoves, hrows⟩ := arrayRows_of_arrayRows hrows
  dsimp only at h
  split at h
  case isTrue hrect =>
    obtain ⟨rfl, rfl⟩ := Prod.mk.inj (Except.ok.inj h)
    exact ⟨_, hmoves, .array hrows hrect⟩
  case isFalse => cases h

/-! ### Calls -/

/-- Where a call stands does not matter to what it is kept as. -/
theorem calls_of_call {f : String} {args : List Expr} (h : call ctx f args pos c = .ok (e, c')) :
    Calls ctx f args e ∧ c'.rest = c.rest := by
  unfold call at h
  dsimp only at h
  split at h
  case h_1 hfind =>
    -- an unknown function is no error, it is flagged
    obtain ⟨rfl, rfl⟩ := Prod.mk.inj (Except.ok.inj h)
    refine ⟨fun pos d => ⟨d.flag ⟨pos, Text.upperAscii f, .unknownFunction⟩, ?_, rfl⟩, rfl⟩
    rw [call, hfind]
  case h_2 spec hfind =>
    split at h
    case h_1 => cases h
    case h_2 harity =>
      split at h
      case isFalse hkind =>
        obtain ⟨rfl, rfl⟩ := Prod.mk.inj (Except.ok.inj h)
        refine ⟨fun pos d => ⟨d, ?_, rfl⟩, rfl⟩
        rw [call, hfind]
        dsimp only
        rw [harity]
        exact if_neg hkind
      case isTrue hkind =>
        -- a reference that can be computed now is a plain one, any other is flagged
        split at h
        case h_1 folded hfolded =>
          obtain ⟨rfl, rfl⟩ := Prod.mk.inj (Except.ok.inj h)
          refine ⟨fun pos d => ⟨d, ?_, rfl⟩, rfl⟩
          rw [call, hfind]
          dsimp only
          rw [harity]
          dsimp only
          rw [if_pos hkind, hfolded]
        case h_2 hnone =>
          obtain ⟨rfl, rfl⟩ := Prod.mk.inj (Except.ok.inj h)
          refine ⟨fun pos d => ⟨d.flag ⟨pos, Text.upperAscii f, .dynamicReference⟩, ?_, rfl⟩, rfl⟩
          rw [call, hfind]
          dsimp only
          rw [harity]
          dsimp only
          rw [if_pos hkind, hnone]

/-- The tokens passed over are those of arguments, up to and with the closing parenthesis. -/
structure DerivesArgs (ctx : FormulaContext) (c : Cursor) (args : List (List TokenKind × Expr))
    (c' : Cursor) : Prop where
  moves : ∃ kinds, c.Moves (kinds ++ [.rightParen]) c' ∧ Separated (args.map Prod.fst) kinds
  renders : ∀ p ∈ args, p.2.isOmitted = false → Renders ctx 0 p.1 p.2
  omitted : ∀ p ∈ args, p.2.isOmitted = true → p.1 = []

/-! ### Expressions -/

/-- What the functions of the parser do on a given allowance. -/
structure DerivesAt (ctx : FormulaContext) (fuel : Nat) : Prop where
  level : ∀ {n c e c'}, n ≤ topLevel → level ctx fuel n c = .ok (e, c') → Derives ctx (4 - n) c e c'
  chain : ∀ {n b left c e c'}, n < topLevel → Derives ctx (3 - n) b left c →
    chain ctx fuel n left c = .ok (e, c') → Derives ctx (3 - n) b e c'
  power : ∀ {c e c'}, power ctx fuel c = .ok (e, c') → Derives ctx 4 c e c'
  signed : ∀ {c e c'}, signed ctx fuel c = .ok (e, c') → Derives ctx 5 c e c'
  primary : ∀ {c e c'}, primary ctx fuel c = .ok (e, c') → Derives ctx 7 c e c'
  arguments : ∀ {c args c'}, arguments ctx fuel c = .ok (args, c') →
    ∃ pieces, DerivesArgs ctx c pieces c' ∧ pieces.map Prod.snd = args ∧
      (args = [.literal .empty] → c.kind = .rightParen)

theorem Derives.mono {m : Nat} (h : Derives ctx n c e c') (hm : m ≤ n) : Derives ctx m c e c' := by
  obtain ⟨kinds, hmoves, hrenders⟩ := h
  exact ⟨kinds, hmoves, hrenders.mono hm⟩

theorem derives_level (ih : DerivesAt ctx fuel) (hn : n ≤ topLevel)
    (h : level ctx (fuel + 1) n c = .ok (e, c')) : Derives ctx (4 - n) c e c' := by
  cases n with
  | zero =>
    rw [level] at h
    exact ih.power h
  | succ n =>
    rw [level] at h
    obtain ⟨⟨left, d⟩, hleft, h⟩ := ok_of_bind h
    have hstart := (ih.level (Nat.le_of_succ_le hn) hleft).mono (by omega : 3 - n ≤ 4 - n)
    rw [show 4 - (n + 1) = 3 - n by omega]
    exact ih.chain hn hstart h

/-- The operators of a level, by their strength. -/
theorem eq_token_of_operator? {op : BinaryOp} (h : operator? (n + 1) k = some op) :
    k = op.token ∧ op.leftStrength = 3 - n ∧ op.rightStrength = 4 - n ∧ op.strength = 3 - n ∧
      k ≠ .eof := by
  unfold operator? at h
  split at h
  case h_12 => cases h
  all_goals
    obtain rfl := Option.some.inj h
    rename_i hn
    obtain rfl := Nat.succ.inj hn
    exact ⟨rfl, rfl, rfl, rfl, by simp⟩

theorem derives_chain (ih : DerivesAt ctx fuel) {b : Cursor} {left : Expr} (hn : n < topLevel)
    (hleft : Derives ctx (3 - n) b left c) (h : chain ctx (fuel + 1) n left c = .ok (e, c')) :
    Derives ctx (3 - n) b e c' := by
  rw [chain] at h
  split at h
  case h_1 op hop =>
    obtain ⟨⟨right, d⟩, hright, h⟩ := ok_of_bind h
    obtain ⟨htoken, hl, hr, hstrength, heof⟩ := eq_token_of_operator? hop
    obtain ⟨kinds, hmoves, hrenders⟩ := hleft
    obtain ⟨kinds', hmoves', hrenders'⟩ := ih.level (Nat.le_of_lt hn) hright
    -- the longer chain is the left operand of what follows
    refine ih.chain hn ⟨kinds ++ op.token :: kinds', ?_, ?_⟩ h
    · exact hmoves.trans (hmoves'.cons htoken (htoken ▸ heof))
    · exact .binary op hstrength.ge (hl ▸ hrenders) (hr ▸ hrenders')
  case h_2 =>
    obtain ⟨rfl, rfl⟩ := Prod.mk.inj (Except.ok.inj h)
    exact hleft

theorem derives_power (ih : DerivesAt ctx fuel) (h : power ctx (fuel + 1) c = .ok (e, c')) :
    Derives ctx 4 c e c' := by
  rw [power] at h
  obtain ⟨⟨base, d⟩, hbase, h⟩ := ok_of_bind h
  obtain ⟨kinds, hmoves, hrenders⟩ := ih.signed hbase
  dsimp only at h
  split at h
  case h_1 hcaret =>
    obtain ⟨⟨exponent, d'⟩, hexponent, h⟩ := ok_of_bind h
    obtain ⟨kinds', hmoves', hrenders'⟩ := ih.power hexponent
    obtain ⟨rfl, rfl⟩ := Prod.mk.inj (Except.ok.inj h)
    exact ⟨_, hmoves.trans (hmoves'.cons hcaret (by simp)),
      .binary .power (Nat.le_refl _) hrenders hrenders'⟩
  case h_2 =>
    obtain ⟨rfl, rfl⟩ := Prod.mk.inj (Except.ok.inj h)
    exact ⟨kinds, hmoves, hrenders.mono (by decide)⟩

theorem renders_percents (ts : List Token) (h : Renders ctx 6 kinds e) :
    ∃ ks, ts.map Token.kind = ks ++ (percents e ts).2.map Token.kind ∧
      Renders ctx 6 (kinds ++ ks) (percents e ts).1 := by
  induction ts generalizing kinds e with
  | nil => exact ⟨[], rfl, by rwa [List.append_nil]⟩
  | cons t rest ih =>
    rw [percents]
    split
    case h_1 hpercent =>
      obtain ⟨ks, hks, hrenders⟩ := ih (.percent (Nat.le_refl _) h)
      refine ⟨.percent :: ks, ?_, ?_⟩
      · rw [List.map_cons, hpercent, hks, List.cons_append]
      · rwa [List.append_assoc] at hrenders
    case h_2 => exact ⟨[], rfl, by rwa [List.append_nil]⟩

theorem derives_signed (ih : DerivesAt ctx fuel) (h : signed ctx (fuel + 1) c = .ok (e, c')) :
    Derives ctx 5 c e c' := by
  rw [signed] at h
  split at h
  case h_1 hplus =>
    obtain ⟨⟨operand, d⟩, hoperand, h⟩ := ok_of_bind h
    obtain ⟨kinds, hmoves, hrenders⟩ := ih.signed hoperand
    obtain ⟨rfl, rfl⟩ := Prod.mk.inj (Except.ok.inj h)
    exact ⟨_, hmoves.cons hplus (by simp), .plus (Nat.le_refl _) hrenders⟩
  case h_2 hminus =>
    obtain ⟨⟨operand, d⟩, hoperand, h⟩ := ok_of_bind h
    obtain ⟨kinds, hmoves, hrenders⟩ := ih.signed hoperand
    obtain ⟨rfl, rfl⟩ := Prod.mk.inj (Except.ok.inj h)
    exact ⟨_, hmoves.cons hminus (by simp), .negate (Nat.le_refl _) hrenders⟩
  case h_3 =>
    obtain ⟨⟨operand, d⟩, hoperand, h⟩ := ok_of_bind h
    obtain ⟨kinds, hmoves, hrenders⟩ := ih.primary hoperand
    obtain ⟨ks, hks, hpercents⟩ := renders_percents d.rest (hrenders.mono (by decide : 6 ≤ 7))
    obtain ⟨rfl, rfl⟩ := Prod.mk.inj (Except.ok.inj h)
    exact ⟨_, hmoves.trans hks, hpercents.mono (by decide)⟩

/-- An operand behind its first token. -/
theorem Derives.of_atom (hk : c.kind = k) (heof : k ≠ .eof)
    (h : ∃ kinds, c.skip.Moves kinds c' ∧ Atom ctx (k :: kinds) e) : Derives ctx n c e c' := by
  obtain ⟨kinds, hmoves, hatom⟩ := h
  exact ⟨_, hmoves.cons hk heof, .atom hatom⟩

theorem derives_emptyCall (hs : c.kind = .identifier s) (hopen : c.skip.kind = .leftParen)
    (hclose : c.skip.skip.kind = .rightParen)
    (h : call ctx s [] pos c.skip.skip.skip = .ok (e, c')) : Derives ctx n c e c' := by
  obtain ⟨hcalls, hrest⟩ := calls_of_call h
  have hend : c.skip.skip.skip.Moves [] c' := (congrArg (List.map Token.kind) hrest).symm
  have hmoves := ((hend.cons hclose (by simp)).cons hopen (by simp)).cons hs (by simp)
  exact ⟨_, hmoves, .emptyCall hcalls⟩

theorem derives_call {args : List (List TokenKind × Expr)} (hs : c.kind = .identifier s)
    (hopen : c.skip.kind = .leftParen) (hargs : DerivesArgs ctx c.skip.skip args d)
    (hsole : args.map Prod.snd ≠ [.literal .empty])
    (h : call ctx s (args.map Prod.snd) pos d = .ok (e, c')) : Derives ctx n c e c' := by
  obtain ⟨hcalls, hrest⟩ := calls_of_call h
  obtain ⟨kinds, hmoves, hseparated⟩ := hargs.moves
  have hend : d.Moves [] c' := (congrArg (List.map Token.kind) hrest).symm
  have hbehind := hmoves.trans hend
  rw [List.append_nil] at hbehind
  exact ⟨_, (hbehind.cons hopen (by simp)).cons hs (by simp),
    .call hseparated hargs.renders hargs.omitted hsole hcalls⟩

theorem derives_primary (ih : DerivesAt ctx fuel) (h : primary ctx (fuel + 1) c = .ok (e, c')) :
    Derives ctx 7 c e c' := by
  rw [primary] at h
  dsimp only at h
  split at h
  case h_1 x spelling hx =>
    -- in front of a colon a number is the first row of a range
    split at h
    case h_1 hcolon =>
      exact .of_atom hx (by simp) (atom_of_reference rfl (fun hne => absurd hcolon hne) h)
    case h_2 =>
      obtain ⟨rfl, rfl⟩ := Prod.mk.inj (Except.ok.inj h)
      exact .of_atom hx (by simp) ⟨[], .refl _, .number x spelling⟩
  case h_2 t ht =>
    obtain ⟨rfl, rfl⟩ := Prod.mk.inj (Except.ok.inj h)
    exact .of_atom ht (by simp) ⟨[], .refl _, .text t⟩
  case h_3 f hf =>
    obtain ⟨rfl, rfl⟩ := Prod.mk.inj (Except.ok.inj h)
    exact .of_atom hf (by simp) ⟨[], .refl _, .error f⟩
  case h_4 address haddress =>
    exact .of_atom haddress (by simp) (atom_of_reference rfl (fun _ => .inl ⟨_, rfl⟩) h)
  case h_5 sheet hsheet =>
    exact .of_atom hsheet (by simp) (atom_of_qualified (.inr rfl) h)
  case h_6 name hname =>
    -- what a name is, the token behind it tells: a sheet, a function, or the start of a range
    split at h
    case h_1 => exact .of_atom hname (by simp) (atom_of_qualified (.inl rfl) h)
    case h_2 hopen =>
      split at h
      case h_1 hclose => exact derives_emptyCall hname hopen hclose h
      case h_2 hclose =>
        obtain ⟨⟨args, d⟩, hargs, h⟩ := ok_of_bind h
        obtain ⟨pieces, hpieces, rfl, hsole⟩ := ih.arguments hargs
        exact derives_call hname hopen hpieces (fun heq => hclose (hsole heq)) h
    case h_3 hcolon =>
      exact .of_atom hname (by simp) (atom_of_reference rfl (fun hne => absurd hcolon hne) h)
    case h_4 =>
      -- a name by itself is a truth value before it is a reference
      split at h
      case h_1 b hb =>
        obtain ⟨rfl, rfl⟩ := Prod.mk.inj (Except.ok.inj h)
        exact .of_atom hname (by simp) ⟨[], .refl _, .boolean hb⟩
      case h_2 hboolean =>
        exact .of_atom hname (by simp)
          (atom_of_reference rfl (fun _ => .inr ⟨_, rfl, hboolean⟩) h)
  case h_7 hbrace => exact .of_atom hbrace (by simp) (atom_of_array h)
  case h_8 hopen =>
    obtain ⟨⟨inner, d⟩, hinner, h⟩ := ok_of_bind h
    obtain ⟨kinds, hmoves, hrenders⟩ := ih.level (Nat.le_refl _) hinner
    dsimp only at h
    split at h
    case h_1 hclose =>
      obtain ⟨rfl, rfl⟩ := Prod.mk.inj (Except.ok.inj h)
      exact ⟨_, (hmoves.snoc hclose (by simp)).cons hopen (by simp), .parens hrenders⟩
    case h_2 => cases h
  case h_9 => cases h
  case h_10 => cases h

theorem isOmitted_of_renders (h : Renders ctx n kinds e) : e.isOmitted = false := by
  induction h with
  | atom h => exact (isOperand_of_atom h).2
  | emptyCall hcall => exact (isOperand_of_calls hcall).2
  | call _ _ _ _ hcall _ => exact (isOperand_of_calls hcall).2
  | parens _ ih => exact ih
  | _ => rfl

theorem derives_argument (ih : DerivesAt ctx fuel) (h : argument ctx fuel c = .ok (e, c')) :
    ∃ kinds, c.Moves kinds c' ∧ (e.isOmitted = false → Renders ctx 0 kinds e) ∧
      (e.isOmitted = true → kinds = []) := by
  unfold argument at h
  split at h
  case isTrue =>
    obtain ⟨rfl, rfl⟩ := Prod.mk.inj (Except.ok.inj h)
    exact ⟨[], .refl _, fun homitted => (by cases homitted), fun _ => rfl⟩
  case isFalse =>
    obtain ⟨kinds, hmoves, hrenders⟩ := ih.level (Nat.le_refl _) h
    refine ⟨kinds, hmoves, fun _ => hrenders, fun homitted => ?_⟩
    rw [isOmitted_of_renders hrenders] at homitted
    cases homitted

theorem derives_arguments (ih : DerivesAt ctx fuel) {args : List Expr}
    (h : arguments ctx (fuel + 1) c = .ok (args, c')) :
    ∃ pieces, DerivesArgs ctx c pieces c' ∧ pieces.map Prod.snd = args ∧
      (args = [.literal .empty] → c.kind = .rightParen) := by
  rw [arguments_succ] at h
  obtain ⟨⟨arg, d⟩, harg, h⟩ := ok_of_bind h
  obtain ⟨kinds, hmoves, hrenders, homitted⟩ := derives_argument ih harg
  -- a separator leads to more arguments
  have hmore {k : TokenKind} {rest : List Expr} {d' : Cursor} (hkind : d.kind = k)
      (hk : separates k = true) (hrest : arguments ctx fuel d.skip = .ok (rest, d')) :
      ∃ pieces, DerivesArgs ctx c pieces d' ∧ pieces.map Prod.snd = arg :: rest ∧
        (arg :: rest = [.literal .empty] → c.kind = .rightParen) := by
    obtain ⟨pieces, hpieces, rfl, -⟩ := ih.arguments hrest
    obtain ⟨ks, hmoves', hseparated⟩ := hpieces.moves
    have heof := ne_eof_of_endsArgument (endsArgument_of_separates hk)
    refine ⟨(kinds, arg) :: pieces, ⟨⟨kinds ++ k :: ks, ?_, .next hk hseparated⟩, ?_, ?_⟩, rfl, ?_⟩
    · have hall := hmoves.trans (hmoves'.cons hkind heof)
      rwa [List.append_assoc]
    · intro p hp
      rcases List.mem_cons.mp hp with rfl | hp
      · exact hrenders
      · exact hpieces.renders p hp
    · intro p hp
      rcases List.mem_cons.mp hp with rfl | hp
      · exact homitted
      · exact hpieces.omitted p hp
    · intro heq
      cases pieces with
      | nil => cases hseparated
      | cons p rest => cases heq
  unfold behindArgument at h
  split at h
  case h_1 hcomma =>
    obtain ⟨⟨rest, d'⟩, hrest, h⟩ := ok_of_bind h
    obtain ⟨rfl, rfl⟩ := Prod.mk.inj (Except.ok.inj h)
    exact hmore hcomma rfl hrest
  case h_2 hsemicolon =>
    obtain ⟨⟨rest, d'⟩, hrest, h⟩ := ok_of_bind h
    obtain ⟨rfl, rfl⟩ := Prod.mk.inj (Except.ok.inj h)
    exact hmore hsemicolon rfl hrest
  case h_3 hclose =>
    obtain ⟨rfl, rfl⟩ := Prod.mk.inj (Except.ok.inj h)
    refine ⟨[(kinds, arg)], ⟨⟨kinds, hmoves.snoc hclose (by simp), .last _⟩, ?_, ?_⟩, rfl, ?_⟩
    · intro p hp
      obtain rfl := List.mem_singleton.mp hp
      exact hrenders
    · intro p hp
      obtain rfl := List.mem_singleton.mp hp
      exact homitted
    · -- a sole omitted argument has no tokens, so the parenthesis closes at once
      intro heq
      obtain rfl : arg = .literal .empty := (List.cons.inj heq).1
      obtain rfl := homitted rfl
      exact hmoves.kind_eq.trans hclose
  case h_4 => cases h

theorem derivesAt (ctx : FormulaContext) (fuel : Nat) : DerivesAt ctx fuel := by
  induction fuel with
  | zero =>
    refine ⟨fun _ h => ?_, fun _ _ h => ?_, fun h => ?_, fun h => ?_, fun h => ?_, fun h => ?_⟩
    all_goals cases h
  | succ fuel ih =>
    exact ⟨fun hn h => derives_level ih hn h, fun hn hleft h => derives_chain ih hn hleft h,
      fun h => derives_power ih h, fun h => derives_signed ih h, fun h => derives_primary ih h,
      fun h => derives_arguments ih h⟩

/-! ### Whole token lists -/

/-- What becomes of token lists, said by the grammar. -/
structure FollowsGrammar (ctx : FormulaContext) : Prop where
  /-- The text of a tree with the parentheses that are needed is read as that tree, to the end. -/
  rendered : ∀ spell e, Writable ctx spell e → ∀ tokens : List Token,
    tokens.map Token.kind = render spell e ++ [.eof] →
    ∃ c, expression ctx tokens = .ok (e, c) ∧ c.kinds = [.eof]
  /-- These parentheses are needed: no text does without them. -/
  needed : ∀ n kinds e, n ≤ 7 → e.strength < n → Renders ctx n kinds e →
    ∃ inner, kinds = .leftParen :: (inner ++ [.rightParen]) ∧ Renders ctx 0 inner e
  /-- Texts with more parentheses are read as their tree, too. -/
  accepted : ∀ kinds e, Renders ctx 0 kinds e → ∀ tokens : List Token,
    tokens.map Token.kind = kinds ++ [.eof] →
    ∃ c, expression ctx tokens = .ok (e, c) ∧ c.kinds = [.eof]
  /-- Whatever is read up to the end is a text of the tree that it is read as. -/
  derived : ∀ tokens e c, expression ctx tokens = .ok (e, c) → c.kind = .eof →
    ∃ kinds, tokens.map Token.kind = kinds ++ c.kinds ∧ Renders ctx 0 kinds e

theorem exists_expression (h : Renders ctx 0 kinds e) {tokens : List Token}
    (htokens : tokens.map Token.kind = kinds ++ [.eof]) :
    ∃ c, expression ctx tokens = .ok (e, c) ∧ c.kinds = [.eof] := by
  have hlength : tokens.length = kinds.length + 1 := by
    rw [← List.length_map (f := Token.kind), htokens, List.length_append, List.length_singleton]
  have hread := h.readAt.level (Nat.zero_le _)
  exact hread (allowance tokens) ⟨tokens, []⟩ .eof [] htokens (by decide)
    (by rw [allowance, hlength]; omega)

/-- **The parser accepts exactly the grammar.** -/
theorem followsGrammar (ctx : FormulaContext) : FollowsGrammar ctx where
  rendered spell e h tokens htokens :=
    exists_expression (renders_render h 0 (Nat.zero_le _)) htokens
  needed n kinds e hle hn h := h.exists_parens hn hle
  accepted kinds e h tokens htokens := exists_expression h htokens
  derived tokens e c h _ := by
    obtain ⟨kinds, hmoves, hrenders⟩ := (derivesAt ctx _).level (Nat.le_refl _) h
    exact ⟨kinds, hmoves, hrenders⟩

/-- `(1 - (2 - 3)) ^ -4 ^ 5%`: parentheses around the base, which binds less than a power, and around
a right operand of its own operator, but not around the exponent. -/
example (one two three four five : Float) :
    let spell : Expr → List TokenKind
      | .literal (.number x) => [.number x ""]
      | _ => []
    let number (x : Float) : Expr := .literal (.number x)
    render spell (.binary .power
      (.binary .subtract (number one) (.binary .subtract (number two) (number three)))
      (.binary .power (.unary .negate (number four)) (.unary .percent (number five)))) =
    [.leftParen, .number one "", .minus, .leftParen, .number two "", .minus, .number three "",
      .rightParen, .rightParen, .caret, .minus, .number four "", .caret, .number five "",
      .percent] := rfl

end Recalc.Parser
