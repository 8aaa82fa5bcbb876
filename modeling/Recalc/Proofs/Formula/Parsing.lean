/-
Recalc/Proofs/Formula/Parsing.lean

Token lists and the trees they are read as.  `Yields read loose slack kinds e` says that
the function `read` of the parser takes tokens of these kinds off the front and returns the
tree `e`, whatever follows, as long as the next token is loose enough not to be drawn into
the tree and the allowance is enough.

Tokens are ranked by how loosely they cling to what stands before them (`looseness`): a
level ends in front of every token that is looser than its own operators.  So one
statement per rule of the grammar gives a calculus for the trees of token lists.
-/
import Recalc.Proofs.Formula.Lexing

namespace Recalc

namespace Parser

/-- The kinds of the tokens left. -/
def Cursor.kinds (c : Cursor) : List TokenKind := c.rest.map Token.kind

variable {ctx : FormulaContext} {c : Cursor} {e : Expr} {k : TokenKind}
  {kinds ks : List TokenKind} {s : String}

theorem Cursor.kind_of_kinds (h : c.kinds = k :: ks) : c.kind = k := by
  obtain ⟨rest, flagged⟩ := c
  cases rest with
  | nil => cases h
  | cons t rest => exact (List.cons.inj h).1

/-- Every token but the end is skipped. -/
theorem Cursor.kinds_skip (h : c.kinds = k :: ks) (hk : k ≠ .eof) : c.skip.kinds = ks := by
  obtain ⟨rest, flagged⟩ := c
  cases rest with
  | nil => cases h
  | cons t rest =>
    obtain ⟨kind, pos, length⟩ := t
    obtain ⟨rfl, rfl⟩ := List.cons.inj h
    cases kind <;> first | rfl | exact absurd rfl hk

/-- How loosely a token clings to the expression before it: it belongs to the operand, is a percent
sign, one of the operators from tightest to loosest, or ends every expression. -/
def looseness : TokenKind → Nat
  | .colon => 0
  | .bang => 0
  | .leftParen => 0
  | .percent => 1
  | .caret => 2
  | .star => 3
  | .slash => 3
  | .plus => 4
  | .minus => 4
  | .ampersand => 5
  | .equal => 6
  | .notEqual => 6
  | .less => 6
  | .lessEqual => 6
  | .greater => 6
  | .greaterEqual => 6
  | _ => 7

/-- The tokens are read as a tree, if the next one is loose enough.  Every token may cost ten steps,
and ten are to spare. -/
def Yields (read : Nat → Cursor → Except FormulaError (Expr × Cursor)) (loose slack : Nat)
    (kinds : List TokenKind) (e : Expr) : Prop :=
  ∀ (fuel : Nat) (c : Cursor) (k : TokenKind) (ks : List TokenKind), c.kinds = kinds ++ k :: ks →
    loose ≤ looseness k → 10 * (kinds.length + 1) ≤ fuel + slack →
    ∃ c', read fuel c = .ok (e, c') ∧ c'.kinds = k :: ks

/-- An operand with percent signs behind it, more of which may follow. -/
def YieldsPostfix (ctx : FormulaContext) (kinds : List TokenKind) (e : Expr) : Prop :=
  ∀ (fuel : Nat) (c : Cursor) (k : TokenKind) (ks : List TokenKind), c.kinds = kinds ++ k :: ks →
    1 ≤ looseness k → 10 * (kinds.length + 1) ≤ fuel + 8 →
    ∃ ts flagged, ts.map Token.kind = k :: ks ∧
      signed ctx fuel c = .ok ((percents e ts).1, ⟨(percents e ts).2, flagged⟩)

/-- A whole expression. -/
abbrev YieldsExpr (ctx : FormulaContext) (kinds : List TokenKind) (e : Expr) : Prop :=
  Yields (fun fuel => level ctx fuel topLevel) 7 2 kinds e

/-! ### Signs and percent signs -/

/-- A sign in front of an operand. -/
def isSign : TokenKind → Bool
  | .plus => true
  | .minus => true
  | _ => false

theorem YieldsPostfix.of_primary (h : Yields (primary ctx) 1 9 (k :: kinds) e)
    (hk : isSign k = false) : YieldsPostfix ctx (k :: kinds) e := by
  intro fuel c k' ks hc hk' hfuel
  obtain ⟨fuel, rfl⟩ : ∃ n, fuel = n + 1 := Nat.exists_eq_succ_of_ne_zero (by omega)
  obtain ⟨c', hread, hc'⟩ := h fuel c k' ks hc hk' (by omega)
  have hkind : c.kind = k := Cursor.kind_of_kinds hc
  refine ⟨c'.rest, c'.flagged, hc', ?_⟩
  rw [signed, hkind]
  split
  · cases hk
  · cases hk
  · rw [hread]
    rfl

theorem percents_of_ne {ts : List Token} (h : ts.map Token.kind = k :: ks) (hk : 2 ≤ looseness k) :
    percents e ts = (e, ts) := by
  cases ts with
  | nil => cases h
  | cons t rest =>
    have hkind : t.kind = k := (List.cons.inj h).1
    rw [percents]
    split
    · next hpercent =>
      rw [← hkind, hpercent] at hk
      exact absurd hk (by decide)
    · rfl

/-- **A percent sign binds tightest.** -/
theorem YieldsPostfix.percent (h : YieldsPostfix ctx kinds e) :
    YieldsPostfix ctx (kinds ++ [.percent]) (.unary .percent e) := by
  intro fuel c k ks hc hk hfuel
  rw [List.append_assoc, List.singleton_append] at hc
  rw [List.length_append, List.length_singleton] at hfuel
  obtain ⟨ts, flagged, hts, hread⟩ := h fuel c .percent (k :: ks) hc (by decide) (by omega)
  cases ts with
  | nil => cases hts
  | cons t rest =>
    obtain ⟨hpercent, hrest⟩ := List.cons.inj hts
    refine ⟨rest, flagged, hrest, ?_⟩
    rw [hread, percents, hpercent]

theorem YieldsPostfix.signed (h : YieldsPostfix ctx kinds e) :
    Yields (signed ctx) 2 8 kinds e := by
  intro fuel c k ks hc hk hfuel
  obtain ⟨ts, flagged, hts, hread⟩ := h fuel c k ks hc (by omega) hfuel
  refine ⟨⟨ts, flagged⟩, ?_, hts⟩
  rw [hread, percents_of_ne hts hk]

theorem Yields.negate (h : Yields (signed ctx) 2 8 kinds e) :
    Yields (signed ctx) 2 8 (.minus :: kinds) (.unary .negate e) := by
  intro fuel c k ks hc hk hfuel
  rw [List.length_cons] at hfuel
  obtain ⟨fuel, rfl⟩ : ∃ n, fuel = n + 1 := Nat.exists_eq_succ_of_ne_zero (by omega)
  obtain ⟨c', hread, hc'⟩ :=
    h fuel c.skip k ks (Cursor.kinds_skip hc (by simp)) hk (by omega)
  refine ⟨c', ?_, hc'⟩
  rw [signed, Cursor.kind_of_kinds hc]
  dsimp only
  rw [hread]
  rfl

theorem Yields.plus (h : Yields (signed ctx) 2 8 kinds e) :
    Yields (signed ctx) 2 8 (.plus :: kinds) (.unary .plus e) := by
  intro fuel c k ks hc hk hfuel
  rw [List.length_cons] at hfuel
  obtain ⟨fuel, rfl⟩ : ∃ n, fuel = n + 1 := Nat.exists_eq_succ_of_ne_zero (by omega)
  obtain ⟨c', hread, hc'⟩ :=
    h fuel c.skip k ks (Cursor.kinds_skip hc (by simp)) hk (by omega)
  refine ⟨c', ?_, hc'⟩
  rw [signed, Cursor.kind_of_kinds hc]
  dsimp only
  rw [hread]
  rfl

/-! ### Operators -/

theorem Yields.power (h : Yields (signed ctx) 2 8 kinds e) : Yields (power ctx) 3 7 kinds e := by
  intro fuel c k ks hc hk hfuel
  obtain ⟨fuel, rfl⟩ : ∃ n, fuel = n + 1 := Nat.exists_eq_succ_of_ne_zero (by omega)
  obtain ⟨c', hread, hc'⟩ := h fuel c k ks hc (by omega) (by omega)
  refine ⟨c', ?_, hc'⟩
  rw [Parser.power, hread, ok_bind]
  dsimp only
  rw [Cursor.kind_of_kinds hc']
  split
  · exact absurd hk (by decide)
  · rfl

/-- **A power groups to the right.** -/
theorem Yields.caret {kinds' : List TokenKind} {e' : Expr} (h : Yields (signed ctx) 2 8 kinds e)
    (h' : Yields (Parser.power ctx) 3 7 kinds' e') :
    Yields (Parser.power ctx) 3 7 (kinds ++ .caret :: kinds') (.binary .power e e') := by
  intro fuel c k ks hc hk hfuel
  rw [List.append_assoc, List.cons_append] at hc
  rw [List.length_append, List.length_cons] at hfuel
  obtain ⟨fuel, rfl⟩ : ∃ n, fuel = n + 1 := Nat.exists_eq_succ_of_ne_zero (by omega)
  obtain ⟨c', hread, hc'⟩ := h fuel c .caret _ hc (by decide) (by omega)
  obtain ⟨c'', hread', hc''⟩ :=
    h' fuel c'.skip k ks (Cursor.kinds_skip hc' (by simp)) hk (by omega)
  refine ⟨c'', ?_, hc''⟩
  rw [Parser.power, hread, ok_bind]
  dsimp only
  rw [Cursor.kind_of_kinds hc']
  dsimp only
  rw [hread']
  rfl

theorem Yields.level_zero (h : Yields (Parser.power ctx) 3 7 kinds e) :
    Yields (fun fuel => level ctx fuel 0) 3 6 kinds e := by
  intro fuel c k ks hc hk hfuel
  obtain ⟨fuel, rfl⟩ : ∃ n, fuel = n + 1 := Nat.exists_eq_succ_of_ne_zero (by omega)
  obtain ⟨c', hread, hc'⟩ := h fuel c k ks hc hk (by omega)
  refine ⟨c', ?_, hc'⟩
  show level ctx (fuel + 1) 0 c = _
  rw [level, hread]

theorem looseness_of_operator? {n : Nat} {op : BinaryOp} (h : operator? (n + 1) k = some op) :
    looseness k = n + 3 := by
  unfold operator? at h
  split at h <;> first | (simp only [looseness]; omega) | cases h

/-- A level ends in front of looser tokens. -/
theorem operator?_of_looseness {n : Nat} (h : n + 4 ≤ looseness k) : operator? (n + 1) k = none := by
  cases hop : operator? (n + 1) k with
  | none => rfl
  | some op =>
    have := looseness_of_operator? hop
    omega

theorem chain_of_looseness {n fuel : Nat} (hfuel : 0 < fuel) (hc : c.kinds = k :: ks)
    (hk : n + 4 ≤ looseness k) : chain ctx fuel n e c = .ok (e, c) := by
  obtain ⟨fuel, rfl⟩ := Nat.exists_eq_succ_of_ne_zero hfuel.ne'
  rw [chain, Cursor.kind_of_kinds hc, operator?_of_looseness hk]

/-- Operands of level `n` with operators between them, more of which may follow: the level above
comes to go on behind them, with a step less for each token at most. -/
def YieldsChain (ctx : FormulaContext) (n : Nat) (kinds : List TokenKind) (e : Expr) : Prop :=
  ∀ (fuel : Nat) (c : Cursor) (k : TokenKind) (ks : List TokenKind), c.kinds = kinds ++ k :: ks →
    n + 3 ≤ looseness k → 10 * (kinds.length + 1) ≤ fuel + (5 - n) →
    ∃ fuel' c', level ctx fuel (n + 1) c = chain ctx fuel' n e c' ∧ c'.kinds = k :: ks ∧
      fuel ≤ fuel' + kinds.length + 1

/-- One operand starts a chain. -/
theorem Yields.chain {n : Nat} (hn : n < topLevel)
    (h : Yields (fun fuel => level ctx fuel n) (n + 3) (6 - n) kinds e) :
    YieldsChain ctx n kinds e := by
  intro fuel c k ks hc hk hfuel
  rw [topLevel] at hn
  obtain ⟨fuel, rfl⟩ : ∃ m, fuel = m + 1 := Nat.exists_eq_succ_of_ne_zero (by omega)
  obtain ⟨c', hread, hc'⟩ := h fuel c k ks hc hk (by omega)
  refine ⟨fuel, c', ?_, hc', by omega⟩
  dsimp only at hread
  rw [level, hread]
  rfl

/-- **An operator and one more operand make the chain longer**, with all before it on the left. -/
theorem YieldsChain.operator {n : Nat} {op : BinaryOp} {kinds' : List TokenKind} {e' : Expr}
    (hn : n < topLevel) (hop : operator? (n + 1) k = some op) (h : YieldsChain ctx n kinds e)
    (h' : Yields (fun fuel => level ctx fuel n) (n + 3) (6 - n) kinds' e') :
    YieldsChain ctx n (kinds ++ k :: kinds') (.binary op e e') := by
  intro fuel c k' ks hc hk' hfuel
  rw [topLevel] at hn
  have hk := looseness_of_operator? hop
  have heof : k ≠ .eof := by
    rintro rfl
    have hloose : 7 = n + 3 := hk
    omega
  rw [List.append_assoc, List.cons_append] at hc
  rw [List.length_append, List.length_cons] at hfuel
  obtain ⟨fuel', c', hread, hc', hcost⟩ := h fuel c k _ hc (by omega) (by omega)
  obtain ⟨fuel', rfl⟩ : ∃ m, fuel' = m + 1 := Nat.exists_eq_succ_of_ne_zero (by omega)
  obtain ⟨c'', hread', hc''⟩ :=
    h' fuel' c'.skip k' ks (Cursor.kinds_skip hc' heof) hk' (by omega)
  refine ⟨fuel', c'', ?_, hc'', ?_⟩
  · dsimp only at hread'
    rw [hread, Parser.chain, Cursor.kind_of_kinds hc', hop]
    dsimp only
    rw [hread']
    rfl
  · rw [List.length_append, List.length_cons]
    omega

/-- A chain ends in front of looser tokens. -/
theorem YieldsChain.level {n : Nat} (hn : n < topLevel) (h : YieldsChain ctx n kinds e) :
    Yields (fun fuel => level ctx fuel (n + 1)) (n + 4) (6 - (n + 1)) kinds e := by
  intro fuel c k ks hc hk hfuel
  rw [topLevel] at hn
  obtain ⟨fuel', c', hread, hc', hcost⟩ := h fuel c k ks hc (by omega) (by omega)
  refine ⟨c', ?_, hc'⟩
  show Parser.level ctx fuel (n + 1) c = _
  rw [hread]
  exact chain_of_looseness (by omega) hc' hk

/-- What one level reads, the looser ones read, too. -/
theorem Yields.level_of_le {n m : Nat} (hnm : n ≤ m) (hm : m ≤ topLevel)
    (h : Yields (fun fuel => level ctx fuel n) (n + 3) (6 - n) kinds e) :
    Yields (fun fuel => level ctx fuel m) (m + 3) (6 - m) kinds e := by
  induction m, hnm using Nat.le_induction with
  | base => exact h
  | succ m hnm ih => exact ((ih (Nat.le_of_succ_le hm)).chain hm).level hm

/-- An operator that is no power stands on a level of its own. -/
theorem exists_operator?_token {op : BinaryOp} (h : op ≠ .power) :
    ∃ n, n < topLevel ∧ operator? (n + 1) op.token = some op := by
  cases op with
  | power => exact absurd rfl h
  | multiply => exact ⟨0, by decide, rfl⟩
  | divide => exact ⟨0, by decide, rfl⟩
  | add => exact ⟨1, by decide, rfl⟩
  | subtract => exact ⟨1, by decide, rfl⟩
  | concat => exact ⟨2, by decide, rfl⟩
  | _ => exact ⟨3, by decide, rfl⟩

theorem YieldsExpr.of_signed (h : Yields (Parser.signed ctx) 2 8 kinds e) : YieldsExpr ctx kinds e :=
  h.power.level_zero.level_of_le (Nat.zero_le _) (Nat.le_refl _)

/-- **An operator between two operands that bind more tightly than every operator.** -/
theorem YieldsExpr.binary (op : BinaryOp) {kinds' : List TokenKind} {e' : Expr}
    (h : Yields (Parser.signed ctx) 2 8 kinds e) (h' : Yields (Parser.signed ctx) 2 8 kinds' e') :
    YieldsExpr ctx (kinds ++ op.token :: kinds') (.binary op e e') := by
  by_cases hop : op = .power
  · subst hop
    exact (h.caret h'.power).level_zero.level_of_le (Nat.zero_le _) (Nat.le_refl _)
  · obtain ⟨n, hn, hoperator⟩ := exists_operator?_token hop
    have hoperand {ks : List TokenKind} {a : Expr} (ha : Yields (Parser.signed ctx) 2 8 ks a) :=
      ha.power.level_zero.level_of_le (Nat.zero_le n) (Nat.le_of_lt hn)
    exact ((((hoperand h).chain hn).operator hn hoperator (hoperand h')).level hn).level_of_le hn
      (Nat.le_refl _)

/-! ### Operands -/

/-- The next token is no part of the operand before it. -/
theorem kind_ne_of_looseness (hc : c.kinds = k :: ks) (hk : 1 ≤ looseness k) :
    c.kind ≠ .colon ∧ c.kind ≠ .bang ∧ c.kind ≠ .leftParen := by
  rw [Cursor.kind_of_kinds hc]
  refine ⟨?_, ?_, ?_⟩ <;> rintro rfl <;> exact absurd hk (by decide)

/-- An operand of one token. -/
theorem yields_primary_of_token (heof : k ≠ .eof)
    (h : ∀ (fuel : Nat) (c : Cursor) (k' : TokenKind) (ks : List TokenKind), c.kind = k →
      c.skip.kinds = k' :: ks → 1 ≤ looseness k' → primary ctx (fuel + 1) c = .ok (e, c.skip)) :
    Yields (primary ctx) 1 9 [k] e := by
  intro fuel c k' ks hc hk' hfuel
  obtain ⟨fuel, rfl⟩ : ∃ n, fuel = n + 1 :=
    Nat.exists_eq_succ_of_ne_zero (by rw [List.length_singleton] at hfuel; omega)
  have hskip := Cursor.kinds_skip hc heof
  exact ⟨c.skip, h fuel c k' ks (Cursor.kind_of_kinds hc) hskip hk', hskip⟩

theorem yields_number (x : Float) (spelling : String) :
    Yields (primary ctx) 1 9 [.number x spelling] (.literal (.number x)) := by
  refine yields_primary_of_token (by simp) fun fuel c k ks hkind hskip hk => ?_
  have hcolon := (kind_ne_of_looseness hskip hk).1
  rw [primary]
  dsimp only
  rw [show c.token.kind = _ from hkind]
  dsimp only
  split
  · next heq => exact absurd heq hcolon
  · rfl

theorem yields_text (t : String) : Yields (primary ctx) 1 9 [.text t] (.literal (.text t)) := by
  refine yields_primary_of_token (by simp) fun fuel c k ks hkind _ _ => ?_
  rw [primary]
  dsimp only
  rw [show c.token.kind = _ from hkind]

theorem yields_error (f : Fault) : Yields (primary ctx) 1 9 [.error f] (.literal (.error f)) := by
  refine yields_primary_of_token (by simp) fun fuel c k ks hkind _ _ => ?_
  rw [primary]
  dsimp only
  rw [show c.token.kind = _ from hkind]

theorem yields_boolean {b : Bool} (h : boolean? s = some b) :
    Yields (primary ctx) 1 9 [.identifier s] (.literal (.boolean b)) := by
  refine yields_primary_of_token (by simp) fun fuel c k ks hkind hskip hk => ?_
  obtain ⟨hcolon, hbang, hparen⟩ := kind_ne_of_looseness hskip hk
  rw [primary]
  dsimp only
  rw [show c.token.kind = _ from hkind]
  dsimp only
  split
  · next heq => exact absurd heq hbang
  · next heq => exact absurd heq hparen
  · next heq => exact absurd heq hcolon
  · rw [h]

/-- **Parentheses make an operand of an expression.** -/
theorem YieldsExpr.parens (h : YieldsExpr ctx kinds e) :
    Yields (primary ctx) 1 9 (.leftParen :: (kinds ++ [.rightParen])) e := by
  intro fuel c k ks hc hk hfuel
  rw [List.cons_append, List.append_assoc, List.singleton_append] at hc
  rw [List.length_cons, List.length_append, List.length_singleton] at hfuel
  obtain ⟨fuel, rfl⟩ : ∃ n, fuel = n + 1 := Nat.exists_eq_succ_of_ne_zero (by omega)
  obtain ⟨c', hread, hc'⟩ :=
    h fuel c.skip .rightParen (k :: ks) (Cursor.kinds_skip hc (by simp)) (by decide) (by omega)
  refine ⟨c'.skip, ?_, Cursor.kinds_skip hc' (by simp)⟩
  rw [primary]
  dsimp only at hread ⊢
  rw [show c.token.kind = _ from Cursor.kind_of_kinds hc]
  dsimp only
  rw [hread, ok_bind]
  dsimp only
  rw [Cursor.kind_of_kinds hc']
  rfl

/-! ### References -/

/-- The tokens of a reference text without a sheet: one part, or two with a colon between them. -/
inductive Spells : List TokenKind → String → Prop
  | single {k : TokenKind} {s : String} (h : referencePart? k = some s) : Spells [k] s
  | pair {k k' : TokenKind} {s t : String} (h : referencePart? k = some s)
    (h' : referencePart? k' = some t) : Spells [k, .colon, k'] (s ++ ":" ++ t)

theorem ne_eof_of_referencePart? (h : referencePart? k = some s) : k ≠ .eof := by
  rintro rfl
  cases h

/-- The first token of an operand, and of what starts with one. -/
def OpensOperand (k : TokenKind) : Prop := endsArgument k = false ∧ isSign k = false

theorem opensOperand_of_referencePart? (h : referencePart? k = some s) : OpensOperand k := by
  unfold referencePart? at h
  split at h <;> first | exact ⟨rfl, rfl⟩ | cases h

theorem resolveAt_of_resolve {sheet : Option String} {r : Reference} {pos : Nat}
    (h : ctx.names.resolve (referenceText sheet s) ctx.sheet = .ok r) :
    resolveAt ctx sheet s pos c = .ok (.reference r, c) := by
  unfold resolveAt
  cases sheet with
  | none =>
    rw [referenceText] at h
    dsimp only
    rw [h]
  | some sheet =>
    rw [referenceText] at h
    dsimp only
    rw [h]

/-- The first part leads to the whole text. -/
theorem Spells.reference (ctx : FormulaContext) (h : Spells kinds s) (hc : c.kinds = kinds ++ k :: ks)
    (hk : 1 ≤ looseness k) : ∃ first c', referencePart? c.kind = some first ∧ c'.kinds = k :: ks ∧
      ∀ sheet pos, Parser.reference ctx sheet first pos c.skip = resolveAt ctx sheet s pos c' := by
  cases h with
  | single h =>
    have hskip := Cursor.kinds_skip hc (ne_eof_of_referencePart? h)
    refine ⟨s, c.skip, by rwa [Cursor.kind_of_kinds hc], hskip, fun sheet pos => ?_⟩
    have hcolon := (kind_ne_of_looseness hskip hk).1
    rw [Parser.reference]
    split
    · next heq => exact absurd heq hcolon
    · rfl
  | pair h h' =>
    have hfirst := Cursor.kinds_skip hc (ne_eof_of_referencePart? h)
    have hsecond := Cursor.kinds_skip hfirst (by simp)
    have hthird := Cursor.kinds_skip hsecond (ne_eof_of_referencePart? h')
    refine ⟨_, c.skip.skip.skip, by rwa [Cursor.kind_of_kinds hc], hthird, fun sheet pos => ?_⟩
    rw [Parser.reference, Cursor.kind_of_kinds hfirst]
    dsimp only
    rw [show c.skip.skip.token.kind = _ from Cursor.kind_of_kinds hsecond, h']

/-- **A sheet in front of a reference.** -/
theorem Spells.yields_qualified {sheet : String} {r : Reference} (h : Spells kinds s)
    (hk : k = .identifier sheet ∨ k = .sheetName sheet)
    (hresolve : ctx.names.resolve (SheetName.written sheet ++ "!" ++ s) ctx.sheet = .ok r) :
    Yields (primary ctx) 1 9 (k :: .bang :: kinds) (.reference r) := by
  intro fuel c k' ks hc hk' hfuel
  obtain ⟨fuel, rfl⟩ : ∃ n, fuel = n + 1 :=
    Nat.exists_eq_succ_of_ne_zero (by simp only [List.length_cons] at hfuel; omega)
  have hbang := Cursor.kinds_skip hc (by rcases hk with rfl | rfl <;> simp)
  have hparts := Cursor.kinds_skip hbang (by simp)
  obtain ⟨first, c', hfirst, hc', href⟩ := h.reference ctx hparts hk'
  refine ⟨c', ?_, hc'⟩
  have hqualified (pos : Nat) : qualified ctx sheet pos c.skip = .ok (.reference r, c') := by
    rw [qualified, Cursor.kind_of_kinds hbang]
    dsimp only
    rw [show referencePart? c.skip.skip.token.kind = _ from hfirst]
    dsimp only
    rw [href]
    exact resolveAt_of_resolve hresolve
  rw [primary]
  dsimp only
  rw [show c.token.kind = _ from Cursor.kind_of_kinds hc]
  rcases hk with rfl | rfl
  · dsimp only
    rw [Cursor.kind_of_kinds hbang]
    exact hqualified _
  · exact hqualified _

/-- A part that is a reference by itself. -/
def standsAlone (k : TokenKind) : Prop :=
  (∃ s, k = .cell s) ∨ ∃ s, k = .identifier s ∧ boolean? s = none

/-- **A reference without a sheet.** -/
theorem Spells.yields_unqualified {r : Reference} (h : Spells kinds s)
    (halone : ∀ k, kinds = [k] → standsAlone k)
    (hresolve : ctx.names.resolve s ctx.sheet = .ok r) :
    Yields (primary ctx) 1 9 kinds (.reference r) := by
  intro fuel c k' ks hc hk' hfuel
  obtain ⟨fuel, rfl⟩ : ∃ n, fuel = n + 1 := Nat.exists_eq_succ_of_ne_zero (by omega)
  obtain ⟨first, c', hfirst, hc', href⟩ := h.reference ctx hc hk'
  have hreference (pos : Nat) : Parser.reference ctx none first pos c.skip = .ok (.reference r, c') := by
    rw [href]
    exact resolveAt_of_resolve hresolve
  refine ⟨c', ?_, hc'⟩
  rw [primary]
  dsimp only
  cases h with
  | single h =>
    have hkind : c.token.kind = _ := Cursor.kind_of_kinds hc
    have hnext := kind_ne_of_looseness (Cursor.kinds_skip hc (ne_eof_of_referencePart? h)) hk'
    rw [Cursor.kind, hkind] at hfirst
    rw [hkind]
    rcases halone _ rfl with ⟨t, rfl⟩ | ⟨t, rfl, hboolean⟩
    · obtain rfl := Option.some.inj hfirst
      exact hreference _
    · obtain rfl := Option.some.inj hfirst
      dsimp only
      split
      · next heq => exact absurd heq hnext.2.1
      · next heq => exact absurd heq hnext.2.2
      · next heq => exact absurd heq hnext.1
      · rw [hboolean]
        exact hreference _
  | pair h h' =>
    have hkind : c.token.kind = _ := Cursor.kind_of_kinds hc
    have hcolon : c.skip.kind = .colon :=
      Cursor.kind_of_kinds (Cursor.kinds_skip hc (ne_eof_of_referencePart? h))
    rw [Cursor.kind, hkind, h] at hfirst
    obtain rfl := Option.some.inj hfirst
    rw [hkind, hcolon]
    -- each kind of part goes on with the colon
    unfold referencePart? at h
    split at h
    · obtain rfl := Option.some.inj h
      exact hreference _
    · obtain rfl := Option.some.inj h
      exact hreference _
    · obtain rfl := Option.some.inj h
      exact hreference _
    · cases h

/-! ### Arrays -/

/-- The tokens are read as an element of an array. -/
def YieldsConstant (kinds : List TokenKind) (v : Value) : Prop :=
  ∀ (c : Cursor) (k : TokenKind) (ks : List TokenKind), c.kinds = kinds ++ k :: ks →
    ∃ c', constant c = .ok (v, c') ∧ c'.kinds = k :: ks

theorem yieldsConstant_of_token {v : Value} (heof : k ≠ .eof)
    (h : ∀ c : Cursor, c.kind = k → constant c = .ok (v, c.skip)) : YieldsConstant [k] v :=
  fun c _ _ hc => ⟨c.skip, h c (Cursor.kind_of_kinds hc), Cursor.kinds_skip hc heof⟩

theorem yieldsConstant_number (x : Float) (spelling : String) :
    YieldsConstant [.number x spelling] (.number x) :=
  yieldsConstant_of_token (by simp) fun c hc => by rw [constant, hc]

theorem yieldsConstant_text (t : String) : YieldsConstant [.text t] (.text t) :=
  yieldsConstant_of_token (by simp) fun c hc => by rw [constant, hc]

theorem yieldsConstant_error (f : Fault) : YieldsConstant [.error f] (.error f) :=
  yieldsConstant_of_token (by simp) fun c hc => by rw [constant, hc]

theorem yieldsConstant_boolean {b : Bool} (h : boolean? s = some b) :
    YieldsConstant [.identifier s] (.boolean b) :=
  yieldsConstant_of_token (by simp) fun c hc => by
    rw [constant, hc]
    dsimp only
    rw [h]

theorem yieldsConstant_negative (x : Float) (spelling : String) :
    YieldsConstant [.minus, .number x spelling] (.number (-x)) := by
  intro c k ks hc
  have hnumber := Cursor.kinds_skip hc (by simp)
  refine ⟨c.skip.skip, ?_, Cursor.kinds_skip hnumber (by simp)⟩
  rw [constant, Cursor.kind_of_kinds hc]
  dsimp only
  rw [signedConstant, Cursor.kind_of_kinds hnumber]

/-- The tokens of rows up to the closing brace. -/
inductive Rows : List TokenKind → List (List Value) → Prop
  | last {kinds : List TokenKind} {v : Value} (h : YieldsConstant kinds v) : Rows kinds [[v]]
  | comma {kinds ks : List TokenKind} {v : Value} {row : List Value} {rows : List (List Value)}
    (h : YieldsConstant kinds v) (hrows : Rows ks (row :: rows)) :
    Rows (kinds ++ .comma :: ks) ((v :: row) :: rows)
  | semicolon {kinds ks : List TokenKind} {v : Value} {rows : List (List Value)}
    (h : YieldsConstant kinds v) (hrows : Rows ks rows) :
    Rows (kinds ++ .semicolon :: ks) ([v] :: rows)

theorem Rows.arrayRows {rows : List (List Value)} (h : Rows kinds rows) (fuel : Nat)
    (hfuel : kinds.length < fuel) (hc : c.kinds = kinds ++ .rightBrace :: ks) :
    ∃ c', Parser.arrayRows fuel c = .ok (rows, c') ∧ c'.kinds = ks := by
  induction h generalizing fuel c with
  | last hv =>
    obtain ⟨fuel, rfl⟩ := Nat.exists_eq_succ_of_ne_zero (Nat.ne_zero_of_lt hfuel)
    obtain ⟨c', hread, hc'⟩ := hv c _ _ hc
    refine ⟨c'.skip, ?_, Cursor.kinds_skip hc' (by simp)⟩
    rw [Parser.arrayRows, hread, ok_bind]
    dsimp only
    rw [Cursor.kind_of_kinds hc']
    rfl
  | comma hv _ ih =>
    rw [List.length_append, List.length_cons] at hfuel
    rw [List.append_assoc, List.cons_append] at hc
    obtain ⟨fuel, rfl⟩ := Nat.exists_eq_succ_of_ne_zero (Nat.ne_zero_of_lt hfuel)
    obtain ⟨c', hread, hc'⟩ := hv c _ _ hc
    obtain ⟨c'', hrows, hc''⟩ := ih fuel (by omega) (Cursor.kinds_skip hc' (by simp))
    refine ⟨c'', ?_, hc''⟩
    rw [Parser.arrayRows, hread, ok_bind]
    dsimp only
    rw [Cursor.kind_of_kinds hc']
    dsimp only
    rw [hrows]
    rfl
  | semicolon hv _ ih =>
    rw [List.length_append, List.length_cons] at hfuel
    rw [List.append_assoc, List.cons_append] at hc
    obtain ⟨fuel, rfl⟩ := Nat.exists_eq_succ_of_ne_zero (Nat.ne_zero_of_lt hfuel)
    obtain ⟨c', hread, hc'⟩ := hv c _ _ hc
    obtain ⟨c'', hrows, hc''⟩ := ih fuel (by omega) (Cursor.kinds_skip hc' (by simp))
    refine ⟨c'', ?_, hc''⟩
    rw [Parser.arrayRows, hread, ok_bind]
    dsimp only
    rw [Cursor.kind_of_kinds hc']
    dsimp only
    rw [hrows]
    rfl

/-- **Rows of one length in braces are an array.** -/
theorem Rows.yields_array {rows : List (List Value)} (h : Rows kinds rows)
    (hrect : isRectangular rows = true) :
    Yields (primary ctx) 1 9 (.leftBrace :: (kinds ++ [.rightBrace])) (.array rows) := by
  intro fuel c k ks hc _ hfuel
  obtain ⟨fuel, rfl⟩ : ∃ n, fuel = n + 1 := Nat.exists_eq_succ_of_ne_zero (by omega)
  rw [List.cons_append, List.append_assoc, List.singleton_append] at hc
  have hskip := Cursor.kinds_skip hc (by simp)
  have hlength : kinds.length < c.skip.rest.length := by
    rw [← List.length_map (f := Token.kind), show c.skip.rest.map Token.kind = _ from hskip,
      List.length_append, List.length_cons]
    omega
  obtain ⟨c', hrows, hc'⟩ := h.arrayRows _ hlength hskip
  refine ⟨c', ?_, hc'⟩
  rw [primary]
  dsimp only
  rw [show c.token.kind = _ from Cursor.kind_of_kinds hc]
  dsimp only
  rw [array, hrows]
  show (if isRectangular rows = true then _ else _) = _
  rw [if_pos hrect]
  rfl

/-! ### Calls -/

/-- The tokens of an argument, none if it is omitted. -/
inductive Argument (ctx : FormulaContext) : List TokenKind → Expr → Prop
  | omitted : Argument ctx [] (.literal .empty)
  | expression {k : TokenKind} {kinds : List TokenKind} {e : Expr} (hk : endsArgument k = false)
    (h : YieldsExpr ctx (k :: kinds) e) : Argument ctx (k :: kinds) e

theorem looseness_of_endsArgument (h : endsArgument k = true) : looseness k = 7 := by
  unfold endsArgument at h
  split at h <;> first | rfl | cases h

theorem ne_eof_of_endsArgument (h : endsArgument k = true) : k ≠ .eof := by
  rintro rfl
  cases h

theorem Argument.argument (h : Argument ctx kinds e) (fuel : Nat)
    (hfuel : 10 * (kinds.length + 1) ≤ fuel + 2) (hk : endsArgument k = true)
    (hc : c.kinds = kinds ++ k :: ks) :
    ∃ c', Parser.argument ctx fuel c = .ok (e, c') ∧ c'.kinds = k :: ks := by
  cases h with
  | omitted =>
    refine ⟨c, ?_, hc⟩
    rw [Parser.argument, Cursor.kind_of_kinds hc, if_pos hk]
  | expression hfirst h =>
    obtain ⟨c', hread, hc'⟩ := h fuel c k ks hc (looseness_of_endsArgument hk).ge hfuel
    refine ⟨c', ?_, hc'⟩
    rw [Parser.argument, Cursor.kind_of_kinds hc, hfirst, if_neg Bool.false_ne_true]
    exact hread

/-- The token stands between arguments. -/
def separates : TokenKind → Bool
  | .comma => true
  | .semicolon => true
  | _ => false

theorem endsArgument_of_separates (h : separates k = true) : endsArgument k = true := by
  unfold separates at h
  split at h <;> first | rfl | cases h

/-- The tokens of arguments up to the closing parenthesis. -/
inductive Arguments (ctx : FormulaContext) : List TokenKind → List Expr → Prop
  | last {kinds : List TokenKind} {e : Expr} (h : Argument ctx kinds e) : Arguments ctx kinds [e]
  | next {k : TokenKind} {kinds ks : List TokenKind} {e : Expr} {args : List Expr}
    (hk : separates k = true) (h : Argument ctx kinds e) (hargs : Arguments ctx ks args) :
    Arguments ctx (kinds ++ k :: ks) (e :: args)

theorem Arguments.arguments {args : List Expr} (h : Arguments ctx kinds args) (fuel : Nat)
    (hfuel : 10 * (kinds.length + 1) ≤ fuel + 1) (hc : c.kinds = kinds ++ .rightParen :: ks) :
    ∃ c', Parser.arguments ctx fuel c = .ok (args, c') ∧ c'.kinds = ks := by
  induction h generalizing fuel c with
  | last harg =>
    obtain ⟨fuel, rfl⟩ : ∃ n, fuel = n + 1 := Nat.exists_eq_succ_of_ne_zero (by omega)
    obtain ⟨c', hread, hc'⟩ := harg.argument fuel (by omega) rfl hc
    refine ⟨c'.skip, ?_, Cursor.kinds_skip hc' (by simp)⟩
    rw [arguments_succ, hread]
    show behindArgument ctx fuel _ c' = _
    rw [behindArgument, Cursor.kind_of_kinds hc']
    rfl
  | next hk harg _ ih =>
    have hends := endsArgument_of_separates hk
    rw [List.length_append, List.length_cons] at hfuel
    rw [List.append_assoc, List.cons_append] at hc
    obtain ⟨fuel, rfl⟩ : ∃ n, fuel = n + 1 := Nat.exists_eq_succ_of_ne_zero (by omega)
    obtain ⟨c', hread, hc'⟩ := harg.argument fuel (by omega) hends hc
    have heof := ne_eof_of_endsArgument hends
    obtain ⟨c'', hargs, hc''⟩ := ih fuel (by omega) (Cursor.kinds_skip hc' heof)
    refine ⟨c'', ?_, hc''⟩
    rw [arguments_succ, hread]
    show behindArgument ctx fuel _ c' = _
    rw [behindArgument, Cursor.kind_of_kinds hc']
    unfold separates at hk
    split at hk
    case h_1 =>
      dsimp only
      rw [hargs]
      rfl
    case h_2 =>
      dsimp only
      rw [hargs]
      rfl
    case h_3 => cases hk

/-- Only a sole omitted argument would start with the closing parenthesis. -/
theorem Arguments.exists_cons {args : List Expr} (h : Arguments ctx kinds args)
    (hsole : args ≠ [.literal .empty]) : ∃ k ks, kinds = k :: ks ∧ k ≠ .rightParen := by
  have hexpression {k : TokenKind} (hk : endsArgument k = false) : k ≠ .rightParen := by
    rintro rfl
    cases hk
  cases h with
  | last harg =>
    cases harg with
    | omitted => exact absurd rfl hsole
    | expression hk _ => exact ⟨_, _, rfl, hexpression hk⟩
  | next hk harg _ =>
    cases harg with
    | omitted => exact ⟨_, _, rfl, by rintro rfl; cases hk⟩
    | expression hk _ => exact ⟨_, _, rfl, hexpression hk⟩

/-- What a call of a function with the given arguments is kept as. -/
def Calls (ctx : FormulaContext) (f : String) (args : List Expr) (e : Expr) : Prop :=
  ∀ (pos : Nat) (c : Cursor), ∃ c', call ctx f args pos c = .ok (e, c') ∧ c'.rest = c.rest

theorem yields_call_nil {f : String} (hcall : Calls ctx f [] e) :
    Yields (primary ctx) 1 9 [.identifier f, .leftParen, .rightParen] e := by
  intro fuel c k ks hc _ hfuel
  obtain ⟨fuel, rfl⟩ : ∃ n, fuel = n + 1 := Nat.exists_eq_succ_of_ne_zero (by omega)
  have hopen := Cursor.kinds_skip hc (by simp)
  have hclose := Cursor.kinds_skip hopen (by simp)
  obtain ⟨c', hread, hrest⟩ := hcall c.token.pos c.skip.skip.skip
  refine ⟨c', ?_, (congrArg (List.map Token.kind) hrest).trans (Cursor.kinds_skip hclose (by simp))⟩
  rw [primary]
  dsimp only
  rw [show c.token.kind = _ from Cursor.kind_of_kinds hc]
  dsimp only
  rw [Cursor.kind_of_kinds hopen]
  dsimp only
  rw [Cursor.kind_of_kinds hclose]
  exact hread

/-- **A function in front of arguments in parentheses.** -/
theorem Arguments.yields_call {args : List Expr} (h : Arguments ctx kinds args)
    (hsole : args ≠ [.literal .empty]) {f : String} (hcall : Calls ctx f args e) :
    Yields (primary ctx) 1 9 (.identifier f :: .leftParen :: (kinds ++ [.rightParen])) e := by
  intro fuel c k ks hc _ hfuel
  rw [List.cons_append, List.cons_append, List.append_assoc, List.singleton_append] at hc
  simp only [List.length_cons, List.length_append, List.length_nil] at hfuel
  obtain ⟨fuel, rfl⟩ : ∃ n, fuel = n + 1 := Nat.exists_eq_succ_of_ne_zero (by omega)
  have hopen := Cursor.kinds_skip hc (by simp)
  have hfirst := Cursor.kinds_skip hopen (by simp)
  obtain ⟨d, hargs, hd⟩ := h.arguments fuel (by omega) hfirst
  obtain ⟨c', hread, hrest⟩ := hcall c.token.pos d
  refine ⟨c', ?_, (congrArg (List.map Token.kind) hrest).trans hd⟩
  have hclose : c.skip.skip.kind ≠ .rightParen := by
    obtain ⟨k', ks', rfl, hk'⟩ := h.exists_cons hsole
    rwa [Cursor.kind_of_kinds hfirst]
  rw [primary]
  dsimp only
  rw [show c.token.kind = _ from Cursor.kind_of_kinds hc]
  dsimp only
  rw [Cursor.kind_of_kinds hopen]
  dsimp only
  split
  · next heq => exact absurd heq hclose
  · rw [hargs]
    exact hread

end Parser

/-! ### Formulas -/

/-- **A text behind the sign is read as the tree of its tokens.** -/
theorem Formula.exists_parse {ctx : FormulaContext} {cs : List Char} {kinds : List TokenKind}
    {e : Expr} {follow : Option Char → Bool} (hscans : Lexer.Scans cs kinds follow)
    (hend : follow none = true) (hstart : Lexer.startsOperand cs.head? = true)
    (hyields : Parser.YieldsExpr ctx kinds e) :
    ∃ f, Formula.parse ctx (String.ofList ('=' :: cs)) = .ok f ∧ f.expr = e := by
  obtain ⟨ts, htokens, hkinds⟩ := hscans.tokens hend 1
  have hlength : ts.length = kinds.length + 1 := by
    rw [← List.length_map (f := Token.kind), hkinds, List.length_append, List.length_singleton]
  obtain ⟨c, hread, hc⟩ := hyields (Parser.allowance ts) ⟨ts, []⟩ .eof [] hkinds (by decide)
    (by rw [Parser.allowance, hlength]; omega)
  have hblank : ¬cs.all Text.isBlank = true := by
    cases cs with
    | nil => cases hstart
    | cons d cs =>
      simp only [List.head?_cons, Lexer.startsOperand, Bool.and_eq_true, Bool.not_eq_true'] at hstart
      rw [List.all_cons, hstart.1.1]
      exact Bool.false_ne_true
  refine ⟨⟨String.ofList ('=' :: cs), e, c.flagged⟩, ?_, rfl⟩
  rw [Formula.parse, String.toList_ofList]
  show (if cs.all Text.isBlank = true then _ else _) = _
  rw [if_neg hblank]
  show Lexer.tokens 1 cs >>= _ = _
  rw [htokens]
  show Parser.expression ctx ts >>= _ = _
  rw [Parser.expression, show Parser.level ctx _ _ _ = _ from hread, Parser.ok_bind]
  dsimp only
  rw [Parser.Cursor.kind_of_kinds hc]
  rfl

end Recalc
