/-
Recalc/Proofs/Formula/Grammar.lean

The grammar of formulas by binding strength, without the parser.  From loosest to tightest:

    comparisons 0,  & 1,  + - 2,  * / 3,  ^ 4,  signs in front 5,  % behind 6,  operands 7.

`Renders ctx n kinds e` says that tokens of these kinds are a text of the tree `e` that can
stand where strength `n` is asked for.  Parentheses may stand around anything, and must stand
around a tree that binds less (`Renders.exists_parens`).  `render` puts them there and
nowhere else.

The parser reads every such text as its tree (`Renders.readAt`).

Design.  The left operand of a chain of operators is not read by a call of its own; the level
above comes to go on behind it.  So what is carried through the induction for the four chained
strengths is `YieldsChain`, which stops in front of the next operator.
-/
import Recalc.Proofs.Formula.Parsing

namespace Recalc

/-! ### Binding strength -/

/-- How tightly an operator binds its operands. -/
def BinaryOp.strength : BinaryOp → Nat
  | .equal => 0
  | .notEqual => 0
  | .less => 0
  | .lessEqual => 0
  | .greater => 0
  | .greaterEqual => 0
  | .concat => 1
  | .add => 2
  | .subtract => 2
  | .multiply => 3
  | .divide => 3
  | .power => 4

/-- Only powers group to the right. -/
def BinaryOp.groupsRight (op : BinaryOp) : Bool := op = .power

/-- The strength asked of the left operand; the same operator may stand there if it groups to the
left. -/
def BinaryOp.leftStrength (op : BinaryOp) : Nat :=
  if op.groupsRight then op.strength + 1 else op.strength

/-- The strength asked of the right operand. -/
def BinaryOp.rightStrength (op : BinaryOp) : Nat :=
  if op.groupsRight then op.strength else op.strength + 1

/-- Signs stand in front and bind more tightly than powers, and percent signs bind tightest. -/
def UnaryOp.strength : UnaryOp → Nat
  | .negate => 5
  | .plus => 5
  | .percent => 6

/-- How tightly a tree holds together. -/
def Expr.strength : Expr → Nat
  | .binary op _ _ => op.strength
  | .unary op _ => op.strength
  | _ => 7

namespace Parser

variable {ctx : FormulaContext} {n : Nat} {k : TokenKind} {kinds ks : List TokenKind} {e : Expr}

/-! ### Operands -/

/-- The tokens of an element of an array. -/
inductive Element : List TokenKind → Value → Prop
  | number (x : Float) (s : String) : Element [.number x s] (.number x)
  | positive (x : Float) (s : String) : Element [.plus, .number x s] (.number x)
  | negative (x : Float) (s : String) : Element [.minus, .number x s] (.number (-x))
  | text (s : String) : Element [.text s] (.text s)
  | error (f : Fault) : Element [.error f] (.error f)
  | boolean {s : String} {b : Bool} (h : boolean? s = some b) :
    Element [.identifier s] (.boolean b)

/-- The tokens of the rows of an array: commas between elements, semicolons between rows. -/
inductive ArrayRows : List TokenKind → List (List Value) → Prop
  | last {kinds : List TokenKind} {v : Value} (h : Element kinds v) : ArrayRows kinds [[v]]
  | comma {kinds ks : List TokenKind} {v : Value} {row : List Value} {rows : List (List Value)}
    (h : Element kinds v) (hrows : ArrayRows ks (row :: rows)) :
    ArrayRows (kinds ++ .comma :: ks) ((v :: row) :: rows)
  | semicolon {kinds ks : List TokenKind} {v : Value} {rows : List (List Value)}
    (h : Element kinds v) (hrows : ArrayRows ks rows) :
    ArrayRows (kinds ++ .semicolon :: ks) ([v] :: rows)

/-- The tokens of a literal, a reference or an array. -/
inductive Atom (ctx : FormulaContext) : List TokenKind → Expr → Prop
  | number (x : Float) (s : String) : Atom ctx [.number x s] (.literal (.number x))
  | text (s : String) : Atom ctx [.text s] (.literal (.text s))
  | error (f : Fault) : Atom ctx [.error f] (.literal (.error f))
  | boolean {s : String} {b : Bool} (h : boolean? s = some b) :
    Atom ctx [.identifier s] (.literal (.boolean b))
  | reference {kinds : List TokenKind} {s : String} {r : Reference} (h : Spells kinds s)
    (halone : ∀ k, kinds = [k] → standsAlone k) (hr : ctx.names.resolve s ctx.sheet = .ok r) :
    Atom ctx kinds (.reference r)
  | qualified {k : TokenKind} {kinds : List TokenKind} {sheet s : String} {r : Reference}
    (hk : k = .identifier sheet ∨ k = .sheetName sheet) (h : Spells kinds s)
    (hr : ctx.names.resolve (SheetName.written sheet ++ "!" ++ s) ctx.sheet = .ok r) :
    Atom ctx (k :: .bang :: kinds) (.reference r)
  | array {kinds : List TokenKind} {rows : List (List Value)} (h : ArrayRows kinds rows)
    (hrect : isRectangular rows = true) :
    Atom ctx (.leftBrace :: (kinds ++ [.rightBrace])) (.array rows)

/-- Pieces with a comma or a semicolon between each two. -/
inductive Separated : List (List TokenKind) → List TokenKind → Prop
  | last (kinds : List TokenKind) : Separated [kinds] kinds
  | next {k : TokenKind} {kinds ks : List TokenKind} {pieces : List (List TokenKind)}
    (hk : separates k = true) (h : Separated pieces ks) :
    Separated (kinds :: pieces) (kinds ++ k :: ks)

/-! ### The grammar -/

/-- Tokens of these kinds are a text of the tree, with a strength of `n` at least.  An argument of a
call is a text of strength 0, or omitted and without tokens. -/
inductive Renders (ctx : FormulaContext) : Nat → List TokenKind → Expr → Prop
  | atom {n : Nat} {kinds : List TokenKind} {e : Expr} (h : Atom ctx kinds e) :
    Renders ctx n kinds e
  | emptyCall {n : Nat} {f : String} {e : Expr} (hcall : Calls ctx f [] e) :
    Renders ctx n [.identifier f, .leftParen, .rightParen] e
  | call {n : Nat} {f : String} {args : List (List TokenKind × Expr)} {kinds : List TokenKind}
    {e : Expr} (hkinds : Separated (args.map Prod.fst) kinds)
    (hargs : ∀ p ∈ args, p.2.isOmitted = false → Renders ctx 0 p.1 p.2)
    (homitted : ∀ p ∈ args, p.2.isOmitted = true → p.1 = [])
    (hsole : args.map Prod.snd ≠ [.literal .empty]) (hcall : Calls ctx f (args.map Prod.snd) e) :
    Renders ctx n (.identifier f :: .leftParen :: (kinds ++ [.rightParen])) e
  | parens {n : Nat} {kinds : List TokenKind} {e : Expr} (h : Renders ctx 0 kinds e) :
    Renders ctx n (.leftParen :: (kinds ++ [.rightParen])) e
  | percent {n : Nat} {kinds : List TokenKind} {e : Expr} (hn : n ≤ UnaryOp.percent.strength)
    (h : Renders ctx UnaryOp.percent.strength kinds e) :
    Renders ctx n (kinds ++ [.percent]) (.unary .percent e)
  | negate {n : Nat} {kinds : List TokenKind} {e : Expr} (hn : n ≤ UnaryOp.negate.strength)
    (h : Renders ctx UnaryOp.negate.strength kinds e) :
    Renders ctx n (.minus :: kinds) (.unary .negate e)
  | plus {n : Nat} {kinds : List TokenKind} {e : Expr} (hn : n ≤ UnaryOp.plus.strength)
    (h : Renders ctx UnaryOp.plus.strength kinds e) :
    Renders ctx n (.plus :: kinds) (.unary .plus e)
  | binary {n : Nat} {kinds kinds' : List TokenKind} {a b : Expr} (op : BinaryOp)
    (hn : n ≤ op.strength) (ha : Renders ctx op.leftStrength kinds a)
    (hb : Renders ctx op.rightStrength kinds' b) :
    Renders ctx n (kinds ++ op.token :: kinds') (.binary op a b)

/-- A text that is strong enough is so for less. -/
theorem Renders.mono {m : Nat} (h : Renders ctx n kinds e) (hm : m ≤ n) : Renders ctx m kinds e := by
  cases h with
  | atom h => exact .atom h
  | emptyCall hcall => exact .emptyCall hcall
  | call hkinds hargs homitted hsole hcall => exact .call hkinds hargs homitted hsole hcall
  | parens h => exact .parens h
  | percent hn h => exact .percent (hm.trans hn) h
  | negate hn h => exact .negate (hm.trans hn) h
  | plus hn h => exact .plus (hm.trans hn) h
  | binary op hn ha hb => exact .binary op (hm.trans hn) ha hb

/-! ### Rendering -/

/-- Parentheses around tokens, if they are needed. -/
def enclose (needed : Bool) (kinds : List TokenKind) : List TokenKind :=
  if needed then .leftParen :: (kinds ++ [.rightParen]) else kinds

mutual

/-- The text of a tree with parentheses where an operand binds less than its place asks for.
Literals, references and arrays are spelt as given. -/
def render (spell : Expr → List TokenKind) : Expr → List TokenKind
  | .binary op a b =>
    enclose (a.strength < op.leftStrength) (render spell a) ++
      op.token :: enclose (b.strength < op.rightStrength) (render spell b)
  | .unary .percent e =>
    enclose (e.strength < UnaryOp.percent.strength) (render spell e) ++ [.percent]
  | .unary .negate e => .minus :: enclose (e.strength < UnaryOp.negate.strength) (render spell e)
  | .unary .plus e => .plus :: enclose (e.strength < UnaryOp.plus.strength) (render spell e)
  | .call f args => .identifier f :: .leftParen :: (renderArgs spell args ++ [.rightParen])
  | .dynamic f args => .identifier f :: .leftParen :: (renderArgs spell args ++ [.rightParen])
  | .literal v => spell (.literal v)
  | .reference r => spell (.reference r)
  | .array rows => spell (.array rows)

/-- The texts of arguments with commas between them; an omitted one has none. -/
def renderArgs (spell : Expr → List TokenKind) : List Expr → List TokenKind
  | [] => []
  | arg :: args =>
    (if arg.isOmitted then [] else render spell arg) ++
      match args with
      | [] => []
      | next :: rest => .comma :: renderArgs spell (next :: rest)

end

/-- The tree can be written: its literals, references and arrays are spelt, and its calls are kept
as they are. -/
inductive Writable (ctx : FormulaContext) (spell : Expr → List TokenKind) : Expr → Prop
  | atom {e : Expr} (h : Atom ctx (spell e) e) : Writable ctx spell e
  | call {f : String} {args : List Expr} (hcall : Calls ctx f args (.call f args))
    (hsole : args ≠ [.literal .empty])
    (hargs : ∀ a ∈ args, a.isOmitted = false → Writable ctx spell a) :
    Writable ctx spell (.call f args)
  | dynamic {f : String} {args : List Expr} (hcall : Calls ctx f args (.dynamic f args))
    (hsole : args ≠ [.literal .empty])
    (hargs : ∀ a ∈ args, a.isOmitted = false → Writable ctx spell a) :
    Writable ctx spell (.dynamic f args)
  | unary {e : Expr} (op : UnaryOp) (h : Writable ctx spell e) : Writable ctx spell (.unary op e)
  | binary {a b : Expr} (op : BinaryOp) (ha : Writable ctx spell a) (hb : Writable ctx spell b) :
    Writable ctx spell (.binary op a b)

variable {spell : Expr → List TokenKind}

/-- Parentheses make a text strong enough for its place. -/
theorem renders_enclose (h : ∀ m ≤ e.strength, Renders ctx m kinds e) (n : Nat) :
    Renders ctx n (enclose (e.strength < n) kinds) e := by
  unfold enclose
  split
  case isTrue => exact .parens (h 0 (Nat.zero_le _))
  case isFalse hn => exact h n (by simpa using hn)

/-- The tokens of an argument. -/
def renderArg (spell : Expr → List TokenKind) (a : Expr) : List TokenKind :=
  if a.isOmitted then [] else render spell a

theorem separated_renderArgs (a : Expr) (args : List Expr) :
    Separated ((a :: args).map (renderArg spell)) (renderArgs spell (a :: args)) := by
  induction args generalizing a with
  | nil =>
    rw [renderArgs, List.append_nil]
    exact .last _
  | cons b rest ih =>
    rw [renderArgs]
    exact .next rfl (ih b)

/-- The text of a call whose arguments can be written. -/
theorem renders_call {f : String} {args : List Expr} (hcall : Calls ctx f args e)
    (hsole : args ≠ [.literal .empty])
    (hargs : ∀ a ∈ args, a.isOmitted = false → Renders ctx 0 (render spell a) a) :
    Renders ctx n (.identifier f :: .leftParen :: (renderArgs spell args ++ [.rightParen])) e := by
  cases args with
  | nil => exact .emptyCall hcall
  | cons a args =>
    have hmap {β : Type} (g : List TokenKind × Expr → β) :
        ((a :: args).map fun a => (renderArg spell a, a)).map g =
          (a :: args).map fun a => g (renderArg spell a, a) := List.map_map
    have hsnd := (hmap Prod.snd).trans (List.map_id _)
    refine @Renders.call ctx n f ((a :: args).map fun a => (renderArg spell a, a)) _ e ?_ ?_ ?_
      (by rwa [hsnd]) (by rwa [hsnd])
    · rw [hmap Prod.fst]
      exact separated_renderArgs a args
    · intro p hp homitted
      obtain ⟨b, hb, rfl⟩ := List.mem_map.mp hp
      have hwritten : renderArg spell b = render spell b := by
        rw [renderArg, if_neg (by simpa using homitted)]
      rw [hwritten]
      exact hargs b hb homitted
    · intro p hp homitted
      obtain ⟨b, hb, rfl⟩ := List.mem_map.mp hp
      exact if_pos homitted

theorem render_of_atom (h : Atom ctx kinds e) : render spell e = spell e := by
  cases h <;> rfl

/-- **The text with the parentheses that are needed is a text of its tree.** -/
theorem renders_render (h : Writable ctx spell e) :
    ∀ m ≤ e.strength, Renders ctx m (render spell e) e := by
  induction h with
  | atom h =>
    intro m _
    rw [render_of_atom h]
    exact .atom h
  | call hcall hsole _ ih =>
    intro m _
    rw [render]
    exact renders_call hcall hsole fun a ha homitted => ih a ha homitted 0 (Nat.zero_le _)
  | dynamic hcall hsole _ ih =>
    intro m _
    rw [render]
    exact renders_call hcall hsole fun a ha homitted => ih a ha homitted 0 (Nat.zero_le _)
  | unary op _ ih =>
    intro m hm
    cases op with
    | negate => exact .negate hm (renders_enclose ih _)
    | plus => exact .plus hm (renders_enclose ih _)
    | percent => exact .percent hm (renders_enclose ih _)
  | binary op _ _ iha ihb =>
    intro m hm
    rw [render]
    exact .binary op hm (renders_enclose iha _) (renders_enclose ihb _)

/-! ### Needed parentheses -/

/-- The tree holds together, and is no omitted argument. -/
def IsOperand (e : Expr) : Prop := e.strength = 7 ∧ e.isOmitted = false

theorem isOperand_of_atom (h : Atom ctx kinds e) : IsOperand e := by
  cases h <;> exact ⟨rfl, rfl⟩

theorem isOperand_rectangle (sheet : String) (top left height width : Int) :
    IsOperand (rectangle sheet top left height width) := by
  unfold rectangle
  dsimp only
  split
  · split <;> exact ⟨rfl, rfl⟩
  · exact ⟨rfl, rfl⟩

theorem isOperand_of_offset? {args : List Expr} (h : offset? args = some e) : IsOperand e := by
  unfold offset? at h
  split at h
  case h_1 =>
    obtain ⟨numbers, -, h⟩ := Option.bind_eq_some_iff.mp h
    split at h
    · obtain rfl := Option.some.inj h
      exact isOperand_rectangle _ _ _ _ _
    · cases h
  case h_2 => cases h

/-- A call is kept as one, or folded into a reference or a fault. -/
theorem isOperand_of_calls {f : String} {args : List Expr} (h : Calls ctx f args e) :
    IsOperand e := by
  obtain ⟨c', hread, -⟩ := h 0 ⟨[], []⟩
  unfold call at hread
  dsimp only at hread
  split at hread
  case h_1 =>
    obtain ⟨rfl, -⟩ := Prod.mk.inj (Except.ok.inj hread)
    exact ⟨rfl, rfl⟩
  case h_2 =>
    split at hread
    case h_1 => cases hread
    case h_2 =>
      split at hread
      case isFalse =>
        obtain ⟨rfl, -⟩ := Prod.mk.inj (Except.ok.inj hread)
        exact ⟨rfl, rfl⟩
      case isTrue =>
        split at hread
        case h_2 =>
          obtain ⟨rfl, -⟩ := Prod.mk.inj (Except.ok.inj hread)
          exact ⟨rfl, rfl⟩
        case h_1 folded hfolded =>
          obtain ⟨rfl, -⟩ := Prod.mk.inj (Except.ok.inj hread)
          split at hfolded
          · exact isOperand_of_offset? hfolded
          · cases hfolded

/-- **A tree that binds less than its place asks for stands in parentheses.** -/
theorem Renders.exists_parens (h : Renders ctx n kinds e) (hn : e.strength < n) (hle : n ≤ 7) :
    ∃ inner, kinds = .leftParen :: (inner ++ [.rightParen]) ∧ Renders ctx 0 inner e := by
  cases h with
  | parens h => exact ⟨_, rfl, h⟩
  | atom h =>
    have := (isOperand_of_atom h).1
    omega
  | emptyCall hcall =>
    have := (isOperand_of_calls hcall).1
    omega
  | call _ _ _ _ hcall =>
    have := (isOperand_of_calls hcall).1
    omega
  | percent hn' _ => exact absurd hn (Nat.not_lt.mpr hn')
  | negate hn' _ => exact absurd hn (Nat.not_lt.mpr hn')
  | plus hn' _ => exact absurd hn (Nat.not_lt.mpr hn')
  | binary op hn' _ _ => exact absurd hn (Nat.not_lt.mpr hn')

/-! ### Reading -/

theorem Element.yieldsConstant {v : Value} (h : Element kinds v) : YieldsConstant kinds v := by
  cases h with
  | number x s => exact yieldsConstant_number x s
  | negative x s => exact yieldsConstant_negative x s
  | text s => exact yieldsConstant_text s
  | error f => exact yieldsConstant_error f
  | boolean hb => exact yieldsConstant_boolean hb
  | positive x s =>
    intro c k ks hc
    have hnumber := Cursor.kinds_skip hc (by simp)
    refine ⟨c.skip.skip, ?_, Cursor.kinds_skip hnumber (by simp)⟩
    rw [constant, Cursor.kind_of_kinds hc]
    dsimp only
    rw [signedConstant, Cursor.kind_of_kinds hnumber]
    rfl

theorem ArrayRows.rows {rows : List (List Value)} (h : ArrayRows kinds rows) : Rows kinds rows := by
  induction h with
  | last h => exact .last h.yieldsConstant
  | comma h _ ih => exact .comma h.yieldsConstant ih
  | semicolon h _ ih => exact .semicolon h.yieldsConstant ih

theorem Atom.yields (h : Atom ctx kinds e) : Yields (primary ctx) 1 9 kinds e := by
  cases h with
  | number x s => exact yields_number x s
  | text s => exact yields_text s
  | error f => exact yields_error f
  | boolean hb => exact yields_boolean hb
  | reference h halone hr => exact h.yields_unqualified halone hr
  | qualified hk h hr => exact h.yields_qualified hk hr
  | array h hrect => exact h.rows.yields_array hrect

theorem Atom.exists_cons (h : Atom ctx kinds e) : ∃ k ks, kinds = k :: ks ∧ OpensOperand k := by
  cases h with
  | reference h _ _ =>
    cases h with
    | single hk => exact ⟨_, _, rfl, opensOperand_of_referencePart? hk⟩
    | pair hk _ => exact ⟨_, _, rfl, opensOperand_of_referencePart? hk⟩
  | qualified hk _ _ =>
    refine ⟨_, _, rfl, ?_⟩
    rcases hk with rfl | rfl <;> exact ⟨rfl, rfl⟩
  | _ => exact ⟨_, _, rfl, rfl, rfl⟩

/-- A text starts with an operand, or if it may be weaker than a percent sign, with a sign. -/
theorem Renders.exists_cons (h : Renders ctx n kinds e) :
    ∃ k ks, kinds = k :: ks ∧ endsArgument k = false ∧ (6 ≤ n → isSign k = false) := by
  induction h with
  | atom h =>
    obtain ⟨k, ks, rfl, hends, hsign⟩ := h.exists_cons
    exact ⟨k, ks, rfl, hends, fun _ => hsign⟩
  | emptyCall _ => exact ⟨_, _, rfl, rfl, fun _ => rfl⟩
  | call _ _ _ _ _ _ => exact ⟨_, _, rfl, rfl, fun _ => rfl⟩
  | parens _ _ => exact ⟨_, _, rfl, rfl, fun _ => rfl⟩
  | percent _ _ ih =>
    obtain ⟨k, ks, rfl, hends, hsign⟩ := ih
    exact ⟨k, _, rfl, hends, fun _ => hsign (Nat.le_refl _)⟩
  | negate hn _ _ => exact ⟨_, _, rfl, rfl, fun h => absurd (h.trans hn) (by decide)⟩
  | plus hn _ _ => exact ⟨_, _, rfl, rfl, fun h => absurd (h.trans hn) (by decide)⟩
  | binary op hn _ _ iha _ =>
    obtain ⟨k, ks, rfl, hends, -⟩ := iha
    refine ⟨k, _, rfl, hends, fun h => absurd (h.trans hn) ?_⟩
    cases op <;> decide

/-- What the parser makes of a text of strength `n`. -/
def ReadAt (ctx : FormulaContext) : Nat → List TokenKind → Expr → Prop
  | 0 => YieldsChain ctx 3
  | 1 => YieldsChain ctx 2
  | 2 => YieldsChain ctx 1
  | 3 => YieldsChain ctx 0
  | 4 => Yields (power ctx) 3 7
  | 5 => Yields (signed ctx) 2 8
  | 6 => YieldsPostfix ctx
  | _ => Yields (primary ctx) 1 9

theorem readAt_of_lt (h : n < topLevel) : ReadAt ctx n = YieldsChain ctx (3 - n) := by
  match n, h with
  | 0, _ => rfl
  | 1, _ => rfl
  | 2, _ => rfl
  | 3, _ => rfl

/-- A level reads the texts of its strength. -/
theorem ReadAt.level (hn : n ≤ topLevel) (h : ReadAt ctx n kinds e) :
    Yields (fun fuel => Parser.level ctx fuel (4 - n)) (4 - n + 3) (6 - (4 - n)) kinds e := by
  match n, hn with
  | 0, _ => exact YieldsChain.level (by decide) h
  | 1, _ => exact YieldsChain.level (by decide) h
  | 2, _ => exact YieldsChain.level (by decide) h
  | 3, _ => exact YieldsChain.level (by decide) h
  | 4, _ => exact Yields.level_zero h

theorem ReadAt.pred (hsign : n = 6 → ∃ k ks, kinds = k :: ks ∧ isSign k = false)
    (h : ReadAt ctx (n + 1) kinds e) : ReadAt ctx n kinds e := by
  match n with
  | 0 => exact (YieldsChain.level (by decide) h).chain (by decide)
  | 1 => exact (YieldsChain.level (by decide) h).chain (by decide)
  | 2 => exact (YieldsChain.level (by decide) h).chain (by decide)
  | 3 => exact (Yields.level_zero h).chain (by decide)
  | 4 => exact Yields.power h
  | 5 => exact YieldsPostfix.signed h
  | 6 =>
    obtain ⟨k, ks, rfl, hk⟩ := hsign rfl
    exact YieldsPostfix.of_primary h hk
  | n + 7 => exact h

/-- A strong text is read where less is asked for. -/
theorem ReadAt.mono {m : Nat} (hm : m ≤ n) (h : ReadAt ctx n kinds e)
    (hsign : 7 ≤ n → ∃ k ks, kinds = k :: ks ∧ isSign k = false) : ReadAt ctx m kinds e := by
  induction n, hm using Nat.le_induction with
  | base => exact h
  | succ n hm ih =>
    refine ih (h.pred fun hn => hsign (by omega)) fun hn => hsign (by omega)

theorem operator?_token {op : BinaryOp} (h : op.groupsRight = false) :
    op.strength < topLevel ∧ operator? (3 - op.strength + 1) op.token = some op := by
  cases op <;> first | exact ⟨by decide, rfl⟩ | cases h

/-- Arguments that are read one by one are read in a row. -/
theorem Separated.arguments {args : List (List TokenKind × Expr)}
    (h : Separated (args.map Prod.fst) kinds) (hargs : ∀ p ∈ args, Argument ctx p.1 p.2) :
    Arguments ctx kinds (args.map Prod.snd) := by
  generalize hpieces : args.map Prod.fst = pieces at h
  induction h generalizing args with
  | last kinds =>
    obtain ⟨p, rfl, rfl⟩ := List.map_eq_singleton_iff.mp hpieces
    exact .last (hargs p List.mem_cons_self)
  | next hk _ ih =>
    obtain ⟨p, rest, rfl, rfl, hrest⟩ := List.map_eq_cons_iff.mp hpieces
    exact .next hk (hargs p List.mem_cons_self)
      (ih (fun q hq => hargs q (List.mem_cons_of_mem _ hq)) hrest)

/-- **Every text of a tree is read as that tree.** -/
theorem Renders.readAt (h : Renders ctx n kinds e) : ReadAt ctx n kinds e := by
  -- operands are read at every strength
  have hprimary {n : Nat} {k : TokenKind} {kinds : List TokenKind} {e : Expr}
      (hread : Yields (primary ctx) 1 9 (k :: kinds) e) (hk : isSign k = false) :
      ReadAt ctx n (k :: kinds) e := by
    have hstrong : ReadAt ctx (n + 7) (k :: kinds) e := hread
    exact hstrong.mono (Nat.le_add_right n 7) fun _ => ⟨k, kinds, rfl, hk⟩
  induction h with
  | atom h =>
    have hread := h.yields
    obtain ⟨k, ks, rfl, -, hsign⟩ := h.exists_cons
    exact hprimary hread hsign
  | emptyCall hcall => exact hprimary (yields_call_nil hcall) rfl
  | call hkinds hargs homitted hsole hcall ih =>
    refine hprimary (Arguments.yields_call (hkinds.arguments fun p hp => ?_) hsole hcall) rfl
    cases hp' : p.2.isOmitted with
    | true =>
      rw [homitted p hp hp', Expr.eq_omitted hp']
      exact .omitted
    | false =>
      have hread := (ih p hp hp').level (Nat.zero_le _)
      obtain ⟨k, ks, hkinds', hends, -⟩ := (hargs p hp hp').exists_cons
      rw [hkinds'] at hread ⊢
      exact .expression hends hread
  | parens _ ih => exact hprimary (YieldsExpr.parens (ih.level (Nat.zero_le _))) rfl
  | percent hn _ ih => exact ReadAt.mono hn (YieldsPostfix.percent ih) fun h => absurd h (by decide)
  | negate hn _ ih => exact ReadAt.mono hn (Yields.negate ih) fun h => absurd h (by decide)
  | plus hn _ ih => exact ReadAt.mono hn (Yields.plus ih) fun h => absurd h (by decide)
  | binary op hn _ _ iha ihb =>
    have hweak : ¬ 7 ≤ op.strength := by cases op <;> decide
    refine ReadAt.mono hn ?_ fun h => absurd h hweak
    rw [BinaryOp.leftStrength] at iha
    rw [BinaryOp.rightStrength] at ihb
    -- a power takes a power on its right, the other operators chain on their left
    cases hright : op.groupsRight with
    | true =>
      obtain rfl : op = .power := of_decide_eq_true hright
      exact Yields.caret iha ihb
    | false =>
      obtain ⟨hlt, hop⟩ := operator?_token hright
      rw [hright, if_neg Bool.false_ne_true] at iha ihb
      rw [readAt_of_lt hlt] at iha ⊢
      have hlevel := ihb.level hlt
      rw [show 4 - (op.strength + 1) = 3 - op.strength by omega] at hlevel
      exact iha.operator (by rw [topLevel] at hlt ⊢; omega) hop hlevel

end Parser

end Recalc
