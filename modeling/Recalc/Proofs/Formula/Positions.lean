/-
Recalc/Proofs/Formula/Positions.lean

Where errors and flags point.  Positions count characters from the start of the formula.  An
error points into the formula or at its end, and if a call has the wrong number of arguments,
at the name of the function, as do the flags of unsupported calls.  The flags are those of the
tree: one for each reference that is only known once computed and one for each call of an
unknown function, inner ones before those around them (`Engine.placed_compile`).

Design.  `Told` says what becomes of a computation either way: its error is placed, or its
result has a property.  It passes through `>>=`, so each function of the parser gets one
statement, from where the cursor stands before to where it stands behind what was read.  As in
`Reading`, the functions call each other on less fuel, and one induction on the fuel carries
them all.
-/
import Recalc.Eval.Engine
import Recalc.Proofs.Formula.Reading
import Recalc.Proofs.Formula.Targets
import Recalc.Proofs.Formula.Tiling

namespace Recalc

/-! ### Places -/

/-- At this place of a text stands a name, and in upper case it is that of the function. -/
def NamedAt (cs : List Char) (pos : Nat) (function : String) : Prop :=
  ∃ name : String, Lexer.isName name.toList = true ∧ name.toList <+: cs.drop pos ∧
    Text.upperAscii name = function

/-- The token stands in the text or at its end, and a name is read where its token starts. -/
structure Token.Placed (cs : List Char) (t : Token) : Prop where
  pos_le : t.pos ≤ cs.length
  named : ∀ name, t.kind = .identifier name → NamedAt cs t.pos (Text.upperAscii name)

/-- The error points into the text or at its end, and at the name of the function if a call has
the wrong number of arguments. -/
structure FormulaError.Placed (cs : List Char) (e : FormulaError) : Prop where
  position_le : e.position ≤ cs.length
  named : ∀ pos function expected got, e = .arity pos function expected got →
    NamedAt cs pos function

variable {cs : List Char} {pos : Nat}

theorem NamedAt.lt_length {function : String} (h : NamedAt cs pos function) : pos < cs.length := by
  obtain ⟨name, hname, hstarts, -⟩ := h
  apply Nat.lt_of_not_le
  intro hle
  rw [List.drop_eq_nil_of_le hle, List.prefix_nil] at hstarts
  rw [hstarts] at hname
  cases hname

namespace FormulaError

theorem placed_parse (h : pos ≤ cs.length) (fault : SyntaxFault) :
    (FormulaError.parse pos fault).Placed cs := by
  refine ⟨h, ?_⟩
  intro pos' function expected got heq
  cases heq

theorem placed_unknownReference (h : pos ≤ cs.length) (reference : String) :
    (FormulaError.unknownReference pos reference).Placed cs := by
  refine ⟨h, ?_⟩
  intro pos' function expected got heq
  cases heq

theorem placed_arity {function : String} (h : NamedAt cs pos function) (expected : String)
    (got : Nat) : (FormulaError.arity pos function expected got).Placed cs := by
  refine ⟨Nat.le_of_lt h.lt_length, ?_⟩
  intro pos' function' expected' got' heq
  cases heq
  exact h

end FormulaError

/-- What becomes of a computation: an error that is placed, or a result with a property. -/
inductive Told {α : Type} (cs : List Char) (P : α → Prop) : Except FormulaError α → Prop
  | ok {a : α} (h : P a) : Told cs P (.ok a)
  | error {e : FormulaError} (h : e.Placed cs) : Told cs P (.error e)

/-- What follows is told if it is told of every result so far. -/
theorem Told.bind {α β : Type} {P : α → Prop} {Q : β → Prop} {x : Except FormulaError α}
    {f : α → Except FormulaError β} (hx : Told cs P x) (hf : ∀ a, P a → Told cs Q (f a)) :
    Told cs Q (x >>= f) := by
  cases hx with
  | ok h => exact hf _ h
  | error h => exact .error h

/-! ### Tokens -/

namespace Lexer

variable {c : Char} {rest : List Char} {s : String} {n : Nat}

/-- A name stands where its token was read. -/
theorem prefix_of_munched (h : Munched c rest (.identifier s) n) : s.toList <+: c :: rest := by
  have hcovers : c :: rest.take n = s.toList := h.takes.covers
  rw [← hcovers]
  exact (List.prefix_cons_inj c).mpr (List.take_prefix n rest)

/-- **Tokens are placed**, and where there are none, the fault is. -/
theorem told_scan (taken : Nat) (before cs : List Char) :
    Told (before ++ cs) (fun ts => ∀ t ∈ ts, t.Placed (before ++ cs))
      (scan taken before.length cs) := by
  induction cs generalizing taken before with
  | nil =>
    refine .ok fun t ht => ?_
    obtain rfl := List.mem_singleton.mp ht
    refine ⟨by simp, ?_⟩
    intro name hname
    cases hname
  | cons c rest ih =>
    -- one character more lies before what is left
    have hnext (more : Nat) := ih more (before ++ [c])
    rw [List.append_assoc, List.singleton_append, List.length_append, List.length_singleton] at hnext
    have hpos : before.length ≤ (before ++ c :: rest).length := by simp
    cases taken with
    | succ taken => exact hnext taken
    | zero =>
      rw [scan]
      split
      · exact hnext 0
      · split
        case h_1 kind more hmunch =>
          refine (hnext more).bind ?_
          intro ts hts
          refine .ok fun t ht => ?_
          rcases List.mem_cons.mp ht with rfl | ht
          · refine ⟨hpos, ?_⟩
            rintro name rfl
            have hread := munched_of_munch hmunch
            refine ⟨name, hread.spelt, ?_, rfl⟩
            rw [List.drop_left]
            exact prefix_of_munched hread
          · exact hts t ht
        case h_2 fault hfault => exact .error (FormulaError.placed_parse hpos fault)

end Lexer

/-! ### Flags of trees -/

namespace Expr

/-- The function of a call that is not supported, and why. -/
def unsupported? (functions : Registry) : Expr → Option (String × UnsupportedReason)
  | .call function _ =>
    if (functions.find? function).isNone then some (function, .unknownFunction) else none
  | .dynamic function _ => some (function, .dynamicReference)
  | _ => none

mutual

/-- The formula and all formulas in it, from left to right, inner ones before those around
them. -/
def innerFirst : Expr → List Expr
  | .literal v => [.literal v]
  | .array rows => [.array rows]
  | .reference r => [.reference r]
  | .call name args => innerFirstOfArgs args ++ [.call name args]
  | .dynamic function args => innerFirstOfArgs args ++ [.dynamic function args]
  | .unary op operand => innerFirst operand ++ [.unary op operand]
  | .binary op left right => innerFirst left ++ innerFirst right ++ [.binary op left right]

/-- The arguments and all formulas in them, inner ones before those around them. -/
def innerFirstOfArgs : List Expr → List Expr
  | [] => []
  | arg :: args => innerFirst arg ++ innerFirstOfArgs args

end

mutual

/-- The parts in another order. -/
theorem perm_innerFirst : (e : Expr) → e.innerFirst.Perm e.parts
  | .literal v => .refl _
  | .array rows => .refl _
  | .reference r => .refl _
  | .call name args => by
    rw [innerFirst, parts]
    exact (List.perm_append_singleton _ _).trans ((perm_innerFirstOfArgs args).cons _)
  | .dynamic function args => by
    rw [innerFirst, parts]
    exact (List.perm_append_singleton _ _).trans ((perm_innerFirstOfArgs args).cons _)
  | .unary op operand => by
    rw [innerFirst, parts]
    exact (List.perm_append_singleton _ _).trans ((perm_innerFirst operand).cons _)
  | .binary op left right => by
    rw [innerFirst, parts]
    exact (List.perm_append_singleton _ _).trans
      (((perm_innerFirst left).append (perm_innerFirst right)).cons _)

theorem perm_innerFirstOfArgs : (args : List Expr) → (innerFirstOfArgs args).Perm (partsOfArgs args)
  | [] => .refl _
  | arg :: args => by
    rw [innerFirstOfArgs, partsOfArgs]
    exact (perm_innerFirst arg).append (perm_innerFirstOfArgs args)

end

/-- The unsupported calls of a formula. -/
def flags (functions : Registry) (e : Expr) : List (String × UnsupportedReason) :=
  e.innerFirst.filterMap (unsupported? functions)

/-- The unsupported calls of arguments. -/
def flagsOfArgs (functions : Registry) (args : List Expr) : List (String × UnsupportedReason) :=
  (innerFirstOfArgs args).filterMap (unsupported? functions)

variable (functions : Registry)

@[simp] theorem flags_literal (v : Value) : (Expr.literal v).flags functions = [] := rfl

@[simp] theorem flags_array (rows : List (List Value)) : (Expr.array rows).flags functions = [] := rfl

@[simp] theorem flags_reference (r : Reference) : (Expr.reference r).flags functions = [] := rfl

@[simp] theorem flags_unary (op : UnaryOp) (e : Expr) :
    (Expr.unary op e).flags functions = e.flags functions := by
  simp [flags, innerFirst, unsupported?]

@[simp] theorem flags_binary (op : BinaryOp) (l r : Expr) :
    (Expr.binary op l r).flags functions = l.flags functions ++ r.flags functions := by
  simp [flags, innerFirst, unsupported?]

@[simp] theorem flags_dynamic (f : String) (args : List Expr) :
    (Expr.dynamic f args).flags functions =
      flagsOfArgs functions args ++ [(f, .dynamicReference)] := by
  simp [flags, flagsOfArgs, innerFirst, unsupported?]

theorem flags_call_unknown {f : String} (h : functions.find? f = none) (args : List Expr) :
    (Expr.call f args).flags functions =
      flagsOfArgs functions args ++ [(f, .unknownFunction)] := by
  simp [flags, flagsOfArgs, innerFirst, unsupported?, h]

theorem flags_call_known {f : String} {spec : FunctionSpec} (h : functions.find? f = some spec)
    (args : List Expr) : (Expr.call f args).flags functions = flagsOfArgs functions args := by
  simp [flags, flagsOfArgs, innerFirst, unsupported?, h]

@[simp] theorem flagsOfArgs_nil : flagsOfArgs functions [] = [] := rfl

@[simp] theorem flagsOfArgs_cons (arg : Expr) (args : List Expr) :
    flagsOfArgs functions (arg :: args) = arg.flags functions ++ flagsOfArgs functions args := by
  simp [flags, flagsOfArgs, innerFirstOfArgs]

/-- A number with signs in front has no calls in it. -/
theorem flags_of_literalNumber? :
    (e : Expr) → (Parser.literalNumber? e).isSome = true → e.flags functions = []
  | .literal _, _ => rfl
  | .unary .negate e, h => by
    rw [Parser.literalNumber?, Option.isSome_map] at h
    rw [flags_unary]
    exact flags_of_literalNumber? e h
  | .unary .plus e, h => by
    rw [Parser.literalNumber?] at h
    rw [flags_unary]
    exact flags_of_literalNumber? e h

theorem flagsOfArgs_of_mapM {args : List Expr} {numbers : List Float}
    (h : args.mapM Parser.literalNumber? = some numbers) : flagsOfArgs functions args = [] := by
  induction args generalizing numbers with
  | nil => rfl
  | cons arg args ih =>
    rw [List.mapM_cons] at h
    obtain ⟨x, hx, h⟩ := Option.bind_eq_some_iff.mp h
    obtain ⟨xs, hxs, -⟩ := Option.bind_eq_some_iff.mp h
    rw [flagsOfArgs_cons, ih hxs,
      flags_of_literalNumber? functions arg (Option.isSome_iff_exists.mpr ⟨x, hx⟩), List.append_nil]

theorem flags_rectangle (sheet : String) (top left height width : Int) :
    (Parser.rectangle sheet top left height width).flags functions = [] := by
  unfold Parser.rectangle
  dsimp only
  split
  · split <;> rfl
  · rfl

/-- **Folding an offset loses no flag**: there is none in its arguments. -/
theorem flags_of_offset? {args : List Expr} {e : Expr} (h : Parser.offset? args = some e) :
    flagsOfArgs functions args = [] ∧ e.flags functions = [] := by
  unfold Parser.offset? at h
  split at h
  case h_1 base offsets =>
    obtain ⟨numbers, hnumbers, h⟩ := Option.bind_eq_some_iff.mp h
    split at h
    case h_1 rows columns size =>
      obtain rfl := Option.some.inj h
      refine ⟨?_, flags_rectangle functions _ _ _ _ _⟩
      rw [flagsOfArgs_cons, flags_reference, List.nil_append]
      exact flagsOfArgs_of_mapM functions hnumbers
    case h_2 => cases h
  case h_2 => cases h

end Expr

/-- The function that is flagged, and why. -/
def Unsupported.mark (u : Unsupported) : String × UnsupportedReason := (u.function, u.reason)

/-! ### Cursors -/

namespace Parser

variable {ctx : FormulaContext} {c : Cursor} {e : Expr} {t : Token} {fuel : Nat} {s : String}
variable {marks : List (String × UnsupportedReason)}

/-- Where a cursor stands: its tokens are placed, and these calls were flagged, each at its
name. -/
structure Cursor.Stands (cs : List Char) (marks : List (String × UnsupportedReason)) (c : Cursor) :
    Prop where
  placed : ∀ t ∈ c.rest, t.Placed cs
  flagged : c.flagged.map Unsupported.mark = marks
  named : ∀ u ∈ c.flagged, NamedAt cs u.position u.function

/-- The cursor stands behind a tree, whose unsupported calls were flagged. -/
def Behind (ctx : FormulaContext) (cs : List Char) (marks : List (String × UnsupportedReason))
    (p : Expr × Cursor) : Prop :=
  p.2.Stands cs (marks ++ p.1.flags ctx.functions)

/-- The cursor stands behind arguments. -/
def BehindArgs (ctx : FormulaContext) (cs : List Char) (marks : List (String × UnsupportedReason))
    (p : List Expr × Cursor) : Prop :=
  p.2.Stands cs (marks ++ Expr.flagsOfArgs ctx.functions p.1)

/-- The cursor stands behind constants, which flag nothing. -/
def BehindConstants {α : Type} (cs : List Char) (marks : List (String × UnsupportedReason))
    (p : α × Cursor) : Prop :=
  p.2.Stands cs marks

theorem Cursor.Stands.token (h : c.Stands cs marks) : c.token.Placed cs := by
  rw [Cursor.token]
  cases hrest : c.rest with
  | nil =>
    refine ⟨Nat.zero_le _, ?_⟩
    intro name hname
    cases hname
  | cons t rest => exact h.placed t (hrest ▸ List.mem_cons_self)

/-- The tokens left are some of those before. -/
theorem Cursor.suffix_skip (c : Cursor) : c.skip.rest <:+ c.rest := by
  unfold Cursor.skip
  split
  case h_1 => exact List.suffix_refl _
  case h_2 => exact List.suffix_refl _
  case h_3 t rest _ hrest =>
    rw [hrest]
    exact List.suffix_cons t rest

theorem Cursor.Stands.of_suffix {rest : List Token} (h : c.Stands cs marks)
    (hrest : rest <:+ c.rest) : Cursor.Stands cs marks { c with rest } :=
  ⟨fun t ht => h.placed t (hrest.subset ht), h.flagged, h.named⟩

theorem Cursor.Stands.skip (h : c.Stands cs marks) : c.skip.Stands cs marks where
  placed := fun t ht => h.placed t (c.suffix_skip.subset ht)
  flagged := by rw [Cursor.flagged_skip, h.flagged]
  named := by
    rw [Cursor.flagged_skip]
    exact h.named

theorem Cursor.Stands.flag {u : Unsupported} (h : c.Stands cs marks)
    (hu : NamedAt cs u.position u.function) : (c.flag u).Stands cs (marks ++ [u.mark]) where
  placed := h.placed
  flagged := by
    rw [Cursor.flag, List.map_append, h.flagged]
    rfl
  named := by
    intro v hv
    rcases List.mem_append.mp hv with hv | hv
    · exact h.named v hv
    · rw [List.mem_singleton.mp hv]
      exact hu

/-- Behind a tree without unsupported calls nothing more is flagged. -/
theorem Cursor.Stands.behind (h : c.Stands cs marks) (he : e.flags ctx.functions = []) :
    Behind ctx cs marks (e, c) := by
  rw [Behind, he, List.append_nil]
  exact h

/-- No arguments flag nothing. -/
theorem Cursor.Stands.behindNone (h : c.Stands cs marks) : BehindArgs ctx cs marks ([], c) := by
  rw [BehindArgs, Expr.flagsOfArgs_nil, List.append_nil]
  exact h

theorem told_failAt {α : Type} {P : α → Prop} (h : t.Placed cs) (fault : SyntaxFault) :
    Told cs P (failAt t fault) :=
  .error (FormulaError.placed_parse h.pos_le fault)

/-! ### References -/

theorem told_resolveAt {sheet : Option String} (hpos : pos ≤ cs.length) (hc : c.Stands cs marks) :
    Told cs (Behind ctx cs marks) (resolveAt ctx sheet s pos c) := by
  unfold resolveAt
  extract_lets text
  split
  case h_1 r _ => exact .ok (hc.behind (Expr.flags_reference _ r))
  case h_2 => exact .error (FormulaError.placed_unknownReference hpos text)

theorem told_reference {sheet : Option String} (hpos : pos ≤ cs.length) (hc : c.Stands cs marks) :
    Told cs (Behind ctx cs marks) (reference ctx sheet s pos c) := by
  unfold reference
  split
  case h_1 =>
    extract_lets last
    split
    case h_1 => exact told_resolveAt hpos hc.skip.skip
    case h_2 => exact told_failAt hc.skip.token _
  case h_2 => exact told_resolveAt hpos hc

theorem told_qualified {sheet : String} (hpos : pos ≤ cs.length) (hc : c.Stands cs marks) :
    Told cs (Behind ctx cs marks) (qualified ctx sheet pos c) := by
  unfold qualified
  split
  case h_1 =>
    extract_lets t
    split
    case h_1 => exact told_reference hpos hc.skip.skip
    case h_2 => exact told_failAt hc.skip.token _
  case h_2 => exact .error (FormulaError.placed_parse hpos _)

/-! ### Arrays -/

theorem told_signedConstant (sign : Float → Float) (hc : c.Stands cs marks) :
    Told cs (BehindConstants cs marks) (signedConstant sign c) := by
  unfold signedConstant
  split
  · exact .ok hc.skip
  · exact told_failAt hc.token _

theorem told_constant (hc : c.Stands cs marks) :
    Told cs (BehindConstants cs marks) (constant c) := by
  unfold constant
  split
  case h_1 => exact told_signedConstant _ hc.skip
  case h_2 => exact told_signedConstant _ hc.skip
  case h_6 name _ =>
    split
    · exact .ok hc.skip
    · exact told_failAt hc.token _
  case h_7 => exact told_failAt hc.token _
  all_goals exact .ok hc.skip

theorem told_arrayRows (hc : c.Stands cs marks) :
    Told cs (BehindConstants cs marks) (arrayRows fuel c) := by
  induction fuel generalizing c with
  | zero => exact told_failAt hc.token _
  | succ fuel ih =>
    rw [arrayRows]
    refine (told_constant hc).bind ?_
    rintro ⟨v, d⟩ (hd : d.Stands cs marks)
    dsimp only
    split
    case h_1 =>
      refine (ih hd.skip).bind ?_
      rintro ⟨rows, d'⟩ hrows
      cases rows with
      | nil => exact .ok hrows
      | cons row rows => exact .ok hrows
    case h_2 =>
      refine (ih hd.skip).bind ?_
      intro p hp
      exact .ok hp
    case h_3 => exact .ok hd.skip
    case h_4 => exact told_failAt hd.token _

theorem told_array (hpos : pos ≤ cs.length) (hc : c.Stands cs marks) :
    Told cs (Behind ctx cs marks) (array pos c) := by
  rw [array]
  refine (told_arrayRows hc).bind ?_
  rintro ⟨rows, d⟩ hd
  dsimp only
  split
  · exact .ok (Cursor.Stands.behind hd (Expr.flags_array _ rows))
  · exact .error (FormulaError.placed_parse hpos _)

/-! ### Calls -/

/-- **A call is flagged at its name if it is not supported**, behind the flags of its arguments. -/
theorem told_call {args : List Expr} (hname : NamedAt cs pos (Text.upperAscii s))
    (hargs : BehindArgs ctx cs marks (args, c)) :
    Told cs (Behind ctx cs marks) (call ctx s args pos c) := by
  have hflag (reason : UnsupportedReason) :
      (c.flag ⟨pos, Text.upperAscii s, reason⟩).Stands cs
        (marks ++ (Expr.flagsOfArgs ctx.functions args ++ [(Text.upperAscii s, reason)])) := by
    rw [← List.append_assoc]
    exact Cursor.Stands.flag (u := ⟨pos, Text.upperAscii s, reason⟩) hargs hname
  unfold call
  extract_lets function
  split
  case h_1 hunknown =>
    refine .ok ?_
    rw [Behind, Expr.flags_call_unknown ctx.functions hunknown]
    exact hflag .unknownFunction
  case h_2 spec hspec =>
    split
    case h_1 expected _ => exact .error (FormulaError.placed_arity hname expected args.length)
    case h_2 =>
      split
      case isTrue =>
        split
        case h_1 folded hfolded =>
          have hoffset : offset? args = some folded := by
            split at hfolded
            · exact hfolded
            · cases hfolded
          obtain ⟨hnone, hfoldedNone⟩ := Expr.flags_of_offset? ctx.functions hoffset
          rw [BehindArgs, hnone, List.append_nil] at hargs
          exact .ok (hargs.behind hfoldedNone)
        case h_2 =>
          refine .ok ?_
          rw [Behind, Expr.flags_dynamic]
          exact hflag .dynamicReference
      case isFalse =>
        refine .ok ?_
        rw [Behind, Expr.flags_call_known ctx.functions hspec]
        exact hargs

/-! ### Expressions -/

theorem flags_percents (functions : Registry) (e : Expr) (ts : List Token) :
    (percents e ts).1.flags functions = e.flags functions ∧ (percents e ts).2 <:+ ts := by
  induction ts generalizing e with
  | nil => exact ⟨rfl, List.suffix_refl _⟩
  | cons t rest ih =>
    rw [percents]
    split
    · obtain ⟨hflags, hsuffix⟩ := ih (.unary .percent e)
      rw [Expr.flags_unary] at hflags
      exact ⟨hflags, hsuffix.trans (List.suffix_cons t rest)⟩
    · exact ⟨rfl, List.suffix_refl _⟩

/-- Two operands that were read one behind the other are those of a tree. -/
theorem Behind.binary {l r : Expr} {d' : Cursor} (op : BinaryOp)
    (h : Behind ctx cs (marks ++ l.flags ctx.functions) (r, d')) :
    Behind ctx cs marks (.binary op l r, d') := by
  rw [Behind, Expr.flags_binary, ← List.append_assoc]
  exact h

/-- What becomes of the functions of the parser on a given allowance. -/
structure ToldAt (ctx : FormulaContext) (cs : List Char) (fuel : Nat) : Prop where
  level : ∀ n {marks c}, Cursor.Stands cs marks c →
    Told cs (Behind ctx cs marks) (level ctx fuel n c)
  chain : ∀ n {marks left c}, Behind ctx cs marks (left, c) →
    Told cs (Behind ctx cs marks) (chain ctx fuel n left c)
  power : ∀ {marks c}, Cursor.Stands cs marks c → Told cs (Behind ctx cs marks) (power ctx fuel c)
  signed : ∀ {marks c}, Cursor.Stands cs marks c → Told cs (Behind ctx cs marks) (signed ctx fuel c)
  primary : ∀ {marks c}, Cursor.Stands cs marks c →
    Told cs (Behind ctx cs marks) (primary ctx fuel c)
  arguments : ∀ {marks c}, Cursor.Stands cs marks c →
    Told cs (BehindArgs ctx cs marks) (arguments ctx fuel c)

theorem told_level (ih : ToldAt ctx cs fuel) (n : Nat) (hc : c.Stands cs marks) :
    Told cs (Behind ctx cs marks) (level ctx (fuel + 1) n c) := by
  cases n with
  | zero =>
    rw [level]
    exact ih.power hc
  | succ n =>
    rw [level]
    refine (ih.level n hc).bind ?_
    rintro ⟨left, d⟩ hleft
    exact ih.chain n hleft

theorem told_chain (ih : ToldAt ctx cs fuel) (n : Nat) {left : Expr}
    (hleft : Behind ctx cs marks (left, c)) :
    Told cs (Behind ctx cs marks) (chain ctx (fuel + 1) n left c) := by
  rw [chain]
  split
  case h_1 op _ =>
    refine (ih.level n (Cursor.Stands.skip hleft)).bind ?_
    rintro ⟨right, d⟩ hright
    exact ih.chain n (hright.binary op)
  case h_2 => exact .ok hleft

theorem told_power (ih : ToldAt ctx cs fuel) (hc : c.Stands cs marks) :
    Told cs (Behind ctx cs marks) (power ctx (fuel + 1) c) := by
  rw [power]
  refine (ih.signed hc).bind ?_
  rintro ⟨base, d⟩ hbase
  dsimp only
  split
  case h_1 =>
    refine (ih.power (Cursor.Stands.skip hbase)).bind ?_
    rintro ⟨exponent, d'⟩ hexponent
    exact .ok (hexponent.binary .power)
  case h_2 => exact .ok hbase

theorem told_signed (ih : ToldAt ctx cs fuel) (hc : c.Stands cs marks) :
    Told cs (Behind ctx cs marks) (signed ctx (fuel + 1) c) := by
  have hsign (op : UnaryOp) (p : Expr × Cursor) (hp : Behind ctx cs marks p) :
      Told cs (Behind ctx cs marks) (.ok (.unary op p.1, p.2)) := by
    refine .ok ?_
    rw [Behind, Expr.flags_unary]
    exact hp
  rw [signed]
  split
  case h_1 => exact (ih.signed hc.skip).bind (hsign .plus)
  case h_2 => exact (ih.signed hc.skip).bind (hsign .negate)
  case h_3 =>
    refine (ih.primary hc).bind ?_
    rintro ⟨operand, d⟩ hoperand
    obtain ⟨hflags, hsuffix⟩ := flags_percents ctx.functions operand d.rest
    refine .ok ?_
    rw [Behind, hflags]
    exact Cursor.Stands.of_suffix hoperand hsuffix

theorem told_primary (ih : ToldAt ctx cs fuel) (hc : c.Stands cs marks) :
    Told cs (Behind ctx cs marks) (primary ctx (fuel + 1) c) := by
  have hpos := hc.token.pos_le
  rw [primary]
  dsimp only
  split
  case h_1 x spelling _ =>
    split
    case h_1 => exact told_reference hpos hc.skip
    case h_2 => exact .ok (hc.skip.behind (Expr.flags_literal _ _))
  case h_2 => exact .ok (hc.skip.behind (Expr.flags_literal _ _))
  case h_3 => exact .ok (hc.skip.behind (Expr.flags_literal _ _))
  case h_4 => exact told_reference hpos hc.skip
  case h_5 => exact told_qualified hpos hc.skip
  case h_6 name hname =>
    split
    case h_1 => exact told_qualified hpos hc.skip
    case h_2 =>
      -- the name is that of the token the call starts with, whatever its arguments were
      have hnamed := hc.token.named name hname
      split
      case h_1 => exact told_call hnamed hc.skip.skip.skip.behindNone
      case h_2 =>
        refine (ih.arguments hc.skip.skip).bind ?_
        rintro ⟨args, d⟩ hd
        exact told_call hnamed hd
    case h_3 => exact told_reference hpos hc.skip
    case h_4 =>
      split
      case h_1 => exact .ok (hc.skip.behind (Expr.flags_literal _ _))
      case h_2 => exact told_reference hpos hc.skip
  case h_7 => exact told_array hpos hc.skip
  case h_8 =>
    refine (ih.level topLevel hc.skip).bind ?_
    rintro ⟨e, d⟩ hd
    dsimp only
    split
    case h_1 => exact .ok (Cursor.Stands.skip hd)
    case h_2 => exact told_failAt (Cursor.Stands.token hd) _
  case h_9 => exact told_failAt hc.token _
  case h_10 => exact told_failAt hc.token _

theorem told_argument (ih : ToldAt ctx cs fuel) (hc : c.Stands cs marks) :
    Told cs (Behind ctx cs marks) (argument ctx fuel c) := by
  unfold argument
  split
  · exact .ok (hc.behind (Expr.flags_literal _ _))
  · exact ih.level topLevel hc

theorem told_arguments (ih : ToldAt ctx cs fuel) (hc : c.Stands cs marks) :
    Told cs (BehindArgs ctx cs marks) (arguments ctx (fuel + 1) c) := by
  rw [arguments_succ]
  refine (told_argument ih hc).bind ?_
  rintro ⟨arg, d⟩ hd
  have hmore : ∀ p, BehindArgs ctx cs (marks ++ arg.flags ctx.functions) p →
      Told cs (BehindArgs ctx cs marks) (.ok (arg :: p.1, p.2)) := by
    intro p hp
    refine .ok ?_
    rw [BehindArgs, Expr.flagsOfArgs_cons, ← List.append_assoc]
    exact hp
  dsimp only [behindArgument]
  split
  case h_1 => exact (ih.arguments (Cursor.Stands.skip hd)).bind hmore
  case h_2 => exact (ih.arguments (Cursor.Stands.skip hd)).bind hmore
  case h_3 => exact hmore ([], d.skip) (Cursor.Stands.skip hd).behindNone
  case h_4 => exact told_failAt (Cursor.Stands.token hd) _

/-- **Whatever is left to read is told**, on every allowance. -/
theorem toldAt (ctx : FormulaContext) (cs : List Char) (fuel : Nat) : ToldAt ctx cs fuel := by
  induction fuel with
  | zero =>
    have hfail {α : Type} {P : α → Prop} {marks c} (hc : Cursor.Stands cs marks c) :
        Told cs P (failAt c.token .tooDeep) := told_failAt hc.token _
    exact ⟨fun n _ _ hc => hfail hc, fun n _ _ _ hc => hfail hc, hfail, hfail, hfail, hfail⟩
  | succ fuel ih =>
    exact ⟨fun n _ _ hc => told_level ih n hc, fun n _ _ _ hleft => told_chain ih n hleft,
      told_power ih, told_signed ih, told_primary ih, told_arguments ih⟩

end Parser

/-! ### Formulas -/

/-- The flags of a formula that was read from a text: each points at the name of its function, and
they are those of the tree, one for each unsupported call in it. -/
structure Formula.Flagged (functions : Registry) (cs : List Char) (f : Formula) : Prop where
  named : ∀ u ∈ f.unsupported, NamedAt cs u.position u.function
  /-- They come from left to right, inner ones before those around them. -/
  innerFirst : f.unsupported.map Unsupported.mark =
    f.expr.innerFirst.filterMap (Expr.unsupported? functions)
  /-- Every unsupported part of the tree has one of its own, and there are no others. -/
  oneEach : (f.unsupported.map Unsupported.mark).Perm
    (f.expr.parts.filterMap (Expr.unsupported? functions))

/-- Behind a whole formula stand its flags. -/
theorem Parser.Behind.flagged {ctx : FormulaContext} {c : Cursor} {e : Expr}
    (h : Behind ctx cs [] (e, c)) (source : String) :
    Formula.Flagged ctx.functions cs ⟨source, e, c.flagged⟩ where
  named := Cursor.Stands.named h
  innerFirst := Cursor.Stands.flagged h
  oneEach := by
    rw [Cursor.Stands.flagged h, List.nil_append]
    exact (Expr.perm_innerFirst e).filterMap _

theorem Formula.told_parse (ctx : FormulaContext) (source : String) :
    Told source.toList (Formula.Flagged ctx.functions source.toList) (Formula.parse ctx source) := by
  unfold Formula.parse
  extract_lets cs start
  have hstart : start ≤ cs.length := (List.takeWhile_prefix _).length_le
  split
  case h_1 body hbody =>
    -- the text is what stands up to the equals sign, and the body
    have hcs : (cs.take start ++ ['=']) ++ body = cs := by
      rw [List.append_assoc, List.singleton_append, ← hbody, List.take_append_drop]
    have hlength : (cs.take start ++ ['=']).length = start + 1 := by
      rw [List.length_append, List.length_take_of_le hstart, List.length_singleton]
    split
    · refine .error (FormulaError.placed_parse ?_ _)
      show start + 1 ≤ cs.length
      rw [← hcs, List.length_append, hlength]
      exact Nat.le_add_right _ _
    · have htokens := Lexer.told_scan 0 (cs.take start ++ ['=']) body
      rw [hcs, hlength] at htokens
      refine htokens.bind ?_
      intro tokens hplaced
      have hread : Parser.Cursor.Stands cs [] ⟨tokens, []⟩ := ⟨hplaced, rfl, by simp⟩
      refine ((Parser.toldAt ctx cs _).level Parser.topLevel hread).bind ?_
      rintro ⟨expr, c⟩ hc
      dsimp only
      split
      · exact .ok (hc.flagged source)
      · exact .error (FormulaError.placed_parse (Parser.Cursor.Stands.token hc).pos_le _)
  case h_2 => exact .error (FormulaError.placed_parse hstart _)

namespace Engine

/-- **Positions point into the formula.**  An error lies in the formula or at its end, and names the
function it is about where it points; so do the flags, and the unsupported calls of the tree are
flagged once each. -/
theorem placed_compile (engine : Engine) (source sheet : String) :
    (∀ e, engine.compile source sheet = .error e → e.Placed source.toList) ∧
      ∀ f, engine.compile source sheet = .ok f →
        f.Flagged engine.functions source.toList := by
  have htold := Formula.told_parse ⟨sheet, engine.names, engine.functions⟩ source
  constructor
  · intro e he
    rw [compile] at he
    rw [he] at htold
    cases htold with
    | error h => exact h
  · intro f hf
    rw [compile] at hf
    rw [hf] at htold
    cases htold with
    | ok h => exact h

/-- An unknown function behind accents, and in it computed references, one of which is known at
once. -/
def accentedSource : String := " =\"é\"&größe.x(Indirect(\"A1\"),OFFSET(A1,-1,2),offset(A1,B1,0))"

/-- The flags of that formula. -/
def accentedFlags : List Unsupported :=
  [⟨14, "INDIRECT", .dynamicReference⟩, ⟨45, "OFFSET", .dynamicReference⟩,
    ⟨6, "GRößE.X", .unknownFunction⟩]

/-- A call without its argument behind accents. -/
def accentedFault : String := "=\"éé\"&abs()"

/-- The formula was refused for the arguments of the function there. -/
def refusesCall (pos : Nat) (function : String) : Except FormulaError Formula → Bool
  | .error (.arity pos' function' _ _) => pos' == pos && function' == function
  | _ => false

theorem exists_of_refusesCall {function : String} {result : Except FormulaError Formula}
    (h : refusesCall pos function result = true) :
    ∃ expected got, result = .error (.arity pos function expected got) := by
  unfold refusesCall at h
  split at h
  case h_1 pos' function' expected got =>
    rw [Bool.and_eq_true, beq_iff_eq, beq_iff_eq] at h
    obtain ⟨rfl, rfl⟩ := h
    exact ⟨expected, got, rfl⟩
  case h_2 => cases h

theorem placed_compile_accented :
    (∃ f, cornerNamed.compile accentedSource "S" = .ok f ∧ f.unsupported = accentedFlags ∧
      f.Flagged .builtin accentedSource.toList) ∧
    ∃ expected got, cornerNamed.compile accentedFault "S" = .error (.arity 6 "ABS" expected got) ∧
      NamedAt accentedFault.toList 6 "ABS" := by
  have hreads : (cornerNamed.compile accentedSource "S").toOption.any
      (fun f => f.unsupported == accentedFlags) = true := by
    decide +kernel
  obtain ⟨f, hf, hflags⟩ := exists_of_any hreads
  have hrefuses : refusesCall 6 "ABS" (cornerNamed.compile accentedFault "S") = true := by
    decide +kernel
  obtain ⟨expected, got, hfault⟩ := exists_of_refusesCall hrefuses
  refine ⟨⟨f, hf, beq_iff_eq.mp hflags, (placed_compile cornerNamed accentedSource "S").2 f hf⟩,
    expected, got, hfault, ?_⟩
  have hplaced := (placed_compile cornerNamed accentedFault "S").1 _ hfault
  exact hplaced.named 6 "ABS" expected got rfl

end Engine

end Recalc
