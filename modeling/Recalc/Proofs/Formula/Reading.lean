/-
Recalc/Proofs/Formula/Reading.lean

What trees can be read.  Every tree that a formula is read as is readable, whatever the
text was (`readable_parse`): its literals are spelt by tokens, its arrays are rectangles of
constants, its references are names of the workbook or targets within the limits of a
sheet, and its calls were checked.  A reference that is only known once computed is told
as unsupported.

Design.  A cursor advances over tokens that are spelt like their kinds and never takes back
a flag (`Cursor.Reads`).  The parser's functions call each other on less fuel, so one
induction on the fuel serves all of them; `ReadsAt` is what it carries.
-/
import Recalc.Formula.Parser
import Recalc.Proofs.Formula.Expr
import Recalc.Proofs.Formula.Lexer
import Recalc.Proofs.Formula.NameTable

namespace Recalc

/-! ### Readable trees -/

namespace Lexer

/-- The characters are one side of a range, or a reference of one part. -/
def isPart (cs : List Char) : Bool := isName cs || isNumeral cs

end Lexer

/-- A text that is looked up among the names: one name that is no truth value, or two parts with a
colon between them. -/
inductive NameForm : String → Prop
  | single {s : String} (hname : Lexer.isName s.toList = true)
    (hboolean : Parser.boolean? s = none) : NameForm s
  | pair {s t : String} (hs : Lexer.isPart s.toList = true) (ht : Lexer.isPart t.toList = true) :
    NameForm (s ++ ":" ++ t)

/-- The value stands in an array. -/
def Value.IsConstant : Value → Prop
  | .number _ => True
  | .text _ => True
  | .boolean _ => True
  | .error f => f ∈ Fault.spelled
  | .date _ => False
  | .empty => False

/-- The value stands in a formula; a number in front of which a sign stands does not. -/
def Value.IsLiteral : Value → Prop
  | .number x => ∃ s : String, Lexer.isNumeral s.toList = true ∧ readFloat? s = some x
  | v => v.IsConstant

/-- Rows of constants, none of them empty and all of one length. -/
structure Expr.IsArray (rows : List (List Value)) : Prop where
  nonempty : rows ≠ []
  rowNonempty : ∀ row ∈ rows, row ≠ []
  constant : ∀ row ∈ rows, ∀ v ∈ row, v.IsConstant
  rectangular : Parser.isRectangular rows = true

/-- A sheet that a reference without a name can lie on: a declared one, the current one, or the one
of a name. -/
def FormulaContext.Reaches (ctx : FormulaContext) (sheet : String) : Prop :=
  (∃ q, ctx.names.canonicalSheet? q = some sheet) ∨
    sheet = (ctx.names.canonicalSheet? ctx.sheet).getD ctx.sheet ∨
    ∃ s n, ctx.names.find? s = some n ∧ n.target.sheet = sheet

/-- A call with that many arguments, omitted ones among them or not, was found fine. -/
def FunctionSpec.Admits (f : FunctionSpec) (args : List Expr) : Prop :=
  f.arityFault? args.length (args.any Expr.isOmitted) = none

/-- An upper-case function name. -/
structure IsFunctionName (f : String) : Prop where
  name : Lexer.isName f.toList = true
  upper : Text.upperAscii f = f

/-- The trees that formulas are read as. -/
inductive Expr.Readable (ctx : FormulaContext) : Expr → Prop
  | literal {v : Value} (hv : v.IsLiteral) : Readable ctx (.literal v)
  | array {rows : List (List Value)} (hrows : IsArray rows) : Readable ctx (.array rows)
  | named {s : String} {n : NamedTarget} (hform : NameForm s)
    (hfind : ctx.names.find? s = some n) : Readable ctx (.reference ⟨n.target, some n.name⟩)
  | address {target : Target} (hlimits : target.InLimits) (hsheet : ctx.Reaches target.sheet) :
    Readable ctx (.reference ⟨target, none⟩)
  | unary (op : UnaryOp) {e : Expr} (he : Readable ctx e) : Readable ctx (.unary op e)
  | binary (op : BinaryOp) {a b : Expr} (ha : Readable ctx a) (hb : Readable ctx b) :
    Readable ctx (.binary op a b)
  | call {f : String} {args : List Expr} (hname : IsFunctionName f)
    (hargs : ∀ a ∈ args, a.isOmitted = false → Readable ctx a) (hsole : args ≠ [.literal .empty])
    (hknown : ∀ spec, ctx.functions.find? f = some spec →
      spec.Admits args ∧ spec.kind ≠ .dynamic) : Readable ctx (.call f args)
  | dynamic {f : String} {args : List Expr} {spec : FunctionSpec} (hname : IsFunctionName f)
    (hargs : ∀ a ∈ args, a.isOmitted = false → Readable ctx a) (hsole : args ≠ [.literal .empty])
    (hfind : ctx.functions.find? f = some spec) (hadmits : spec.Admits args)
    (hkind : spec.kind = .dynamic) (hoffset : f = "OFFSET" → Parser.offset? args = none) :
    Readable ctx (.dynamic f args)

/-- **The references of a readable tree are readable by themselves.** -/
theorem Expr.Readable.of_mem_references {ctx : FormulaContext} {e : Expr} (h : e.Readable ctx)
    {r : Reference} (hr : r ∈ e.references) : (Expr.reference r).Readable ctx := by
  have hargs {args : List Expr} (ih : ∀ a ∈ args, a.isOmitted = false → r ∈ a.references →
      (Expr.reference r).Readable ctx) (hr : r ∈ referencesOfArgs args) :
      (Expr.reference r).Readable ctx := by
    obtain ⟨a, ha, hmem⟩ := mem_referencesOfArgs.mp hr
    cases homitted : a.isOmitted with
    | false => exact ih a ha homitted hmem
    | true =>
      rw [Expr.eq_omitted homitted] at hmem
      cases hmem
  induction h with
  | literal => cases hr
  | array => cases hr
  | named hform hfind =>
    rw [List.mem_singleton.mp hr]
    exact .named hform hfind
  | address hlimits hsheet =>
    rw [List.mem_singleton.mp hr]
    exact .address hlimits hsheet
  | unary op _ ih => exact ih hr
  | binary op _ _ iha ihb =>
    rcases List.mem_append.mp hr with hr | hr
    · exact iha hr
    · exact ihb hr
  | call _ _ _ _ ih => exact hargs ih hr
  | dynamic _ _ _ _ _ _ _ ih => exact hargs ih hr

/-! ### Reference texts -/

namespace Lexer

theorem isReferenceChar_of_isNamePart {c : Char} (h : isNamePart c = true) :
    NameTable.isReferenceChar c = true := by
  simp [NameTable.isReferenceChar, h]

theorem isReferenceChar_of_mem_number (point exponent : Bool) {cs : List Char} {c : Char}
    (h : c ∈ cs.take (numberLength point exponent cs)) : NameTable.isReferenceChar c = true := by
  have hdigit {d : Char} (hd : d.isDigit = true) : NameTable.isReferenceChar d = true :=
    isReferenceChar_of_isNamePart (isNamePart_of_isDigit hd)
  have hmark {d : Char} (hd : d = 'e' ∨ d = 'E') : NameTable.isReferenceChar d = true := by
    rcases hd with rfl | rfl <;> decide
  have hsign {d : Char} (hd : d = '+' ∨ d = '-') : NameTable.isReferenceChar d = true := by
    rcases hd with rfl | rfl <;> decide
  fun_induction numberLength point exponent cs with
  | case2 point exponent d rest hd ih =>
    rw [Nat.add_comm, List.take_succ_cons] at h
    rcases List.mem_cons.mp h with rfl | h
    · exact hdigit hd
    · exact ih h
  | case3 point exponent d rest hd hp ih =>
    rw [Nat.add_comm, List.take_succ_cons] at h
    rcases List.mem_cons.mp h with rfl | h
    · rw [hp.1]
      decide
    · exact ih h
  | case5 point exponent d hd hp he s tail hs hfirst ih =>
    rw [Nat.add_comm, List.take_succ_cons, List.take_succ_cons] at h
    rcases List.mem_cons.mp h with rfl | h
    · exact hmark he.1
    rcases List.mem_cons.mp h with rfl | h
    · exact hsign hs
    · exact ih h
  | case7 point exponent d hd hp he s tail hs hfirst ih =>
    rw [Nat.add_comm, List.take_succ_cons] at h
    rcases List.mem_cons.mp h with rfl | h
    · exact hmark he.1
    · exact ih h
  | _ => cases h

theorem isPart_of_isName {cs : List Char} (h : isName cs = true) : isPart cs = true := by
  rw [isPart, h, Bool.true_or]

theorem ne_nil_of_isPart {cs : List Char} (h : isPart cs = true) : cs ≠ [] := by
  rintro rfl
  revert h
  decide

/-- A part has characters of references only. -/
theorem isReferenceChar_of_isPart {cs : List Char} (h : isPart cs = true) {c : Char}
    (hc : c ∈ cs) : NameTable.isReferenceChar c = true := by
  rw [isPart, Bool.or_eq_true] at h
  rcases h with hname | hnumeral
  · cases cs with
    | nil => cases hname
    | cons d rest =>
      rw [isName, Bool.and_eq_true, List.all_eq_true] at hname
      apply isReferenceChar_of_isNamePart
      rcases List.mem_cons.mp hc with rfl | hc
      · exact isNamePart_of_isNameStart hname.1
      · exact hname.2 c hc
  · simp only [isNumeral, Bool.and_eq_true, beq_iff_eq] at hnumeral
    have hall : cs.take (numberLength false false cs) = cs := by
      rw [hnumeral.1.2, List.take_length]
    exact isReferenceChar_of_mem_number false false (hall.symm ▸ hc)

end Lexer

theorem NameTable.isPlain_of_isPart {s : String} (h : Lexer.isPart s.toList = true) :
    isPlain s = true := by
  have hne := Lexer.ne_nil_of_isPart h
  simp only [isPlain, Bool.and_eq_true, List.all_eq_true, Bool.not_eq_true', List.isEmpty_eq_false_iff]
  exact ⟨hne, fun c hc => Lexer.isReferenceChar_of_isPart h hc⟩

theorem NameTable.isPlain_pair {s t : String} (hs : Lexer.isPart s.toList = true)
    (ht : Lexer.isPart t.toList = true) : isPlain (s ++ ":" ++ t) = true := by
  have hchars : (s ++ ":" ++ t).toList = s.toList ++ ':' :: t.toList := by simp
  simp only [isPlain, Bool.and_eq_true, List.all_eq_true, Bool.not_eq_true', List.isEmpty_eq_false_iff,
    hchars]
  refine ⟨by simp, fun c hc => ?_⟩
  rw [List.mem_append, List.mem_cons] at hc
  rcases hc with hc | rfl | hc
  · exact Lexer.isReferenceChar_of_isPart hs hc
  · decide
  · exact Lexer.isReferenceChar_of_isPart ht hc

theorem NameForm.isPlain {s : String} (h : NameForm s) : NameTable.isPlain s = true := by
  cases h with
  | single hname => exact NameTable.isPlain_of_isPart (Lexer.isPart_of_isName hname)
  | pair hs ht => exact NameTable.isPlain_pair hs ht

namespace Parser

variable {ctx : FormulaContext} {c c' : Cursor} {e : Expr} {fuel pos : Nat} {s : String}

/-! ### Cursors -/

/-- What comes out of a computation in two steps comes out of the second one. -/
theorem ok_of_bind {ε α β : Type} {x : Except ε α} {f : α → Except ε β} {b : β}
    (h : x >>= f = .ok b) : ∃ a, x = .ok a ∧ f a = .ok b := by
  cases x with
  | error err => cases h
  | ok a => exact ⟨a, rfl, h⟩

/-- After a result comes the second step. -/
theorem ok_bind {ε α β : Type} (a : α) (f : α → Except ε β) : (Except.ok a >>= f) = f a := rfl

/-- All tokens left are spelt like their kinds. -/
def Cursor.Spelt (c : Cursor) : Prop := ∀ t ∈ c.rest, t.kind.Spelt

theorem Cursor.Spelt.kind (h : c.Spelt) : c.kind.Spelt := by
  rw [Cursor.kind, Cursor.token]
  cases hrest : c.rest with
  | nil => trivial
  | cons t rest => exact h t (hrest ▸ List.mem_cons_self)

theorem Cursor.Spelt.skip (h : c.Spelt) : c.skip.Spelt := by
  obtain ⟨rest, flagged⟩ := c
  cases rest with
  | nil => exact h
  | cons t rest =>
    have hrest : ∀ t' ∈ rest, t'.kind.Spelt := fun t' ht' => h t' (List.mem_cons_of_mem _ ht')
    obtain ⟨kind, position, length⟩ := t
    cases kind <;> first | exact h | exact hrest

@[simp] theorem Cursor.flagged_skip (c : Cursor) : c.skip.flagged = c.flagged := by
  unfold Cursor.skip
  split <;> rfl

/-- What reading a part of a formula does: the cursor stays on spelt tokens, and flags are only
added, one at least if a part of the tree is only known once computed. -/
structure Cursor.Advances (c c' : Cursor) (dynamic : Bool) : Prop where
  spelt : c'.Spelt
  flagged : c.flagged.length + (if dynamic then 1 else 0) ≤ c'.flagged.length

theorem Cursor.Advances.flagged_le {dynamic : Bool} (h : c.Advances c' dynamic) :
    c.flagged.length ≤ c'.flagged.length := Nat.le_of_add_right_le h.flagged

theorem Cursor.Advances.refl (h : c.Spelt) : c.Advances c false := ⟨h, Nat.le_refl _⟩

theorem Cursor.Advances.trans {c'' : Cursor} {d d' : Bool} (h : c.Advances c' d)
    (h' : c'.Advances c'' d') : c.Advances c'' (d || d') where
  spelt := h'.spelt
  flagged := by
    have h₁ := h.flagged
    have h₂ := h'.flagged
    cases d <;> cases d' <;> simp only [Bool.or_true, Bool.or_false, if_true, if_false,
      Bool.false_eq_true] at h₁ h₂ ⊢ <;> omega

/-- A cursor that skips a token stands for the one before. -/
theorem Cursor.Advances.of_skip {dynamic : Bool} (h : c.skip.Advances c' dynamic) :
    c.Advances c' dynamic := ⟨h.spelt, c.flagged_skip ▸ h.flagged⟩

theorem Cursor.Advances.skip {dynamic : Bool} (h : c.Advances c' dynamic) :
    c.Advances c'.skip dynamic := ⟨h.spelt.skip, c'.flagged_skip.symm ▸ h.flagged⟩

/-- A tree was read. -/
structure Cursor.Reads (ctx : FormulaContext) (c : Cursor) (e : Expr) (c' : Cursor) : Prop where
  advances : c.Advances c' e.hasDynamic
  readable : e.Readable ctx

theorem Cursor.Reads.of_skip (h : c.skip.Reads ctx e c') : c.Reads ctx e c' :=
  ⟨h.advances.of_skip, h.readable⟩

theorem Cursor.Reads.skip (h : c.Reads ctx e c') : c.Reads ctx e c'.skip :=
  ⟨h.advances.skip, h.readable⟩

/-! ### References -/

theorem isPart_of_referencePart? {kind : TokenKind} (hkind : kind.Spelt)
    (h : referencePart? kind = some s) : Lexer.isPart s.toList = true := by
  rw [Lexer.isPart, Bool.or_eq_true]
  unfold referencePart? at h
  split at h
  case h_1 address =>
    obtain rfl := Option.some.inj h
    exact .inl hkind.1
  case h_2 name =>
    obtain rfl := Option.some.inj h
    exact .inl hkind
  case h_3 x spelling =>
    obtain rfl := Option.some.inj h
    exact .inr hkind.1
  case h_4 => cases h

/-- The text that a reference is looked up as. -/
def referenceText : Option String → String → String
  | some sheet, s => SheetName.written sheet ++ "!" ++ s
  | none, s => s

theorem resolveAt_eq_ok {sheet : Option String} (h : resolveAt ctx sheet s pos c = .ok (e, c')) :
    ∃ r, ctx.names.resolve (referenceText sheet s) ctx.sheet = .ok r ∧ e = .reference r ∧ c' = c := by
  unfold resolveAt at h
  extract_lets text at h
  have htext : text = referenceText sheet s := by cases sheet <;> rfl
  rw [← htext]
  split at h
  case h_1 r hr =>
    obtain ⟨rfl, rfl⟩ := Prod.mk.inj (Except.ok.inj h)
    exact ⟨r, hr, rfl, rfl⟩
  case h_2 => cases h

/-- A text without a sheet is a name, or an address on the current sheet. -/
theorem reads_resolveAt_none (hc : c.Spelt) (hform : NameForm s)
    (h : resolveAt ctx none s pos c = .ok (e, c')) : c.Reads ctx e c' := by
  obtain ⟨r, hr, rfl, rfl⟩ := resolveAt_eq_ok h
  rw [referenceText, NameTable.resolve_plain _ hform.isPlain] at hr
  refine ⟨.refl hc, ?_⟩
  split at hr
  case h_1 n hfind =>
    obtain rfl := Except.ok.inj hr
    exact .named hform hfind
  case h_2 =>
    split at hr
    case h_1 target htarget =>
      obtain rfl := Except.ok.inj hr
      obtain ⟨hlimits, hsheet⟩ := NameTable.inLimits_of_addressTarget? htarget
      exact .address hlimits (.inr (.inl hsheet))
    case h_2 => cases hr

/-- A text behind a sheet is an address there. -/
theorem reads_resolveAt_some {sheet : String} (hc : c.Spelt) (hplain : NameTable.isPlain s = true)
    (h : resolveAt ctx (some sheet) s pos c = .ok (e, c')) : c.Reads ctx e c' := by
  obtain ⟨r, hr, rfl, rfl⟩ := resolveAt_eq_ok h
  rw [referenceText, NameTable.resolve_written _ hplain] at hr
  refine ⟨.refl hc, ?_⟩
  split at hr
  case h_1 canonical hsheet =>
    split at hr
    case h_1 target htarget =>
      obtain rfl := Except.ok.inj hr
      obtain ⟨hlimits, hon⟩ := NameTable.inLimits_of_addressTarget? htarget
      exact .address hlimits (.inl ⟨sheet, hon ▸ hsheet⟩)
    case h_2 => cases hr
  case h_2 => cases hr

theorem reads_reference {sheet : Option String} (hc : c.Spelt) (hpart : Lexer.isPart s.toList = true)
    (halone : sheet = none → c.kind ≠ .colon → NameForm s)
    (h : reference ctx sheet s pos c = .ok (e, c')) : c.Reads ctx e c' := by
  unfold reference at h
  split at h
  case h_1 =>
    extract_lets last at h
    split at h
    case h_1 lastText hlast =>
      have hlastPart := isPart_of_referencePart? hc.skip.kind hlast
      have hrest := hc.skip.skip
      refine .of_skip (.of_skip ?_)
      cases sheet with
      | none => exact reads_resolveAt_none hrest (.pair hpart hlastPart) h
      | some sheet => exact reads_resolveAt_some hrest (NameTable.isPlain_pair hpart hlastPart) h
    case h_2 => cases h
  case h_2 hcolon =>
    cases sheet with
    | none => exact reads_resolveAt_none hc (halone rfl hcolon) h
    | some sheet => exact reads_resolveAt_some hc (NameTable.isPlain_of_isPart hpart) h

theorem reads_qualified {sheet : String} (hc : c.Spelt)
    (h : qualified ctx sheet pos c = .ok (e, c')) : c.Reads ctx e c' := by
  unfold qualified at h
  split at h
  case h_1 =>
    extract_lets t at h
    split at h
    case h_1 part hpart =>
      refine .of_skip (.of_skip ?_)
      exact reads_reference hc.skip.skip (isPart_of_referencePart? hc.skip.kind hpart)
        (fun hnone => by cases hnone) h
    case h_2 => cases h
  case h_2 => cases h

/-! ### Arrays -/

/-- A constant was read. -/
structure Cursor.ReadsConstant (c : Cursor) (v : Value) (c' : Cursor) : Prop where
  advances : c.Advances c' false
  constant : v.IsConstant

theorem readsConstant_signedConstant {sign : Float → Float} {v : Value} (hc : c.Spelt)
    (h : signedConstant sign c = .ok (v, c')) : c.ReadsConstant v c' := by
  unfold signedConstant at h
  split at h
  case h_1 x spelling =>
    obtain ⟨rfl, rfl⟩ := Prod.mk.inj (Except.ok.inj h)
    exact ⟨(Cursor.Advances.refl hc).skip, trivial⟩
  case h_2 => cases h

theorem readsConstant_constant {v : Value} (hc : c.Spelt) (h : constant c = .ok (v, c')) :
    c.ReadsConstant v c' := by
  have hstay : c.Advances c.skip false := (Cursor.Advances.refl hc).skip
  unfold constant at h
  split at h
  case h_1 =>
    have hsigned := readsConstant_signedConstant hc.skip h
    exact ⟨hsigned.advances.of_skip, hsigned.constant⟩
  case h_2 =>
    have hsigned := readsConstant_signedConstant hc.skip h
    exact ⟨hsigned.advances.of_skip, hsigned.constant⟩
  case h_3 x spelling _ =>
    obtain ⟨rfl, rfl⟩ := Prod.mk.inj (Except.ok.inj h)
    exact ⟨hstay, trivial⟩
  case h_4 t _ =>
    obtain ⟨rfl, rfl⟩ := Prod.mk.inj (Except.ok.inj h)
    exact ⟨hstay, trivial⟩
  case h_5 f hf =>
    obtain ⟨rfl, rfl⟩ := Prod.mk.inj (Except.ok.inj h)
    have hspelt := hc.kind
    rw [hf] at hspelt
    exact ⟨hstay, hspelt⟩
  case h_6 name _ =>
    split at h
    · obtain ⟨rfl, rfl⟩ := Prod.mk.inj (Except.ok.inj h)
      exact ⟨hstay, trivial⟩
    · cases h
  case h_7 => cases h

/-- Rows of constants were read. -/
structure Cursor.ReadsRows (c : Cursor) (rows : List (List Value)) (c' : Cursor) : Prop where
  advances : c.Advances c' false
  nonempty : rows ≠ []
  rowNonempty : ∀ row ∈ rows, row ≠ []
  constant : ∀ row ∈ rows, ∀ v ∈ row, v.IsConstant

theorem readsRows_arrayRows {rows : List (List Value)} (hc : c.Spelt)
    (h : arrayRows fuel c = .ok (rows, c')) : c.ReadsRows rows c' := by
  induction fuel generalizing c rows c' with
  | zero => cases h
  | succ fuel ih =>
    rw [arrayRows] at h
    obtain ⟨⟨v, d⟩, hv, h⟩ := ok_of_bind h
    have hfirst := readsConstant_constant hc hv
    dsimp only at h
    split at h
    case h_1 =>
      -- the element goes in front of the first row behind it
      obtain ⟨⟨rest, d'⟩, hrest, h⟩ := ok_of_bind h
      have hrows := ih hfirst.advances.skip.spelt hrest
      have hadvances : c.Advances d' false :=
        Cursor.Advances.trans hfirst.advances hrows.advances.of_skip
      cases rest with
      | nil => exact absurd rfl hrows.nonempty
      | cons row rest =>
        obtain ⟨rfl, rfl⟩ := Prod.mk.inj (Except.ok.inj h)
        refine ⟨hadvances, by simp, ?_, ?_⟩
        · intro r hr
          rcases List.mem_cons.mp hr with rfl | hr
          · simp
          · exact hrows.rowNonempty r (List.mem_cons_of_mem _ hr)
        · intro r hr w hw
          rcases List.mem_cons.mp hr with rfl | hr
          · rcases List.mem_cons.mp hw with rfl | hw
            · exact hfirst.constant
            · exact hrows.constant row List.mem_cons_self w hw
          · exact hrows.constant r (List.mem_cons_of_mem _ hr) w hw
    case h_2 =>
      obtain ⟨⟨rest, d'⟩, hrest, h⟩ := ok_of_bind h
      have hrows := ih hfirst.advances.skip.spelt hrest
      obtain ⟨rfl, rfl⟩ := Prod.mk.inj (Except.ok.inj h)
      refine ⟨Cursor.Advances.trans hfirst.advances hrows.advances.of_skip, by simp, ?_, ?_⟩
      · intro r hr
        rcases List.mem_cons.mp hr with rfl | hr
        · simp
        · exact hrows.rowNonempty r hr
      · intro r hr w hw
        rcases List.mem_cons.mp hr with rfl | hr
        · exact List.mem_singleton.mp hw ▸ hfirst.constant
        · exact hrows.constant r hr w hw
    case h_3 =>
      obtain ⟨rfl, rfl⟩ := Prod.mk.inj (Except.ok.inj h)
      refine ⟨hfirst.advances.skip, by simp, by simp, ?_⟩
      intro r hr w hw
      rw [List.mem_singleton.mp hr] at hw
      exact List.mem_singleton.mp hw ▸ hfirst.constant
    case h_4 => cases h

theorem reads_array (hc : c.Spelt) (h : array pos c = .ok (e, c')) : c.Reads ctx e c' := by
  rw [array] at h
  obtain ⟨⟨rows, d⟩, hrows, h⟩ := ok_of_bind h
  have hread := readsRows_arrayRows hc hrows
  dsimp only at h
  split at h
  case isTrue hrect =>
    obtain ⟨rfl, rfl⟩ := Prod.mk.inj (Except.ok.inj h)
    exact ⟨hread.advances, .array ⟨hread.nonempty, hread.rowNonempty, hread.constant, hrect⟩⟩
  case isFalse => cases h

/-! ### Calls -/

/-- Arguments were read, some of them perhaps omitted. -/
structure Cursor.ReadsArgs (ctx : FormulaContext) (c : Cursor) (args : List Expr) (c' : Cursor) :
    Prop where
  advances : c.Advances c' (Expr.hasDynamicArg args)
  readable : ∀ a ∈ args, a.isOmitted = false → a.Readable ctx

theorem readable_rectangle {sheet : String} (hsheet : ctx.Reaches sheet)
    (top left height width : Int) : (rectangle sheet top left height width).Readable ctx := by
  unfold rectangle
  extract_lets bottom right first
  split
  case isTrue hfits =>
    split
    case isTrue hsingle =>
      refine .address ?_ hsheet
      refine ⟨⟨?_, ?_⟩, ?_, ?_⟩ <;> dsimp only [first, Coordinate.address] <;> omega
    case isFalse =>
      refine .address ?_ hsheet
      refine ⟨rfl, ⟨?_, ?_, ?_⟩, ?_, ?_, ?_⟩ <;> dsimp only [first] <;> omega
  case isFalse => exact .literal (by decide : Fault.reference ∈ Fault.spelled)

theorem hasDynamic_rectangle (sheet : String) (top left height width : Int) :
    (rectangle sheet top left height width).hasDynamic = false := by
  unfold rectangle
  extract_lets bottom right first
  split
  · split <;> rfl
  · rfl

theorem reaches_of_readable {r : Reference} (h : (Expr.reference r).Readable ctx) :
    ctx.Reaches r.target.sheet := by
  cases h with
  | named hform hfind => exact .inr (.inr ⟨_, _, hfind, rfl⟩)
  | address hlimits hsheet => exact hsheet

theorem sheet_extent (target : Target) : (extent target).1.sheet = target.sheet := by
  cases target <;> rfl

/-- What an offset is resolved to lies on a sheet that is reached, and is no computed reference. -/
theorem readable_offset? {args : List Expr}
    (hargs : ∀ a ∈ args, a.isOmitted = false → a.Readable ctx) (h : offset? args = some e) :
    e.Readable ctx ∧ e.hasDynamic = false := by
  unfold offset? at h
  split at h
  case h_1 base offsets =>
    obtain ⟨numbers, -, h⟩ := Option.bind_eq_some_iff.mp h
    split at h
    case h_1 rows columns size =>
      have hbase := reaches_of_readable (hargs _ List.mem_cons_self rfl)
      rw [← sheet_extent] at hbase
      obtain rfl := Option.some.inj h
      exact ⟨readable_rectangle hbase _ _ _ _, hasDynamic_rectangle _ _ _ _ _⟩
    case h_2 => cases h
  case h_2 => cases h

theorem upperAscii_isName (h : Lexer.isName s.toList = true) :
    IsFunctionName (Text.upperAscii s) where
  name := by
    rw [Text.upperAscii, String.toList_ofList]
    cases hs : s.toList with
    | nil =>
      rw [hs] at h
      cases h
    | cons d rest =>
      rw [hs, Lexer.isName, Bool.and_eq_true] at h
      rw [List.map_cons, Lexer.isName, Lexer.isNameStart_toUpper,
        Text.all_map_toUpper Lexer.isNamePart_toUpper, h.1, h.2]
      rfl
  upper := Text.upperAscii_upperAscii s

/-- **A call is checked before it is kept**, and flagged if it is not supported. -/
theorem reads_call {args : List Expr} {d : Cursor} (hname : Lexer.isName s.toList = true)
    (hargs : c.ReadsArgs ctx args d) (hsole : args ≠ [.literal .empty])
    (h : call ctx s args pos d = .ok (e, c')) : c.Reads ctx e c' := by
  have hfunction := upperAscii_isName hname
  -- a flag more is enough for whatever the arguments hold
  have hflag (u : Unsupported) : c.Advances (d.flag u) true := by
    refine ⟨hargs.advances.spelt, ?_⟩
    show c.flagged.length + 1 ≤ (d.flagged ++ [u]).length
    rw [List.length_append]
    exact Nat.add_le_add_right hargs.advances.flagged_le 1
  have hweaken {d' : Cursor} {b : Bool} (hadv : c.Advances d' true) : c.Advances d' b := by
    refine ⟨hadv.spelt, Nat.le_trans (Nat.add_le_add_left ?_ _) hadv.flagged⟩
    cases b <;> simp
  unfold call at h
  extract_lets function at h
  split at h
  case h_1 hunknown =>
    obtain ⟨rfl, rfl⟩ := Prod.mk.inj (Except.ok.inj h)
    refine ⟨hweaken (hflag _), .call hfunction hargs.readable hsole fun spec hspec => ?_⟩
    rw [hunknown] at hspec
    cases hspec
  case h_2 spec hspec =>
    split at h
    case h_1 => cases h
    case h_2 hadmits =>
      split at h
      case isTrue hkind =>
        split at h
        case h_1 folded hfolded =>
          obtain ⟨rfl, rfl⟩ := Prod.mk.inj (Except.ok.inj h)
          have hoffset : offset? args = some folded := by
            split at hfolded
            · exact hfolded
            · cases hfolded
          obtain ⟨hreadable, hstatic⟩ := readable_offset? hargs.readable hoffset
          refine ⟨⟨hargs.advances.spelt, ?_⟩, hreadable⟩
          rw [hstatic]
          exact hargs.advances.flagged_le
        case h_2 hnone =>
          obtain ⟨rfl, rfl⟩ := Prod.mk.inj (Except.ok.inj h)
          refine ⟨hflag _, .dynamic hfunction hargs.readable hsole hspec hadmits hkind ?_⟩
          intro hoffset
          rwa [if_pos hoffset] at hnone
      case isFalse hkind =>
        obtain ⟨rfl, rfl⟩ := Prod.mk.inj (Except.ok.inj h)
        refine ⟨hargs.advances, .call hfunction hargs.readable hsole fun spec' hspec' => ?_⟩
        obtain rfl := Option.some.inj (hspec.symm.trans hspec')
        exact ⟨hadmits, hkind⟩

/-! ### Expressions -/

theorem readable_percents (he : e.Readable ctx) (ts : List Token) :
    (percents e ts).1.Readable ctx ∧ (percents e ts).1.hasDynamic = e.hasDynamic ∧
      (percents e ts).2 <:+ ts := by
  induction ts generalizing e with
  | nil => exact ⟨he, rfl, List.suffix_refl _⟩
  | cons t rest ih =>
    rw [percents]
    split
    · obtain ⟨hreadable, hdynamic, hsuffix⟩ := ih (.unary .percent he)
      exact ⟨hreadable, hdynamic, hsuffix.trans (List.suffix_cons t rest)⟩
    · exact ⟨he, rfl, List.suffix_refl _⟩

/-- What the functions of the parser do on a given allowance. -/
structure ReadsAt (ctx : FormulaContext) (fuel : Nat) : Prop where
  level : ∀ n {c e c'}, Cursor.Spelt c → level ctx fuel n c = .ok (e, c') → c.Reads ctx e c'
  chain : ∀ n {b c left e c'}, Cursor.Reads ctx b left c → chain ctx fuel n left c = .ok (e, c') →
    b.Reads ctx e c'
  power : ∀ {c e c'}, Cursor.Spelt c → power ctx fuel c = .ok (e, c') → c.Reads ctx e c'
  signed : ∀ {c e c'}, Cursor.Spelt c → signed ctx fuel c = .ok (e, c') → c.Reads ctx e c'
  primary : ∀ {c e c'}, Cursor.Spelt c → primary ctx fuel c = .ok (e, c') → c.Reads ctx e c'
  arguments : ∀ {c args c'}, Cursor.Spelt c → arguments ctx fuel c = .ok (args, c') →
    c.ReadsArgs ctx args c' ∧ args ≠ [] ∧ (args = [.literal .empty] → c.kind = .rightParen)

theorem reads_level (ih : ReadsAt ctx fuel) (n : Nat) (hc : c.Spelt)
    (h : level ctx (fuel + 1) n c = .ok (e, c')) : c.Reads ctx e c' := by
  cases n with
  | zero =>
    rw [level] at h
    exact ih.power hc h
  | succ n =>
    rw [level] at h
    obtain ⟨⟨left, d⟩, hleft, h⟩ := ok_of_bind h
    exact ih.chain n (ih.level n hc hleft) h

theorem reads_chain (ih : ReadsAt ctx fuel) (n : Nat) {b : Cursor} {left : Expr}
    (hleft : b.Reads ctx left c) (h : chain ctx (fuel + 1) n left c = .ok (e, c')) :
    b.Reads ctx e c' := by
  rw [chain] at h
  split at h
  case h_1 op hop =>
    obtain ⟨⟨right, d⟩, hright, h⟩ := ok_of_bind h
    have hread := (ih.level n hleft.advances.spelt.skip hright).of_skip
    exact ih.chain n ⟨hleft.advances.trans hread.advances, .binary op hleft.readable hread.readable⟩ h
  case h_2 =>
    obtain ⟨rfl, rfl⟩ := Prod.mk.inj (Except.ok.inj h)
    exact hleft

theorem reads_power (ih : ReadsAt ctx fuel) (hc : c.Spelt)
    (h : power ctx (fuel + 1) c = .ok (e, c')) : c.Reads ctx e c' := by
  rw [power] at h
  obtain ⟨⟨base, d⟩, hbase, h⟩ := ok_of_bind h
  have hread := ih.signed hc hbase
  dsimp only at h
  split at h
  case h_1 =>
    obtain ⟨⟨exponent, d'⟩, hexponent, h⟩ := ok_of_bind h
    have hread' := (ih.power hread.advances.spelt.skip hexponent).of_skip
    obtain ⟨rfl, rfl⟩ := Prod.mk.inj (Except.ok.inj h)
    exact ⟨hread.advances.trans hread'.advances, .binary .power hread.readable hread'.readable⟩
  case h_2 =>
    obtain ⟨rfl, rfl⟩ := Prod.mk.inj (Except.ok.inj h)
    exact hread

theorem reads_signed (ih : ReadsAt ctx fuel) (hc : c.Spelt)
    (h : signed ctx (fuel + 1) c = .ok (e, c')) : c.Reads ctx e c' := by
  rw [signed] at h
  split at h
  case h_1 =>
    obtain ⟨⟨operand, d⟩, hoperand, h⟩ := ok_of_bind h
    have hread := (ih.signed hc.skip hoperand).of_skip
    obtain ⟨rfl, rfl⟩ := Prod.mk.inj (Except.ok.inj h)
    exact ⟨hread.advances, .unary .plus hread.readable⟩
  case h_2 =>
    obtain ⟨⟨operand, d⟩, hoperand, h⟩ := ok_of_bind h
    have hread := (ih.signed hc.skip hoperand).of_skip
    obtain ⟨rfl, rfl⟩ := Prod.mk.inj (Except.ok.inj h)
    exact ⟨hread.advances, .unary .negate hread.readable⟩
  case h_3 =>
    obtain ⟨⟨operand, d⟩, hoperand, h⟩ := ok_of_bind h
    have hread := ih.primary hc hoperand
    obtain ⟨hreadable, hdynamic, hsuffix⟩ := readable_percents hread.readable d.rest
    obtain ⟨rfl, rfl⟩ := Prod.mk.inj (Except.ok.inj h)
    refine ⟨⟨fun t ht => hread.advances.spelt t (hsuffix.subset ht), ?_⟩, hreadable⟩
    rw [hdynamic]
    exact hread.advances.flagged

theorem boolean?_of_any_isDigit (h : s.toList.any Char.isDigit = true) : boolean? s = none := by
  -- a spelling of a truth value has no digit, whatever the case of its letters
  have hne {t : String} (ht : (Text.upperAscii t).toList.any Char.isDigit = false) :
      Text.sameIgnoringCase s t = false := by
    rw [Text.sameIgnoringCase, beq_eq_false_iff_ne]
    intro heq
    have hupper : Char.isDigit ∘ Char.toUpper = Char.isDigit := funext Text.isDigit_toUpper
    rw [← heq, Text.upperAscii, String.toList_ofList, List.any_map, hupper, h] at ht
    cases ht
  rw [boolean?, hne (by decide), hne (by decide)]
  rfl

theorem reads_primary (ih : ReadsAt ctx fuel) (hc : c.Spelt)
    (h : primary ctx (fuel + 1) c = .ok (e, c')) : c.Reads ctx e c' := by
  have hkind : c.token.kind.Spelt := hc.kind
  have hskip : c.Advances c.skip false := (Cursor.Advances.refl hc).skip
  rw [primary] at h
  dsimp only at h
  split at h
  case h_1 x spelling hx =>
    rw [hx] at hkind
    split at h
    case h_1 hcolon =>
      refine .of_skip (reads_reference hc.skip ?_ (fun _ hne => absurd hcolon hne) h)
      rw [Lexer.isPart, hkind.1, Bool.or_true]
    case h_2 =>
      obtain ⟨rfl, rfl⟩ := Prod.mk.inj (Except.ok.inj h)
      exact ⟨hskip, .literal ⟨spelling, hkind⟩⟩
  case h_2 t _ =>
    obtain ⟨rfl, rfl⟩ := Prod.mk.inj (Except.ok.inj h)
    exact ⟨hskip, .literal trivial⟩
  case h_3 f hf =>
    rw [hf] at hkind
    obtain ⟨rfl, rfl⟩ := Prod.mk.inj (Except.ok.inj h)
    exact ⟨hskip, .literal hkind⟩
  case h_4 address haddress =>
    rw [haddress] at hkind
    refine .of_skip (reads_reference hc.skip ?_ (fun _ _ => ?_) h)
    · rw [Lexer.isPart, hkind.1, Bool.true_or]
    · exact .single hkind.1 (boolean?_of_any_isDigit hkind.2)
  case h_5 sheet _ => exact .of_skip (reads_qualified hc.skip h)
  case h_6 name hname =>
    rw [hname] at hkind
    have hpart : Lexer.isPart name.toList = true := by
      rw [Lexer.isPart, show Lexer.isName name.toList = true from hkind, Bool.true_or]
    split at h
    case h_1 => exact .of_skip (reads_qualified hc.skip h)
    case h_2 =>
      split at h
      case h_1 => exact reads_call hkind ⟨hskip.skip.skip, fun a ha => by cases ha⟩ (by simp) h
      case h_2 hclose =>
        obtain ⟨⟨args, d⟩, hargs, h⟩ := ok_of_bind h
        obtain ⟨hread, -, hsole⟩ := ih.arguments hc.skip.skip hargs
        refine reads_call hkind ⟨hread.advances.of_skip.of_skip, hread.readable⟩ ?_ h
        exact fun heq => hclose (hsole heq)
    case h_3 hcolon =>
      exact .of_skip (reads_reference hc.skip hpart (fun _ hne => absurd hcolon hne) h)
    case h_4 =>
      split at h
      case h_1 b hb =>
        obtain ⟨rfl, rfl⟩ := Prod.mk.inj (Except.ok.inj h)
        exact ⟨hskip, .literal trivial⟩
      case h_2 hboolean =>
        exact .of_skip (reads_reference hc.skip hpart (fun _ _ => .single hkind hboolean) h)
  case h_7 => exact .of_skip (reads_array hc.skip h)
  case h_8 =>
    obtain ⟨⟨inner, d⟩, hinner, h⟩ := ok_of_bind h
    have hread := (ih.level topLevel hc.skip hinner).of_skip
    dsimp only at h
    split at h
    case h_1 =>
      obtain ⟨rfl, rfl⟩ := Prod.mk.inj (Except.ok.inj h)
      exact hread.skip
    case h_2 => cases h
  case h_9 => cases h
  case h_10 => cases h

theorem ne_omitted_of_readable (h : e.Readable ctx) : e ≠ .literal .empty := by
  rintro rfl
  cases h with
  | literal hv => exact hv

/-- The next argument: omitted, or an expression. -/
def argument (ctx : FormulaContext) (fuel : Nat) (c : Cursor) :
    Except FormulaError (Expr × Cursor) :=
  if endsArgument c.kind then .ok (.literal .empty, c) else level ctx fuel topLevel c

/-- What follows an argument: more of them, or the closing parenthesis. -/
def behindArgument (ctx : FormulaContext) (fuel : Nat) (arg : Expr) (c : Cursor) :
    Except FormulaError (List Expr × Cursor) :=
  match c.kind with
  | .comma => do
    let (args, c) ← arguments ctx fuel c.skip
    return (arg :: args, c)
  | .semicolon => do
    let (args, c) ← arguments ctx fuel c.skip
    return (arg :: args, c)
  | .rightParen => return ([arg], c.skip)
  | _ => failAt c.token .badArgumentList

theorem arguments_succ (ctx : FormulaContext) (fuel : Nat) (c : Cursor) :
    arguments ctx (fuel + 1) c =
      argument ctx fuel c >>= fun p => behindArgument ctx fuel p.1 p.2 := by
  rw [arguments, argument]
  split <;> rfl

theorem reads_argument (ih : ReadsAt ctx fuel) (hc : c.Spelt)
    (h : argument ctx fuel c = .ok (e, c')) :
    c.Advances c' e.hasDynamic ∧ (e.isOmitted = false → e.Readable ctx) ∧
      (e = .literal .empty → c' = c) := by
  unfold argument at h
  split at h
  case isTrue =>
    obtain ⟨rfl, rfl⟩ := Prod.mk.inj (Except.ok.inj h)
    exact ⟨.refl hc, fun homitted => (by cases homitted), fun _ => rfl⟩
  case isFalse =>
    have hread := ih.level topLevel hc h
    exact ⟨hread.advances, fun _ => hread.readable,
      fun homitted => absurd homitted (ne_omitted_of_readable hread.readable)⟩

theorem reads_arguments (ih : ReadsAt ctx fuel) {args : List Expr} (hc : c.Spelt)
    (h : arguments ctx (fuel + 1) c = .ok (args, c')) :
    c.ReadsArgs ctx args c' ∧ args ≠ [] ∧ (args = [.literal .empty] → c.kind = .rightParen) := by
  rw [arguments_succ] at h
  obtain ⟨⟨arg, d⟩, harg, h⟩ := ok_of_bind h
  obtain ⟨hadvances, hreadable, homitted⟩ := reads_argument ih hc harg
  -- a separator leads to more arguments
  have hmore {rest : List Expr} {d' : Cursor} (hrest : arguments ctx fuel d.skip = .ok (rest, d'))
      (heq : (arg :: rest, d') = (args, c')) :
      c.ReadsArgs ctx args c' ∧ args ≠ [] ∧ (args = [.literal .empty] → c.kind = .rightParen) := by
    obtain ⟨rfl, rfl⟩ := Prod.mk.inj heq
    obtain ⟨hread, hne, -⟩ := ih.arguments hadvances.spelt.skip hrest
    refine ⟨⟨hadvances.trans hread.advances.of_skip, ?_⟩, by simp, ?_⟩
    · intro a ha
      rcases List.mem_cons.mp ha with rfl | ha
      · exact hreadable
      · exact hread.readable a ha
    · rintro heq
      exact absurd (List.cons.inj heq).2 hne
  unfold behindArgument at h
  split at h
  case h_1 =>
    obtain ⟨⟨rest, d'⟩, hrest, h⟩ := ok_of_bind h
    exact hmore hrest (Except.ok.inj h)
  case h_2 =>
    obtain ⟨⟨rest, d'⟩, hrest, h⟩ := ok_of_bind h
    exact hmore hrest (Except.ok.inj h)
  case h_3 hclose =>
    obtain ⟨rfl, rfl⟩ := Prod.mk.inj (Except.ok.inj h)
    refine ⟨⟨?_, ?_⟩, by simp, ?_⟩
    · rw [Expr.hasDynamicArg, Expr.hasDynamicArg, Bool.or_false]
      exact hadvances.skip
    · intro a ha
      rw [List.mem_singleton.mp ha]
      exact hreadable
    · intro heq
      rw [← homitted (List.cons.inj heq).1]
      exact hclose
  case h_4 => cases h

theorem readsAt (ctx : FormulaContext) (fuel : Nat) : ReadsAt ctx fuel := by
  induction fuel with
  | zero =>
    refine ⟨fun _ _ _ _ _ h => ?_, fun _ _ _ _ _ _ _ h => ?_, fun _ h => ?_, fun _ h => ?_,
      fun _ h => ?_, fun _ h => ?_⟩
    all_goals cases h
  | succ fuel ih =>
    exact ⟨fun n _ _ _ hc h => reads_level ih n hc h,
      fun n _ _ _ _ _ hleft h => reads_chain ih n hleft h, fun hc h => reads_power ih hc h,
      fun hc h => reads_signed ih hc h, fun hc h => reads_primary ih hc h,
      fun hc h => reads_arguments ih hc h⟩

end Parser

/-! ### Formulas -/

/-- A formula that was read came from the tokens of its text behind the sign. -/
theorem Formula.parse_eq_ok {ctx : FormulaContext} {source : String} {f : Formula}
    (h : Formula.parse ctx source = .ok f) :
    ∃ start body tokens c, Lexer.tokens start body = .ok tokens ∧
      Parser.expression ctx tokens = .ok (f.expr, c) ∧ f.unsupported = c.flagged := by
  unfold Formula.parse at h
  extract_lets cs start at h
  split at h
  case h_1 body hbody =>
    split at h
    case isTrue => cases h
    case isFalse =>
      obtain ⟨tokens, htokens, h⟩ := Parser.ok_of_bind h
      obtain ⟨⟨expr, c⟩, hexpr, h⟩ := Parser.ok_of_bind h
      dsimp only at h
      split at h
      case h_1 =>
        obtain rfl := Except.ok.inj h
        exact ⟨_, body, tokens, c, htokens, hexpr, rfl⟩
      case h_2 => cases h
  case h_2 => cases h

/-- **Every tree that is read is readable, and a reference in it that is only known once computed is
told as unsupported.** -/
theorem Formula.readable_parse {ctx : FormulaContext} {source : String} {f : Formula}
    (h : Formula.parse ctx source = .ok f) :
    f.expr.Readable ctx ∧ (f.expr.hasDynamic = true → f.unsupported ≠ []) := by
  obtain ⟨start, body, tokens, c, htokens, hexpr, hflagged⟩ := Formula.parse_eq_ok h
  have hspelt : Parser.Cursor.Spelt ⟨tokens, []⟩ := Lexer.spelt_scan htokens
  have hread := (Parser.readsAt ctx _).level Parser.topLevel hspelt hexpr
  refine ⟨hread.readable, fun hdynamic hnil => ?_⟩
  have hlength := hread.advances.flagged
  rw [hdynamic, ← hflagged, hnil] at hlength
  cases hlength

end Recalc
