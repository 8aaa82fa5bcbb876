/-
Recalc/Proofs/Formula/Printing.lean

Texts and the trees they denote.  `Denotes yields cs e` says that the characters `cs` are
read as tokens in front of every separator, and that these tokens yield the tree `e` in the
given sense: as an operand with percent signs behind it, as one with signs in front, or as
a whole expression.

Each form that the printer writes has a lemma: parentheses, signs, operators, literals,
arrays, references and calls.  None of them speaks of the tree that was printed, so what a
printed tree denotes is put together from what its parts denote.
-/
import Mathlib.Data.List.Forall2
import Recalc.Proofs.Formula.Parsing

namespace Recalc

namespace Lexer

/-- Text behind an operand does not change how it starts. -/
theorem startsOperand_append {cs : List Char} (h : startsOperand cs.head? = true) (ds : List Char) :
    startsOperand (cs ++ ds).head? = true := by
  cases cs with
  | nil => cases h
  | cons c cs => exact h

theorem startsOperand_of_isReferenceChar {c : Char} (h : NameTable.isReferenceChar c = true) :
    startsOperand (some c) = true := by
  have hne {d : Char} (hd : NameTable.isReferenceChar d = false) : c ≠ d := by
    rintro rfl
    rw [h] at hd
    cases hd
  simp only [startsOperand, Bool.and_eq_true, Bool.not_eq_true', bne_iff_ne]
  exact ⟨⟨NameTable.isBlank_of_isReferenceChar h, hne (by decide)⟩, hne (by decide)⟩

theorem startsOperand_of_isPlain {s : String} (h : NameTable.isPlain s = true) :
    startsOperand s.toList.head? = true := by
  simp only [NameTable.isPlain, Bool.and_eq_true, List.all_eq_true] at h
  cases hs : s.toList with
  | nil =>
    rw [hs] at h
    cases h.1
  | cons c rest => exact startsOperand_of_isReferenceChar (h.2 c (hs ▸ List.mem_cons_self))

theorem startsOperand_of_isName {s : String} (h : isName s.toList = true) :
    startsOperand s.toList.head? = true :=
  startsOperand_of_isPlain (NameTable.isPlain_of_isPart (isPart_of_isName h))

/-- An operator separates. -/
theorem isSeparator_symbol (op : BinaryOp) (ds : List Char) :
    isSeparator (op.symbol.toList ++ ds).head? = true := by
  cases op <;> rfl

end Lexer

namespace Parser

open Lexer

variable {ctx : FormulaContext} {cs ds : List Char} {e e' : Expr} {k : TokenKind}
  {kinds : List TokenKind} {yields yields' : List TokenKind → Expr → Prop} {s : String}

/-! ### Texts of operands -/

/-- Characters that are read as tokens wherever an operand may stand. -/
structure Tokenized (cs : List Char) (k : TokenKind) (kinds : List TokenKind) : Prop where
  scans : Scans cs (k :: kinds) isSeparator
  starts : startsOperand cs.head? = true
  first : endsArgument k = false

/-- The characters are tokens that yield the tree. -/
def Denotes (yields : List TokenKind → Expr → Prop) (cs : List Char) (e : Expr) : Prop :=
  ∃ k kinds, Tokenized cs k kinds ∧ yields (k :: kinds) e

theorem Denotes.mono (h : Denotes yields cs e) (hle : ∀ kinds, yields kinds e → yields' kinds e) :
    Denotes yields' cs e := by
  obtain ⟨k, kinds, htokens, hyields⟩ := h
  exact ⟨k, kinds, htokens, hle _ hyields⟩

theorem Denotes.of_primary (htokens : Tokenized cs k kinds) (hk : isSign k = false)
    (h : Yields (primary ctx) 1 9 (k :: kinds) e) : Denotes (YieldsPostfix ctx) cs e :=
  ⟨k, kinds, htokens, .of_primary h hk⟩

theorem Denotes.signed (h : Denotes (YieldsPostfix ctx) cs e) :
    Denotes (Yields (Parser.signed ctx) 2 8) cs e :=
  h.mono fun _ => YieldsPostfix.signed

theorem Denotes.expr (h : Denotes (Yields (Parser.signed ctx) 2 8) cs e) :
    Denotes (YieldsExpr ctx) cs e :=
  h.mono fun _ => YieldsExpr.of_signed

theorem Denotes.parens (h : Denotes (YieldsExpr ctx) cs e) :
    Denotes (YieldsPostfix ctx) ('(' :: (cs ++ [')'])) e := by
  obtain ⟨k, kinds, htokens, hyields⟩ := h
  have hscans := (htokens.scans.snoc (c := ')') rfl (by decide)).cons (c := '(') rfl
  exact .of_primary ⟨hscans.mono fun _ _ => rfl, rfl, rfl⟩ rfl hyields.parens

theorem Denotes.percent (h : Denotes (YieldsPostfix ctx) cs e) :
    Denotes (YieldsPostfix ctx) (cs ++ ['%']) (.unary .percent e) := by
  obtain ⟨k, kinds, htokens, hyields⟩ := h
  have hscans : Scans (cs ++ ['%']) (k :: (kinds ++ [.percent])) anything :=
    htokens.scans.snoc rfl (by decide)
  exact ⟨k, kinds ++ [TokenKind.percent],
    ⟨hscans.mono fun _ _ => rfl, startsOperand_append htokens.starts _, htokens.first⟩,
    hyields.percent⟩

theorem Denotes.negate (h : Denotes (Yields (Parser.signed ctx) 2 8) cs e) :
    Denotes (Yields (Parser.signed ctx) 2 8) ('-' :: cs) (.unary .negate e) := by
  obtain ⟨k, kinds, htokens, hyields⟩ := h
  exact ⟨.minus, k :: kinds, ⟨htokens.scans.cons rfl, rfl, rfl⟩, hyields.negate⟩

theorem Denotes.plus (h : Denotes (Yields (Parser.signed ctx) 2 8) cs e) :
    Denotes (Yields (Parser.signed ctx) 2 8) ('+' :: cs) (.unary .plus e) := by
  obtain ⟨k, kinds, htokens, hyields⟩ := h
  exact ⟨.plus, k :: kinds, ⟨htokens.scans.cons rfl, rfl, rfl⟩, hyields.plus⟩

/-- **An operator between two operands.** -/
theorem Denotes.binary (op : BinaryOp) (h : Denotes (Yields (Parser.signed ctx) 2 8) cs e)
    (h' : Denotes (Yields (Parser.signed ctx) 2 8) ds e') :
    Denotes (YieldsExpr ctx) (cs ++ (op.symbol.toList ++ ds)) (.binary op e e') := by
  obtain ⟨k, kinds, htokens, hyields⟩ := h
  obtain ⟨k', kinds', htokens', hyields'⟩ := h'
  -- no operand starts with a character that would make the operator a longer one
  have hright := (scans_symbol op).append htokens'.scans fun rest _ =>
    startsOperand_append htokens'.starts rest
  have hscans := htokens.scans.append hright fun rest _ => by
    rw [List.append_assoc]
    exact isSeparator_symbol op _
  exact ⟨k, kinds ++ op.token :: k' :: kinds',
    ⟨hscans, startsOperand_append htokens.starts _, htokens.first⟩, .binary op hyields hyields'⟩

/-- A formula is read as the tree that its text denotes. -/
theorem Denotes.exists_parse (h : Denotes (YieldsExpr ctx) cs e) :
    ∃ f, Formula.parse ctx (String.ofList ('=' :: cs)) = .ok f ∧ f.expr = e := by
  obtain ⟨k, kinds, htokens, hyields⟩ := h
  exact Formula.exists_parse htokens.scans rfl htokens.starts hyields

/-! ### Literals -/

/-- One token that is a value by itself, in an array or outside. -/
structure Constant (cs : List Char) (k : TokenKind) (v : Value) : Prop where
  tokenized : Tokenized cs k []
  unsigned : isSign k = false
  literal : ∀ ctx, Yields (primary ctx) 1 9 [k] (.literal v)
  element : YieldsConstant [k] v

theorem Constant.denotes {v : Value} (h : Constant cs k v) :
    Denotes (YieldsPostfix ctx) cs (.literal v) :=
  .of_primary h.tokenized h.unsigned (h.literal ctx)

theorem constant_numeral (h : PlainNumeral cs) {x : Float}
    (hread : readFloat? (String.ofList cs) = some x) :
    Constant cs (.number x (String.ofList cs)) (.number x) where
  tokenized := by
    refine ⟨(scans_numeral (isNumeral_of_plainNumeral h hread) hread).of_endsName, ?_, rfl⟩
    obtain ⟨c, rest, rfl, hc⟩ := h.head_isDigit
    exact startsOperand_of_isReferenceChar (isReferenceChar_of_isNamePart (isNamePart_of_isDigit hc))
  unsigned := rfl
  literal := fun _ => yields_number x _
  element := yieldsConstant_number x _

theorem constant_text (t : String) : Constant (Expr.quotedText t).toList (.text t) (.text t) where
  tokenized := by
    refine ⟨(scans_quotedText t).of_endsQuote, ?_, rfl⟩
    rw [Expr.quotedText, String.toList_ofList]
    rfl
  unsigned := rfl
  literal := fun _ => yields_text t
  element := yieldsConstant_text t

theorem constant_error {f : Fault} (h : f ∈ Fault.spelled) :
    Constant f.label.toList (.error f) (.error f) where
  tokenized := by
    refine ⟨(scans_label h).mono fun _ _ => rfl, ?_, rfl⟩
    revert f
    decide
  unsigned := rfl
  literal := fun _ => yields_error f
  element := yieldsConstant_error f

theorem constant_boolean {b : Bool} (hname : isName s.toList = true)
    (hcell : (cell? s.toList).isSome = false) (h : boolean? s = some b) :
    Constant s.toList (.identifier s) (.boolean b) where
  tokenized := by
    have hscans := scans_name hname
    rw [nameKind, hcell, if_neg Bool.false_ne_true, String.ofList_toList] at hscans
    exact ⟨hscans.of_endsName, startsOperand_of_isName hname, rfl⟩
  unsigned := rfl
  literal := fun _ => yields_boolean h
  element := yieldsConstant_boolean h

/-- **A constant that is no number is one token**, and equal to itself. -/
theorem exists_constant {v : Value} (hv : v.IsConstant) (hnumber : ∀ x, v ≠ .number x) :
    (∃ k, Constant (Expr.literalText v).toList k v) ∧ v.same v = true := by
  cases v with
  | number x => exact absurd rfl (hnumber x)
  | text t => exact ⟨⟨_, constant_text t⟩, beq_self_eq_true t⟩
  | boolean b =>
    refine ⟨?_, beq_self_eq_true b⟩
    cases b with
    | true => exact ⟨_, constant_boolean rfl (by decide) (by decide)⟩
    | false => exact ⟨_, constant_boolean rfl (by decide) (by decide)⟩
  | error f => exact ⟨⟨_, constant_error hv⟩, beq_self_eq_true f⟩
  | date x => exact hv.elim
  | empty => exact hv.elim

/-! ### Arrays -/

/-- **A constant reads back as an element**, a negative number behind its sign. -/
theorem exists_element {v : Value} (hv : v.IsConstant)
    (hfinite : ∀ x, v = .number x → x.isFinite = true) :
    ∃ kinds v', Scans (Expr.literalText v).toList kinds isSeparator ∧ YieldsConstant kinds v' ∧
      v'.same v = true := by
  by_cases hnumber : ∃ x, v = .number x
  · obtain ⟨x, rfl⟩ := hnumber
    obtain ⟨negative, cs, y, hplain, htext, -, hread, -, hvalue⟩ :=
      literalNumber_spelling (hfinite x rfl)
    have hconstant := constant_numeral hplain hread
    rw [Expr.literalText, htext, String.toList_ofList]
    cases negative with
    | false => exact ⟨_, _, hconstant.tokenized.scans, hconstant.element, hvalue⟩
    | true =>
      -- the sign is a token of its own, which arrays accept in front of numbers
      exact ⟨_, _, hconstant.tokenized.scans.cons (c := '-') rfl, yieldsConstant_negative y _, hvalue⟩
  · obtain ⟨⟨k, hconstant⟩, hsame⟩ := exists_constant hv fun x hx => hnumber ⟨x, hx⟩
    exact ⟨_, v, hconstant.tokenized.scans, hconstant.element, hsame⟩

/-- The text of a row. -/
def rowText (row : List Value) : String := ",".intercalate (row.map Expr.literalText)

/-- What follows a row: nothing, or a semicolon and more rows. -/
inductive BehindRow : List Char → List TokenKind → List (List Value) → Prop
  | close : BehindRow [] [] []
  | semicolon {ds : List Char} {kinds : List TokenKind} {rows : List (List Value)}
    (hscans : Scans ds kinds isSeparator) (hrows : Rows kinds rows) :
    BehindRow (';' :: ds) (.semicolon :: kinds) rows

namespace BehindRow

variable {row : List Value} {rows : List (List Value)}

theorem scans (h : BehindRow ds kinds rows) : Scans ds kinds isSeparator := by
  cases h with
  | close => exact .nil
  | semicolon hscans _ => exact hscans.cons rfl

theorem isSeparator_append (h : BehindRow ds kinds rows) {rest : List Char}
    (hrest : isSeparator rest.head? = true) : isSeparator (ds ++ rest).head? = true := by
  cases h with
  | close => exact hrest
  | semicolon _ _ => rfl

theorem rows_last (h : BehindRow ds kinds rows) {ks : List TokenKind} {v : Value}
    (hv : YieldsConstant ks v) : Rows (ks ++ kinds) ([v] :: rows) := by
  cases h with
  | close =>
    rw [List.append_nil]
    exact .last hv
  | semicolon _ hrows => exact .semicolon hv hrows

/-- **A row in front of more rows reads back**, element by element. -/
theorem exists_row (h : BehindRow ds kinds rows) (hne : row ≠ []) (hrow : ∀ v ∈ row, v.IsConstant)
    (hfinite : ∀ v ∈ row, ∀ x, v = .number x → x.isFinite = true) :
    ∃ ks row', Scans ((rowText row).toList ++ ds) ks isSeparator ∧
      Rows ks (row' :: rows) ∧ List.Forall₂ (fun v' v => v'.same v = true) row' row := by
  -- what follows the row follows its last element, so it is fixed in the induction
  induction row with
  | nil => exact absurd rfl hne
  | cons v row ih =>
    obtain ⟨ks, v', hscans, hyields, hsame⟩ :=
      exists_element (hrow v List.mem_cons_self) (hfinite v List.mem_cons_self)
    cases row with
    | nil =>
      refine ⟨ks ++ kinds, [v'], ?_, h.rows_last hyields, .cons hsame .nil⟩
      rw [rowText, List.map_singleton, String.intercalate_singleton]
      exact hscans.append h.scans fun _ => h.isSeparator_append
    | cons w row =>
      obtain ⟨ks', row', hscans', hrows, hsames⟩ := ih (List.cons_ne_nil _ _)
        (fun u hu => hrow u (List.mem_cons_of_mem _ hu))
        fun u hu => hfinite u (List.mem_cons_of_mem _ hu)
      refine ⟨ks ++ .comma :: ks', v' :: row', ?_, .comma hyields hrows, .cons hsame hsames⟩
      have hchars : (rowText (v :: w :: row)).toList ++ ds =
          (Expr.literalText v).toList ++ ',' :: ((rowText (w :: row)).toList ++ ds) := by
        simp [rowText, String.intercalate_cons_cons]
      rw [hchars]
      exact hscans.between rfl rfl hscans'

end BehindRow

theorem exists_rows {rows : List (List Value)} (hne : rows ≠ []) (hrow : ∀ row ∈ rows, row ≠ [])
    (hconstant : ∀ row ∈ rows, ∀ v ∈ row, v.IsConstant)
    (hfinite : ∀ row ∈ rows, ∀ v ∈ row, ∀ x, v = .number x → x.isFinite = true) :
    ∃ ks rows', Scans (";".intercalate (rows.map rowText)).toList ks isSeparator ∧ Rows ks rows' ∧
      List.Forall₂ (List.Forall₂ fun v' v => v'.same v = true) rows' rows := by
  induction rows with
  | nil => exact absurd rfl hne
  | cons row rows ih =>
    have hfirst {ds : List Char} {ks : List TokenKind} {rows' : List (List Value)}
        (h : BehindRow ds ks rows') := h.exists_row (hrow row List.mem_cons_self)
      (hconstant row List.mem_cons_self) (hfinite row List.mem_cons_self)
    cases rows with
    | nil =>
      obtain ⟨ks, row', hscans, hrows, hsame⟩ := hfirst .close
      refine ⟨ks, [row'], ?_, hrows, .cons hsame .nil⟩
      rw [List.append_nil] at hscans
      rwa [List.map_singleton, String.intercalate_singleton]
    | cons next rows =>
      obtain ⟨ks, rows', hscans, hrows, hsames⟩ := ih (List.cons_ne_nil _ _)
        (fun r hr => hrow r (List.mem_cons_of_mem _ hr))
        (fun r hr => hconstant r (List.mem_cons_of_mem _ hr))
        fun r hr => hfinite r (List.mem_cons_of_mem _ hr)
      -- the rows behind are read already when this one is put in front of them
      obtain ⟨ks', row', hscans', hrows', hsame⟩ := hfirst (.semicolon hscans hrows)
      refine ⟨ks', row' :: rows', ?_, hrows', .cons hsame hsames⟩
      have hchars : (";".intercalate ((row :: next :: rows).map rowText)).toList =
          (rowText row).toList ++ ';' :: (";".intercalate ((next :: rows).map rowText)).toList := by
        simp [String.intercalate_cons_cons]
      rw [hchars]
      exact hscans'

theorem lengths_of_forall₂ {R : Value → Value → Prop} {rows rows' : List (List Value)}
    (h : List.Forall₂ (List.Forall₂ R) rows' rows) :
    rows'.map List.length = rows.map List.length := by
  induction h with
  | nil => rfl
  | cons hrow _ ih => rw [List.map_cons, List.map_cons, hrow.length_eq, ih]

/-- Only the lengths of rows make them a rectangle. -/
theorem isRectangular_of_forall₂ {R : Value → Value → Prop} {rows rows' : List (List Value)}
    (h : List.Forall₂ (List.Forall₂ R) rows' rows) : isRectangular rows' = isRectangular rows := by
  have hall (rows : List (List Value)) (n : Nat) :
      rows.all (·.length == n) = (rows.map List.length).all (· == n) := by
    rw [List.all_map]
    rfl
  cases h with
  | nil => rfl
  | cons hfirst hrest =>
    rw [isRectangular, isRectangular, hall, hall, lengths_of_forall₂ hrest, hfirst.length_eq]

/-- **An array reads back**, element by element. -/
theorem exists_array {rows : List (List Value)} (h : Expr.IsArray rows)
    (hfinite : ∀ row ∈ rows, ∀ v ∈ row, ∀ x, v = .number x → x.isFinite = true) :
    ∃ rows', Denotes (YieldsPostfix ctx) (Expr.arrayText rows).toList (.array rows') ∧
      List.Forall₂ (List.Forall₂ fun v' v => v'.same v = true) rows' rows := by
  obtain ⟨ks, rows', hscans, hrows, hsames⟩ :=
    exists_rows h.nonempty h.rowNonempty h.constant hfinite
  refine ⟨rows', ?_, hsames⟩
  have hchars : (Expr.arrayText rows).toList =
      '\x7b' :: ((";".intercalate (rows.map rowText)).toList ++ ['\x7d']) := by
    have htext : Expr.arrayText rows = "\x7b" ++ ";".intercalate (rows.map rowText) ++ "\x7d" := rfl
    simp [htext]
  rw [hchars]
  have hwhole := (hscans.snoc (c := '\x7d') rfl (by decide)).cons (c := '\x7b') rfl
  exact .of_primary ⟨hwhole.mono fun _ _ => rfl, rfl, rfl⟩ rfl
    (hrows.yields_array ((isRectangular_of_forall₂ hsames).trans h.rectangular))

/-! ### References -/

/-- **A text that is looked up is read part by part.** -/
theorem exists_spells (h : NameForm s) : ∃ k kinds, Tokenized s.toList k kinds ∧
    Spells (k :: kinds) s ∧ isSign k = false ∧ (kinds = [] → standsAlone k) := by
  have hstarts := startsOperand_of_isPlain h.isPlain
  cases h with
  | single hname hboolean =>
    have hpart : referencePart? (nameKind s.toList) = some s := by
      rw [nameKind, String.ofList_toList]
      split <;> rfl
    obtain ⟨hends, hsign⟩ := opensOperand_of_referencePart? hpart
    refine ⟨_, [], ⟨(scans_name hname).of_endsName, hstarts, hends⟩, .single hpart, hsign, fun _ => ?_⟩
    -- a name that stands alone must not be read as a truth value
    rw [nameKind, String.ofList_toList]
    split
    · exact .inl ⟨s, rfl⟩
    · exact .inr ⟨s, rfl, hboolean⟩
  | @pair one other hone hother =>
    obtain ⟨k, hk, hscans⟩ := scans_part hone
    obtain ⟨k', hk', hscans'⟩ := scans_part hother
    rw [String.ofList_toList] at hk hk'
    obtain ⟨hends, hsign⟩ := opensOperand_of_referencePart? hk
    have hchars : (one ++ ":" ++ other).toList = one.toList ++ ':' :: other.toList := by simp
    refine ⟨k, [.colon, k'], ⟨?_, hstarts, hends⟩, .pair hk hk', hsign, fun hnil => by cases hnil⟩
    rw [hchars]
    exact hscans.between rfl (by decide) hscans'.of_endsName

/-- **A reference without a sheet.** -/
theorem denotes_unqualified (h : NameForm s) {r : Reference}
    (hresolve : ctx.names.resolve s ctx.sheet = .ok r) :
    Denotes (YieldsPostfix ctx) s.toList (.reference r) := by
  obtain ⟨k, kinds, htokens, hspells, hsign, halone⟩ := exists_spells h
  refine .of_primary htokens hsign (hspells.yields_unqualified ?_ hresolve)
  rintro k' hk'
  obtain ⟨rfl, hnil⟩ := List.cons.inj hk'
  exact halone hnil

theorem startsOperand_written (sheet : String) :
    startsOperand (SheetName.written sheet).toList.head? = true := by
  rw [SheetName.written]
  split
  case isTrue hbare => exact startsOperand_of_isName (isName_of_isBare hbare)
  case isFalse =>
    rw [String.toList_ofList]
    rfl

/-- **A reference behind its sheet.** -/
theorem denotes_qualified (h : NameForm s) {sheet : String} {r : Reference}
    (hresolve : ctx.names.resolve (SheetName.written sheet ++ "!" ++ s) ctx.sheet = .ok r) :
    Denotes (YieldsPostfix ctx) (SheetName.written sheet ++ "!" ++ s).toList (.reference r) := by
  obtain ⟨k, kinds, htokens, hspells, -, -⟩ := exists_spells h
  obtain ⟨kind, hkind, hscans⟩ := scans_written sheet
  have hchars : (SheetName.written sheet ++ "!" ++ s).toList =
      (SheetName.written sheet).toList ++ '!' :: s.toList := by
    simp
  rw [hchars]
  refine .of_primary ⟨hscans.between rfl rfl htokens.scans, ?_, ?_⟩ ?_
    (hspells.yields_qualified hkind hresolve)
  · exact startsOperand_append (startsOperand_written sheet) _
  · rcases hkind with rfl | rfl <;> rfl
  · rcases hkind with rfl | rfl <;> rfl

/-! ### Calls -/

/-- **A function in front of arguments in parentheses.** -/
theorem denotes_call {f : String} (hname : isName f.toList = true) (hscans : Scans ds kinds isSeparator)
    (hyields : Yields (primary ctx) 1 9 (.identifier f :: .leftParen :: (kinds ++ [.rightParen])) e) :
    Denotes (YieldsPostfix ctx) (f.toList ++ '(' :: (ds ++ [')'])) e := by
  have hfunction := scans_identifier hname
  rw [String.ofList_toList] at hfunction
  have hclosed := hscans.snoc (c := ')') rfl (by decide)
  exact .of_primary ⟨(hfunction.between rfl rfl hclosed).mono fun _ _ => rfl,
    startsOperand_append (startsOperand_of_isName hname) _, rfl⟩ rfl hyields

end Parser

end Recalc
