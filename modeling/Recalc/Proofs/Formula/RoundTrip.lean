/-
Recalc/Proofs/Formula/RoundTrip.lean

Printed formulas read back.  A tree that was read is printed as a text that is read as an
equal tree, on the sheet it was written on and with every reference qualified alike:

    parse source = ok f  →  parse (f.expr.toFormula sheet) = ok g,  g.expr.same f.expr.

The trees are equal, not identical: a negative zero in an array is printed without its
sign.

A name is printed as it is spelt in the table and found again under that spelling.  An
address is printed with the sheet it lies on, and has to be found there: only a sheet that
came from the target of a name, through an offset that was computed while reading, can be
one that the workbook does not declare.

Design.  The proof is an induction over readable trees.  What it carries (`Prints`) is that
the text of a tree denotes an equal one, as an operand unless the printer would put it
into parentheses.  Calls are checked again when they are read back, so equal arguments have
to pass the same checks; these look at the number of arguments, at which are omitted and at
the shape of offsets only.
-/
import Recalc.Eval.Engine
import Recalc.Proofs.Formula.Printing

namespace Recalc

/-! ### Equal trees -/

namespace Expr

variable {a b : Expr} {args args' : List Expr}

/-- A number with signs in front equals only such numbers. -/
theorem isSome_literalNumber?_of_same (h : a.same b = true)
    (ha : (Parser.literalNumber? a).isSome = true) : (Parser.literalNumber? b).isSome = true := by
  fun_induction Parser.literalNumber? a generalizing b with
  | case1 x =>
    cases b with
    | literal w =>
      cases w with
      | number y => rfl
      | _ => cases h
    | _ => cases h
  | case2 e ih =>
    cases b with
    | unary op e' =>
      simp only [Expr.same, Bool.and_eq_true, beq_iff_eq] at h
      obtain ⟨rfl, hsame⟩ := h
      rw [Option.isSome_map] at ha
      rw [Parser.literalNumber?, Option.isSome_map]
      exact ih hsame ha
    | _ => cases h
  | case3 e ih =>
    cases b with
    | unary op e' =>
      simp only [Expr.same, Bool.and_eq_true, beq_iff_eq] at h
      obtain ⟨rfl, hsame⟩ := h
      rw [Parser.literalNumber?]
      exact ih hsame ha
    | _ => cases h
  | case4 => cases ha

theorem exists_mapM_of_same (h : SameArgs args args') {numbers : List Float}
    (hnumbers : args.mapM Parser.literalNumber? = some numbers) :
    ∃ numbers', args'.mapM Parser.literalNumber? = some numbers' ∧
      numbers'.length = numbers.length := by
  induction h generalizing numbers with
  | nil =>
    obtain rfl := Option.some.inj hnumbers
    exact ⟨[], rfl, rfl⟩
  | @cons a b args args' harg _ ih =>
    simp only [List.mapM_cons, Option.bind_eq_bind, Option.bind_eq_some_iff, Option.pure_def,
      Option.some.injEq] at hnumbers
    obtain ⟨x, hx, numbers, htail, rfl⟩ := hnumbers
    obtain ⟨numbers', hnumbers', hlength⟩ := ih htail
    obtain ⟨y, hy⟩ := Option.isSome_iff_exists.mp
      (isSome_literalNumber?_of_same harg (Option.isSome_iff_exists.mpr ⟨x, hx⟩))
    refine ⟨y :: numbers', ?_, congrArg (· + 1) hlength⟩
    simp [List.mapM_cons, hy, hnumbers']

/-- **An offset is computed by the shape of its arguments**, so equal arguments compute one, too. -/
theorem offset?_eq_none_of_same (h : SameArgs args args') (hnone : Parser.offset? args' = none) :
    Parser.offset? args = none := by
  by_contra hsome
  obtain ⟨e, he⟩ := Option.ne_none_iff_exists'.mp hsome
  cases h with
  | nil => cases he
  | @cons a b args args' harg hargs =>
    unfold Parser.offset? at he hnone
    split at he
    case h_2 => cases he
    case h_1 base offsets hbase =>
      obtain ⟨rfl, rfl⟩ := List.cons.inj hbase
      obtain ⟨numbers, hnumbers, hshape⟩ := Option.bind_eq_some_iff.mp he
      obtain ⟨numbers', hnumbers', hlength⟩ := exists_mapM_of_same hargs hnumbers
      cases b with
      | reference base' =>
        dsimp only at hnone
        rw [hnumbers'] at hnone
        -- what counts is that there are two numbers, not which
        match numbers, numbers' with
        | [], _ => cases hshape
        | [_], _ => cases hshape
        | _ :: _ :: _, [] => cases hlength
        | _ :: _ :: _, [_] => cases hlength
        | _ :: _ :: _, _ :: _ :: _ => cases hnone
      | _ => cases harg

end Expr

/-! ### Reference texts -/

namespace Lexer

theorem isName_letters {column : Nat} (h : 0 < column) :
    isName (Column.letters column).toList = true := by
  rw [Column.letters, String.toList_ofList]
  have halpha {c : Char} (hc : c ∈ Column.lettersOnto column []) : isNameStart c = true :=
    isNameStart_of_isAlpha (Column.mem_lettersOnto hc).1
  cases hletters : Column.lettersOnto column [] with
  | nil => exact absurd hletters (Column.lettersOnto_ne_nil h)
  | cons c rest =>
    rw [hletters] at halpha
    rw [isName, Bool.and_eq_true, List.all_eq_true]
    exact ⟨halpha List.mem_cons_self,
      fun d hd => isNamePart_of_isNameStart (halpha (List.mem_cons_of_mem _ hd))⟩

/-- Digits go on with a name. -/
theorem isName_append_digits {cs ds : List Char} (hcs : isName cs = true)
    (hds : ∀ d ∈ ds, d.isDigit = true) : isName (cs ++ ds) = true := by
  cases cs with
  | nil => cases hcs
  | cons c cs =>
    rw [isName, Bool.and_eq_true, List.all_eq_true] at hcs
    rw [List.cons_append, isName, List.all_append, Bool.and_eq_true, Bool.and_eq_true,
      List.all_eq_true, List.all_eq_true]
    exact ⟨hcs.1, hcs.2, fun d hd => isNamePart_of_isDigit (hds d hd)⟩

theorem isName_addressText {a : Address} (h : a.InLimits) : isName a.text.toList = true := by
  have hletters := isName_letters h.column.1
  rw [Column.letters, String.toList_ofList] at hletters
  rw [Address.text_eq]
  exact isName_append_digits hletters fun d => Address.isDigit_of_mem_row

theorem isNumeral_row (row : Nat) : isNumeral (toString row).toList = true := by
  have hplain : PlainNumeral (Nat.toDigits 10 row) :=
    .whole Nat.toDigits_ne_nil fun c => Address.isDigit_of_mem_row
  obtain ⟨digits, scale, hread⟩ := Decimal.exists_unsigned? hplain
  have hvalue := Decimal.readChars?_signedChars hplain (hread false)
  rw [Nat.toString_eq_ofList_toDigits, String.toList_ofList]
  refine isNumeral_of_plainNumeral hplain (x := Decimal.toFloat ⟨false, digits, scale⟩) ?_
  rw [readFloat?, String.toList_ofList]
  exact hvalue

end Lexer

/-- The case of its letters does not matter to the form of a name. -/
theorem NameForm.of_upperAscii {s t : String} (hs : NameForm s)
    (h : Text.upperAscii t = Text.upperAscii s) : NameForm t := by
  have hchars : t.toList.map Char.toUpper = s.toList.map Char.toUpper := String.ofList_injective h
  cases hs with
  | single hname hboolean =>
    refine .single ?_ ?_
    · rwa [← Lexer.isName_map_toUpper, hchars, Lexer.isName_map_toUpper]
    · rwa [Parser.boolean?, Text.sameIgnoringCase, Text.sameIgnoringCase, h]
  | @pair one other hone hother =>
    -- the colon stands at the same place
    have hsplit : (one ++ ":" ++ other).toList = one.toList ++ ':' :: other.toList := by simp
    rw [hsplit, List.map_append, List.map_cons, List.map_eq_append_iff] at hchars
    obtain ⟨cs, rest, ht, hcs, hrest⟩ := hchars
    obtain ⟨colon, ds, rfl, hcolon, hds⟩ := List.map_eq_cons_iff.mp hrest
    obtain rfl : colon = ':' := (Text.toUpper_eq_iff (by decide)).mp hcolon
    have htext : t = String.ofList cs ++ ":" ++ String.ofList ds := by
      apply String.toList_injective
      simp [ht]
    rw [htext]
    refine .pair ?_ ?_
    · rwa [String.toList_ofList, ← Lexer.isPart_map_toUpper, hcs, Lexer.isPart_map_toUpper]
    · rwa [String.toList_ofList, ← Lexer.isPart_map_toUpper, hds, Lexer.isPart_map_toUpper]

/-- **The text of an address has the form of a name.** -/
theorem Target.nameForm_addressText {target : Target} (h : target.InLimits) :
    NameForm target.addressText := by
  cases target with
  | cell c =>
    refine .single (Lexer.isName_addressText h) (Parser.boolean?_of_any_isDigit ?_)
    show c.address.text.toList.any Char.isDigit = true
    obtain ⟨d, ds, hdigits⟩ := List.exists_cons_of_ne_nil (Nat.toDigits_ne_nil (b := 10) (n := c.row))
    rw [Address.text_eq, List.any_append]
    show (_ || (Nat.toDigits 10 c.row).any _) = true
    rw [hdigits, List.any_cons, Address.isDigit_of_mem_row (hdigits ▸ List.mem_cons_self),
      Bool.true_or, Bool.or_true]
  | range r =>
    obtain ⟨-, hcolumn, hrow⟩ := h
    show NameForm r.addressText
    rw [CellRange.addressText]
    split
    · exact .pair (Lexer.isPart_of_isName (Lexer.isName_letters hcolumn.1))
        (Lexer.isPart_of_isName (Lexer.isName_letters (hcolumn.1.trans hcolumn.2.1)))
    · split
      · refine .pair ?_ ?_ <;> rw [Lexer.isPart, Lexer.isNumeral_row, Bool.or_true]
      · refine .pair (Lexer.isPart_of_isName (Lexer.isName_addressText ?_))
          (Lexer.isPart_of_isName (Lexer.isName_addressText ?_))
        · exact ⟨⟨hcolumn.1, hcolumn.2.1.trans hcolumn.2.2⟩, ⟨hrow.1, hrow.2.1.trans hrow.2.2⟩⟩
        · exact ⟨⟨hcolumn.1.trans hcolumn.2.1, hcolumn.2.2⟩, ⟨hrow.1.trans hrow.2.1, hrow.2.2⟩⟩

/-! ### Contexts -/

/-- The name can be read as an address. -/
def NamedTarget.IsAddress (n : NamedTarget) : Prop :=
  ∃ sheet target, NameTable.addressTarget? sheet n.name = some target

theorem NamedTarget.not_isAddress {n : NamedTarget}
    (h : ∀ sheet, NameTable.addressTarget? sheet n.name = none) : ¬n.IsAddress := by
  rintro ⟨sheet, target, htarget⟩
  rw [h] at htarget
  cases htarget

/-- Names are found under their own spelling, and none is an address. -/
structure NameTable.Unambiguous (t : NameTable) : Prop where
  spelling : ∀ {s n}, t.find? s = some n → Text.upperAscii n.name = Text.upperAscii s
  address : ∀ {sheet s target}, addressTarget? sheet s = some target → t.find? s = none

theorem NameTable.unambiguous_ofLists {names : List NamedTarget} {sheets : List String}
    (h : ∀ n ∈ names, ¬n.IsAddress) : (ofLists names sheets).Unambiguous where
  spelling hfind := (find?_ofLists hfind).2
  address {sheet s target} htarget := by
    cases hfind : (ofLists names sheets).find? s with
    | none => rfl
    | some n =>
      obtain ⟨hmem, hspelling⟩ := find?_ofLists hfind
      refine absurd ⟨sheet, target, ?_⟩ (h n hmem)
      rw [← addressTarget?_upperAscii, hspelling, addressTarget?_upperAscii, htarget]

/-- A sheet that is accepted under this very spelling. -/
def NameTable.Declares (t : NameTable) (sheet : String) : Prop :=
  t.canonicalSheet? sheet = some sheet

/-- **An address lies on a declared sheet**, unless it lies on the sheet of a name. -/
theorem FormulaContext.Reaches.declares {names : List NamedTarget} {sheets : List String}
    {ctx : FormulaContext} (hctx : ctx.names = .ofLists names sheets)
    (hknown : ctx.names.knowsSheet ctx.sheet = true) {sheet : String} (h : ctx.Reaches sheet) :
    ctx.names.Declares sheet ∨ ∃ n ∈ names, n.target.sheet = sheet := by
  rw [NameTable.Declares, hctx]
  rcases h with ⟨q, hq⟩ | hcurrent | ⟨s, n, hfind, hsheet⟩
  · rw [hctx] at hq
    exact .inl (NameTable.canonicalSheet?_ofLists hq)
  · obtain ⟨canonical, hcanonical⟩ := Option.isSome_iff_exists.mp hknown
    rw [hcanonical, Option.getD_some] at hcurrent
    rw [hctx] at hcanonical
    rw [hcurrent]
    exact .inl (NameTable.canonicalSheet?_ofLists hcanonical)
  · rw [hctx] at hfind
    exact .inr ⟨n, (NameTable.find?_ofLists hfind).1, hsheet⟩

/-! ### Printable trees -/

/-- The number that a value is. -/
def Value.numerals : Value → List Float
  | .number x => [x]
  | _ => []

namespace Expr

mutual

/-- The number literals, from left to right. -/
def numerals : Expr → List Float
  | .literal v => v.numerals
  | .array rows => rows.flatMap fun row => row.flatMap Value.numerals
  | .reference _ => []
  | .call _ args => numeralsOfArgs args
  | .dynamic _ args => numeralsOfArgs args
  | .unary _ operand => numerals operand
  | .binary _ left right => numerals left ++ numerals right

/-- The number literals of an argument list, from left to right. -/
def numeralsOfArgs : List Expr → List Float
  | [] => []
  | arg :: args => numerals arg ++ numeralsOfArgs args

end

theorem mem_numeralsOfArgs {args : List Expr} {x : Float} :
    x ∈ numeralsOfArgs args ↔ ∃ a ∈ args, x ∈ a.numerals := by
  induction args with
  | nil => simp [numeralsOfArgs]
  | cons a rest ih => simp [numeralsOfArgs, ih]

/-- The numbers have a text, and the addresses one that leads back to them. -/
structure Printable (t : NameTable) (e : Expr) : Prop where
  finite : ∀ x ∈ e.numerals, x.isFinite = true
  declared : ∀ r ∈ e.references, r.name = none → t.Declares r.target.sheet

namespace Printable

variable {t : NameTable} {e a b : Expr} {args : List Expr}

/-- A part of a printable tree is printable. -/
theorem of_part {part : Expr} (h : e.Printable t) (hnumerals : part.numerals ⊆ e.numerals)
    (hreferences : part.references ⊆ e.references) : part.Printable t :=
  ⟨fun x hx => h.finite x (hnumerals hx), fun r hr => h.declared r (hreferences hr)⟩

theorem operand {op : UnaryOp} (h : (Expr.unary op e).Printable t) : e.Printable t :=
  h.of_part (List.Subset.refl _) (List.Subset.refl _)

theorem left {op : BinaryOp} (h : (Expr.binary op a b).Printable t) : a.Printable t :=
  h.of_part (List.subset_append_left _ _) (List.subset_append_left _ _)

theorem right {op : BinaryOp} (h : (Expr.binary op a b).Printable t) : b.Printable t :=
  h.of_part (List.subset_append_right _ _) (List.subset_append_right _ _)

theorem of_args (hnumerals : e.numerals = numeralsOfArgs args)
    (hreferences : e.references = referencesOfArgs args) (h : e.Printable t) {arg : Expr}
    (harg : arg ∈ args) : arg.Printable t := by
  apply h.of_part
  · rw [hnumerals]
    exact fun x hx => mem_numeralsOfArgs.mpr ⟨arg, harg, hx⟩
  · rw [hreferences]
    exact fun r hr => mem_referencesOfArgs.mpr ⟨arg, harg, hr⟩

end Printable

end Expr

namespace Parser

variable {ctx : FormulaContext} {sheet : Option String} {e : Expr} {args args' : List Expr}
  {f : String}

/-! ### Calls -/

theorem admits_of_same {spec : FunctionSpec} (h : Expr.SameArgs args args')
    (hadmits : spec.Admits args') : spec.Admits args := by
  rw [FunctionSpec.Admits, h.length_eq, Expr.any_isOmitted_of_same h]
  exact hadmits

/-- A call is kept with arguments equal to those it was kept with. -/
theorem calls_call (hname : IsFunctionName f) (h : Expr.SameArgs args args')
    (hknown : ∀ spec, ctx.functions.find? f = some spec → spec.Admits args' ∧ spec.kind ≠ .dynamic) :
    Calls ctx f args (.call f args) := by
  intro pos c
  rw [call, hname.upper]
  cases hfind : ctx.functions.find? f with
  | none => exact ⟨_, rfl, rfl⟩
  | some spec =>
    obtain ⟨hadmits, hkind⟩ := hknown spec hfind
    have harity : spec.arityFault? _ _ = none := admits_of_same h hadmits
    refine ⟨c, ?_, rfl⟩
    dsimp only
    rw [harity]
    dsimp only
    rw [if_neg hkind]

/-- A reference that is only known once computed stays one. -/
theorem calls_dynamic (hname : IsFunctionName f) (h : Expr.SameArgs args args') {spec : FunctionSpec}
    (hfind : ctx.functions.find? f = some spec) (hadmits : spec.Admits args')
    (hkind : spec.kind = .dynamic) (hoffset : f = "OFFSET" → offset? args' = none) :
    Calls ctx f args (.dynamic f args) := by
  intro pos c
  have harity : spec.arityFault? _ _ = none := admits_of_same h hadmits
  have hkept : (if f = "OFFSET" then offset? args else none) = none := by
    split
    case isTrue hf => exact Expr.offset?_eq_none_of_same h (hoffset hf)
    case isFalse => rfl
  refine ⟨c.flag ⟨pos, f, .dynamicReference⟩, ?_, rfl⟩
  rw [call, hname.upper, hfind]
  dsimp only
  rw [harity]
  dsimp only
  rw [if_pos hkind, hkept]

/-! ### Printed trees -/

/-- The text of a tree denotes an equal one, by itself if the printer leaves it without
parentheses. -/
def Prints (ctx : FormulaContext) (sheet : Option String) (e : Expr) : Prop :=
  ∃ e', e'.same e = true ∧ Denotes (YieldsExpr ctx) (e.text sheet).toList e' ∧
    (e.needsParens = false → Denotes (YieldsPostfix ctx) (e.text sheet).toList e')

theorem Prints.of_denotes {e' : Expr} (h : Denotes (YieldsPostfix ctx) (e.text sheet).toList e')
    (hsame : e'.same e = true) : Prints ctx sheet e :=
  ⟨e', hsame, h.signed.expr, fun _ => h⟩

/-- An operand, in parentheses if it needs them. -/
theorem Prints.operand (h : Prints ctx sheet e) : ∃ e', e'.same e = true ∧
    Denotes (YieldsPostfix ctx) (Expr.wrapped e.needsParens (e.text sheet)).toList e' := by
  obtain ⟨e', hsame, hexpr, hoperand⟩ := h
  refine ⟨e', hsame, ?_⟩
  cases hneeds : e.needsParens with
  | false => exact hoperand hneeds
  | true =>
    have hchars : (Expr.wrapped true (e.text sheet)).toList =
        '(' :: ((e.text sheet).toList ++ [')']) := by
      simp [Expr.wrapped]
    rw [hchars]
    exact hexpr.parens

theorem Prints.unary (op : UnaryOp) (h : Prints ctx sheet e) : Prints ctx sheet (.unary op e) := by
  obtain ⟨e', hsame, hoperand⟩ := h.operand
  have hwhole : (Expr.unary op e').same (.unary op e) = true := by simp [Expr.same, hsame]
  cases op with
  | percent =>
    refine .of_denotes ?_ hwhole
    have hchars : ((Expr.unary .percent e).text sheet).toList =
        (Expr.wrapped e.needsParens (e.text sheet)).toList ++ ['%'] := by
      simp [Expr.text]
    rw [hchars]
    exact hoperand.percent
  | negate =>
    refine ⟨_, hwhole, ?_, fun hneeds => by cases hneeds⟩
    have hchars : ((Expr.unary .negate e).text sheet).toList =
        '-' :: (Expr.wrapped e.needsParens (e.text sheet)).toList := by
      simp [Expr.text]
    rw [hchars]
    exact hoperand.signed.negate.expr
  | plus =>
    refine ⟨_, hwhole, ?_, fun hneeds => by cases hneeds⟩
    have hchars : ((Expr.unary .plus e).text sheet).toList =
        '+' :: (Expr.wrapped e.needsParens (e.text sheet)).toList := by
      simp [Expr.text]
    rw [hchars]
    exact hoperand.signed.plus.expr

theorem Prints.binary (op : BinaryOp) {a b : Expr} (ha : Prints ctx sheet a) (hb : Prints ctx sheet b) :
    Prints ctx sheet (.binary op a b) := by
  obtain ⟨a', hsame, hleft⟩ := ha.operand
  obtain ⟨b', hsame', hright⟩ := hb.operand
  refine ⟨.binary op a' b', by simp [Expr.same, hsame, hsame'], ?_, fun hneeds => by cases hneeds⟩
  have hchars : ((Expr.binary op a b).text sheet).toList =
      (Expr.wrapped a.needsParens (a.text sheet)).toList ++
        (op.symbol.toList ++ (Expr.wrapped b.needsParens (b.text sheet)).toList) := by
    simp [Expr.text]
  rw [hchars]
  exact hleft.signed.binary op hright.signed

theorem prints_literal {v : Value} (hv : v.IsLiteral) (hfinite : ∀ x ∈ v.numerals, x.isFinite = true) :
    Prints ctx sheet (.literal v) := by
  by_cases hnumber : ∃ x, v = .number x
  · -- a numeral is not negative, so no sign is printed
    obtain ⟨x, rfl⟩ := hnumber
    obtain ⟨s, hnumeral, hspelt⟩ := hv
    rw [← String.ofList_toList (s := s)] at hspelt
    obtain ⟨negative, cs, y, hplain, htext, hsign, hread, -, hvalue⟩ :=
      literalNumber_spelling (hfinite x (List.mem_singleton.mpr rfl))
    obtain rfl := hsign (Lexer.isNegative_of_isNumeral hnumeral hspelt)
    have hsame : (Expr.literal (.number y)).same (.literal (.number x)) = true := hvalue
    refine .of_denotes ?_ hsame
    rw [Expr.text, Expr.literalText, htext, String.toList_ofList]
    exact (constant_numeral hplain hread).denotes
  · have hconstant : v.IsConstant := by
      cases v with
      | number x => exact absurd ⟨x, rfl⟩ hnumber
      | _ => exact hv
    obtain ⟨⟨k, hk⟩, hsame⟩ := exists_constant hconstant fun x hx => hnumber ⟨x, hx⟩
    exact .of_denotes hk.denotes hsame

theorem prints_array {rows : List (List Value)} (h : Expr.IsArray rows)
    (hfinite : ∀ x ∈ (Expr.array rows).numerals, x.isFinite = true) :
    Prints ctx sheet (.array rows) := by
  obtain ⟨rows', hdenotes, hsame⟩ := exists_array h fun row hrow v hv x hx => by
    apply hfinite
    rw [Expr.numerals, List.mem_flatMap]
    refine ⟨row, hrow, List.mem_flatMap.mpr ⟨v, hv, ?_⟩⟩
    rw [hx]
    exact List.mem_singleton.mpr rfl
  exact .of_denotes hdenotes (Expr.sameRows_of_forall₂ hsame)

theorem same_reference (r : Reference) : (Expr.reference r).same (.reference r) = true := by
  simp [Expr.same]

/-- **A name is printed as it is spelt in the table.** -/
theorem prints_named (hnames : ctx.names.Unambiguous) {s : String} {n : NamedTarget}
    (hform : NameForm s) (hfind : ctx.names.find? s = some n) :
    Prints ctx sheet (.reference ⟨n.target, some n.name⟩) := by
  have hspelling := hnames.spelling hfind
  have hname := hform.of_upperAscii hspelling
  have hfind' : ctx.names.find? n.name = some n := by
    rwa [NameTable.find?, hspelling]
  refine .of_denotes (denotes_unqualified hname ?_) (same_reference _)
  rw [NameTable.resolve_plain _ hname.isPlain, hfind']

/-- **An address is printed with its sheet**, unless it is the current one. -/
theorem prints_address (hnames : ctx.names.Unambiguous) (hsheet : ∀ s, sheet = some s → s = ctx.sheet)
    {target : Target} (hlimits : target.InLimits) (hdeclared : ctx.names.Declares target.sheet) :
    Prints ctx sheet (.reference ⟨target, none⟩) := by
  have hform := target.nameForm_addressText hlimits
  have htarget := NameTable.addressTarget?_addressText hlimits
  have hcanonical : ctx.names.canonicalSheet? target.sheet = some target.sheet := hdeclared
  refine .of_denotes ?_ (same_reference _)
  rw [Expr.text, Expr.referenceText]
  dsimp only
  split
  case isTrue hcurrent =>
    -- no name hides the address, and the current sheet is declared as it is spelt
    have hon : target.sheet = ctx.sheet := hsheet _ (beq_iff_eq.mp hcurrent)
    refine denotes_unqualified hform ?_
    rw [NameTable.resolve_plain _ hform.isPlain, hnames.address htarget, ← hon, hcanonical]
    dsimp only
    rw [Option.getD_some, htarget]
  case isFalse =>
    have htext : target.text = SheetName.written target.sheet ++ "!" ++ target.addressText := by
      cases target <;> rfl
    rw [htext]
    refine denotes_qualified hform ?_
    rw [NameTable.resolve_written _ hform.isPlain, hcanonical]
    dsimp only
    rw [htarget]

/-- An argument, omitted or printed. -/
theorem exists_argument {a : Expr} (h : a.isOmitted = false → Prints ctx sheet a) :
    ∃ kinds a', Lexer.Scans (a.text sheet).toList kinds Lexer.isSeparator ∧ Argument ctx kinds a' ∧
      a'.same a = true := by
  cases homitted : a.isOmitted with
  | true =>
    obtain rfl := Expr.eq_omitted homitted
    exact ⟨[], .literal .empty, .nil, .omitted, rfl⟩
  | false =>
    obtain ⟨a', hsame, ⟨k, kinds, htokens, hyields⟩, -⟩ := h homitted
    exact ⟨k :: kinds, a', htokens.scans, .expression htokens.first hyields, hsame⟩

theorem exists_arguments (hne : args ≠ []) (h : ∀ a ∈ args, a.isOmitted = false → Prints ctx sheet a) :
    ∃ kinds args', Lexer.Scans (",".intercalate (Expr.argTexts sheet args)).toList kinds
        Lexer.isSeparator ∧ Arguments ctx kinds args' ∧ Expr.SameArgs args' args := by
  induction args with
  | nil => exact absurd rfl hne
  | cons a args ih =>
    obtain ⟨kinds, a', hscans, harg, hsame⟩ := exists_argument (h a List.mem_cons_self)
    cases args with
    | nil =>
      refine ⟨kinds, [a'], ?_, .last harg, .cons hsame .nil⟩
      rw [Expr.argTexts, Expr.argTexts, String.intercalate_singleton]
      exact hscans
    | cons b args =>
      obtain ⟨kinds', args', hscans', hargs, hsames⟩ :=
        ih (List.cons_ne_nil _ _) fun a' ha' => h a' (List.mem_cons_of_mem _ ha')
      refine ⟨kinds ++ .comma :: kinds', a' :: args', ?_, .next rfl harg hargs, .cons hsame hsames⟩
      have hchars : (",".intercalate (Expr.argTexts sheet (a :: b :: args))).toList =
          (a.text sheet).toList ++
            ',' :: (",".intercalate (Expr.argTexts sheet (b :: args))).toList := by
        simp [Expr.argTexts, String.intercalate_cons_cons]
      rw [hchars]
      exact hscans.between rfl rfl hscans'

/-- **A call is printed with its arguments**, whatever tree it is kept as. -/
theorem exists_call (hname : IsFunctionName f)
    (hargs : ∀ a ∈ args, a.isOmitted = false → Prints ctx sheet a) (hsole : args ≠ [.literal .empty])
    {kept : List Expr → Expr}
    (hcalls : ∀ args', Expr.SameArgs args' args → Calls ctx f args' (kept args')) :
    ∃ args', Expr.SameArgs args' args ∧ Denotes (YieldsPostfix ctx)
      (f ++ "(" ++ ",".intercalate (Expr.argTexts sheet args) ++ ")").toList (kept args') := by
  have hchars : (f ++ "(" ++ ",".intercalate (Expr.argTexts sheet args) ++ ")").toList =
      f.toList ++ '(' :: ((",".intercalate (Expr.argTexts sheet args)).toList ++ [')']) := by
    simp
  rw [hchars]
  by_cases hnil : args = []
  · subst hnil
    exact ⟨[], .nil, denotes_call hname.name .nil (yields_call_nil (hcalls [] .nil))⟩
  · obtain ⟨kinds, args', hscans, harguments, hsame⟩ := exists_arguments hnil hargs
    refine ⟨args', hsame, denotes_call hname.name hscans ?_⟩
    refine harguments.yields_call ?_ (hcalls args' hsame)
    -- a sole omitted argument would be read as no argument
    rintro rfl
    exact hsole hsame.eq_omitted

/-- **The text of a readable tree denotes an equal one.** -/
theorem prints (hnames : ctx.names.Unambiguous) (hsheet : ∀ s, sheet = some s → s = ctx.sheet)
    (h : e.Readable ctx) (hprintable : e.Printable ctx.names) : Prints ctx sheet e := by
  induction h with
  | literal hv => exact prints_literal hv hprintable.finite
  | array hrows => exact prints_array hrows hprintable.finite
  | named hform hfind => exact prints_named hnames hform hfind
  | @address target hlimits _ =>
    have hmem : ⟨target, none⟩ ∈ (Expr.reference ⟨target, none⟩).references :=
      List.mem_singleton_self _
    have hdeclared := hprintable.declared ⟨target, none⟩ hmem rfl
    exact prints_address hnames hsheet hlimits hdeclared
  | unary op _ ih => exact (ih hprintable.operand).unary op
  | binary op _ _ iha ihb => exact (iha hprintable.left).binary op (ihb hprintable.right)
  | @call f args hname _ hsole hknown ih =>
    have hargs : ∀ a ∈ args, a.isOmitted = false → Prints ctx sheet a := fun a ha homitted =>
      ih a ha homitted (.of_args rfl rfl hprintable ha)
    obtain ⟨args', hsame, hdenotes⟩ :=
      exists_call hname hargs hsole fun _ h => calls_call hname h hknown
    refine .of_denotes hdenotes ?_
    rw [Expr.same, hsame.sameArgs, beq_self_eq_true, Bool.and_true]
  | @dynamic f args spec hname _ hsole hfind hadmits hkind hoffset ih =>
    have hargs : ∀ a ∈ args, a.isOmitted = false → Prints ctx sheet a := fun a ha homitted =>
      ih a ha homitted (.of_args rfl rfl hprintable ha)
    obtain ⟨args', hsame, hdenotes⟩ :=
      exists_call hname hargs hsole fun _ h => calls_dynamic hname h hfind hadmits hkind hoffset
    refine .of_denotes hdenotes ?_
    rw [Expr.same, hsame.sameArgs, beq_self_eq_true, Bool.and_true]

/-- A tree is read back from its text behind the sign. -/
theorem Prints.exists_parse (h : Prints ctx sheet e) :
    ∃ g, Formula.parse ctx ("=" ++ e.text sheet) = .ok g ∧ g.expr.same e = true := by
  obtain ⟨e', hsame, hexpr, -⟩ := h
  obtain ⟨g, hparse, rfl⟩ := hexpr.exists_parse
  refine ⟨g, ?_, hsame⟩
  have hsource : "=" ++ e.text sheet = String.ofList ('=' :: (e.text sheet).toList) := by
    apply String.toList_injective
    simp
  rw [hsource, hparse]

end Parser

/-! ### Round trips -/

namespace Engine

/-- **A compiled formula compiles again from its text**, as written on its sheet and with every
reference qualified, to an equal tree.  No name may be an address, the numbers have to be finite,
and a name on whose sheet an address of the tree lies has to lead to a declared sheet. -/
theorem compile_printed {engine : Engine} {names : List NamedTarget} {sheets : List String}
    (htable : engine.names = .ofLists names sheets) (hnames : ∀ n ∈ names, ¬n.IsAddress)
    {sheet source : String} (hsheet : engine.names.knowsSheet sheet = true) {f : Formula}
    (h : engine.compile source sheet = .ok f)
    (hfinite : ∀ x ∈ f.expr.numerals, x.isFinite = true)
    (htargets : ∀ n ∈ names, ∀ r ∈ f.expr.references, r.name = none →
      r.target.sheet = n.target.sheet → engine.names.Declares n.target.sheet) :
    (∃ g, engine.compile (f.expr.toFormula sheet) sheet = .ok g ∧ g.expr.same f.expr = true) ∧
      ∃ g, engine.compile ("=" ++ f.expr.display) sheet = .ok g ∧ g.expr.same f.expr = true := by
  have hreadable := (Formula.readable_parse h).1
  have hunambiguous : engine.names.Unambiguous := by
    rw [htable]
    exact NameTable.unambiguous_ofLists hnames
  have hdeclared : ∀ r ∈ f.expr.references, r.name = none → engine.names.Declares r.target.sheet := by
    intro r hr hname
    have hreaches := Parser.reaches_of_readable (hreadable.of_mem_references hr)
    rcases hreaches.declares htable hsheet with hdeclares | ⟨n, hn, hon⟩
    · exact hdeclares
    · rw [← hon]
      exact htargets n hn r hr hname hon.symm
  -- the two texts differ in the sheet they are seen from only
  have hprints (from? : Option String) (hfrom : ∀ s, from? = some s → s = sheet) :=
    (Parser.prints hunambiguous hfrom hreadable ⟨hfinite, hdeclared⟩).exists_parse
  constructor
  · exact hprints (some sheet) fun s hs => (Option.some.inj hs).symm
  · exact hprints none fun s hs => by cases hs

/-- A formula that passes a check was read. -/
theorem exists_of_any {result : Except FormulaError Formula} {check : Formula → Bool}
    (h : result.toOption.any check = true) : ∃ f, result = .ok f ∧ check f = true := by
  cases result with
  | error e => cases h
  | ok f => exact ⟨f, rfl, h⟩

/-- A name on a sheet whose own name needs quotes. -/
def quotedNames : List NamedTarget := [⟨"Rate", .cell ⟨"My Sheet", 2, 3⟩⟩]

/-- A workbook with that sheet. -/
def quotedSheets : Engine := ⟨.ofLists quotedNames ["Sheet1", "My Sheet"], .builtin, .standard⟩

/-- Signs, an array, whole columns and an offset that is computed while reading. -/
def mixedSource : String := "=-sum(rate,'my sheet'!a:b,\x7b1,-2.5\x7d)%&OFFSET(Rate,1,0)"

theorem compile_printed_quoted : ∃ f, quotedSheets.compile mixedSource "Sheet1" = .ok f ∧
    (∃ g, quotedSheets.compile (f.expr.toFormula "Sheet1") "Sheet1" = .ok g ∧
      g.expr.same f.expr = true) ∧
    ∃ g, quotedSheets.compile ("=" ++ f.expr.display) "Sheet1" = .ok g ∧
      g.expr.same f.expr = true := by
  have hchecked : ((quotedSheets.compile mixedSource "Sheet1").toOption.any
      fun f => f.expr.numerals.all Float.isFinite) = true := by
    decide +kernel
  obtain ⟨f, hf, hfinite⟩ := exists_of_any hchecked
  have hnames : ∀ n ∈ quotedNames, ¬n.IsAddress := by
    intro n hn
    rw [List.mem_singleton.mp hn]
    exact NamedTarget.not_isAddress fun _ => rfl
  have hdeclares : quotedSheets.names.Declares "My Sheet" := by
    rw [NameTable.Declares]
    decide +kernel
  refine ⟨f, hf, compile_printed rfl hnames (by decide +kernel) hf (List.all_eq_true.mp hfinite) ?_⟩
  intro n hn r _ _ _
  rw [List.mem_singleton.mp hn]
  exact hdeclares

/-- A name that leads to no sheet of the workbook. -/
def strayNames : List NamedTarget := [⟨"N", .cell ⟨"", 1, 1⟩⟩]

/-- A workbook with that name. -/
def strayNamed : Engine := ⟨.ofLists strayNames ["Sheet1"], .builtin, .standard⟩

/-- **The sheet of a name has to be declared**: an offset from the name is computed to an address on
its sheet, which is then read back from neither text. -/
theorem compile_printed_stray : strayNamed.names.knowsSheet "Sheet1" = true ∧
    (∀ n ∈ strayNames, ¬n.IsAddress) ∧
    ∃ f, strayNamed.compile "=OFFSET(N,0,0)" "Sheet1" = .ok f ∧
      (∀ x ∈ f.expr.numerals, x.isFinite = true) ∧
      (strayNamed.compile (f.expr.toFormula "Sheet1") "Sheet1").isOk = false ∧
      (strayNamed.compile ("=" ++ f.expr.display) "Sheet1").isOk = false := by
  refine ⟨by decide +kernel, ?_, ?_⟩
  · intro n hn
    rw [List.mem_singleton.mp hn]
    exact NamedTarget.not_isAddress fun _ => rfl
  · have hchecked : ((strayNamed.compile "=OFFSET(N,0,0)" "Sheet1").toOption.any
        fun f => f.expr.numerals.all Float.isFinite &&
          (!(strayNamed.compile (f.expr.toFormula "Sheet1") "Sheet1").isOk &&
            !(strayNamed.compile ("=" ++ f.expr.display) "Sheet1").isOk)) = true := by
      decide +kernel
    obtain ⟨f, hf, hcheck⟩ := exists_of_any hchecked
    simp only [Bool.and_eq_true, Bool.not_eq_true', List.all_eq_true] at hcheck
    exact ⟨f, hf, hcheck⟩

end Engine

end Recalc
