/-
Recalc/Proofs/Formula/Lexing.lean

Texts and the tokens they are read as.  `Scans cs kinds follow` says that the characters
`cs` are read as tokens of these kinds whatever stands behind them, as long as its first
character, or the end, is one of `follow`.  Texts can be put together (`Scans.append`), so
the tokens of a printed formula come from those of its parts.

Every kind of token has a lemma for its spelling.  Operands are followed by separators
(`isSeparator`), which end every kind of token that an operand can end in.
-/
import Recalc.Formula.Printer
import Recalc.Proofs.Formula.Reading
import Recalc.Proofs.Number.Literal

namespace Recalc

namespace Lexer

variable {c : Char} {cs ds rest : List Char} {kind : TokenKind} {kinds kinds' : List TokenKind}
  {follow follow' : Option Char → Bool}

/-! ### Pieces of text -/

/-- The characters are read as tokens of these kinds, if what follows starts as said. -/
def Scans (cs : List Char) (kinds : List TokenKind) (follow : Option Char → Bool) : Prop :=
  ∀ (pos : Nat) (rest : List Char), follow rest.head? = true →
    ∃ ts : List Token, ts.map Token.kind = kinds ∧
      scan 0 pos (cs ++ rest) = (scan 0 (pos + cs.length) rest).map (ts ++ ·)

/-- Whatever follows. -/
def anything : Option Char → Bool := fun _ => true

theorem scan_taken (taken pos : Nat) (cs rest : List Char) (h : cs.length = taken) :
    scan taken pos (cs ++ rest) = scan 0 (pos + taken) rest := by
  induction cs generalizing taken pos with
  | nil =>
    obtain rfl : taken = 0 := h.symm
    rfl
  | cons c cs ih =>
    obtain ⟨k, rfl⟩ : ∃ k, taken = k + 1 := ⟨cs.length, h.symm⟩
    rw [List.cons_append, scan, ih k (pos + 1) (Nat.succ.inj h), Nat.add_assoc, Nat.add_comm 1]

/-- One token. -/
theorem scans_of_munch (hblank : Text.isBlank c = false)
    (h : ∀ rest : List Char, follow rest.head? = true → munch c (ds ++ rest) = .ok (kind, ds.length)) :
    Scans (c :: ds) [kind] follow := by
  intro pos rest hrest
  refine ⟨[⟨kind, pos, ds.length + 1⟩], rfl, ?_⟩
  rw [List.cons_append, scan, hblank, if_neg Bool.false_ne_true, h rest hrest]
  dsimp only
  rw [scan_taken _ _ ds rest rfl, List.length_cons, Nat.add_assoc, Nat.add_comm 1]
  cases scan 0 (pos + (ds.length + 1)) rest <;> rfl

/-- **Texts that fit together are read one after the other.** -/
theorem Scans.append (h : Scans cs kinds follow) (h' : Scans ds kinds' follow')
    (hfit : ∀ rest : List Char, follow' rest.head? = true → follow (ds ++ rest).head? = true) :
    Scans (cs ++ ds) (kinds ++ kinds') follow' := by
  intro pos rest hrest
  obtain ⟨ts, hts, hscan⟩ := h pos (ds ++ rest) (hfit rest hrest)
  obtain ⟨ts', hts', hscan'⟩ := h' (pos + cs.length) rest hrest
  refine ⟨ts ++ ts', by rw [List.map_append, hts, hts'], ?_⟩
  rw [List.append_assoc, hscan, hscan', List.length_append, Nat.add_assoc]
  cases scan 0 (pos + (cs.length + ds.length)) rest with
  | error e => rfl
  | ok tokens => exact congrArg Except.ok (List.append_assoc _ _ _).symm

theorem Scans.nil : Scans [] [] follow := by
  intro pos rest _
  refine ⟨[], rfl, ?_⟩
  rw [List.nil_append, List.length_nil, Nat.add_zero]
  cases scan 0 pos rest <;> rfl

theorem Scans.mono (h : Scans cs kinds follow) (hle : ∀ d, follow' d = true → follow d = true) :
    Scans cs kinds follow' :=
  fun pos rest hrest => h pos rest (hle _ hrest)

/-- The end of the text is a token, too. -/
theorem Scans.tokens (h : Scans cs kinds follow) (hend : follow none = true) (start : Nat) :
    ∃ ts, Lexer.tokens start cs = .ok ts ∧ ts.map Token.kind = kinds ++ [.eof] := by
  obtain ⟨ts, hts, hscan⟩ := h start [] hend
  rw [List.append_nil] at hscan
  refine ⟨ts ++ [⟨.eof, start + cs.length, 0⟩], ?_, by rw [List.map_append, hts]; rfl⟩
  rw [Lexer.tokens, hscan]
  rfl

/-! ### Signs -/

theorem scans_single (h : single? c = some kind) : Scans [c] [kind] anything := by
  have hblank : Text.isBlank c = false := by
    unfold single? at h
    split at h <;> first | decide | cases h
  refine scans_of_munch hblank fun rest _ => ?_
  rw [munch, h]
  rfl

/-- A sign in front. -/
theorem Scans.cons (hc : single? c = some kind) (h : Scans cs kinds follow) :
    Scans (c :: cs) (kind :: kinds) follow :=
  (scans_single hc).append h fun _ _ => rfl

/-- A sign behind. -/
theorem Scans.snoc (h : Scans cs kinds follow) (hc : single? c = some kind)
    (hfit : follow (some c) = true) : Scans (cs ++ [c]) (kinds ++ [kind]) anything :=
  h.append (scans_single hc) fun _ _ => hfit

/-- A sign in the middle. -/
theorem Scans.between (h : Scans cs kinds follow) (hc : single? c = some kind)
    (hfit : follow (some c) = true) (h' : Scans ds kinds' follow') :
    Scans (cs ++ c :: ds) (kinds ++ kind :: kinds') follow' :=
  h.append (h'.cons hc) fun _ _ => hfit

end Lexer

/-- The token of an operator. -/
def BinaryOp.token : BinaryOp → TokenKind
  | .add => .plus
  | .subtract => .minus
  | .multiply => .star
  | .divide => .slash
  | .power => .caret
  | .equal => .equal
  | .notEqual => .notEqual
  | .less => .less
  | .lessEqual => .lessEqual
  | .greater => .greater
  | .greaterEqual => .greaterEqual
  | .concat => .ampersand

namespace Lexer

variable {c : Char} {cs ds rest : List Char} {kind : TokenKind} {follow : Option Char → Bool}

/-- A character that an operand can start with: no blank and nothing that a comparison goes on
with. -/
def startsOperand : Option Char → Bool
  | none => false
  | some c => !Text.isBlank c && c != '=' && c != '>'

/-- **Every operator is read as its token**, if an operand follows. -/
theorem scans_symbol (op : BinaryOp) : Scans op.symbol.toList [op.token] startsOperand := by
  have hany {c : Char} {kind : TokenKind} (h : single? c = some kind) :
      Scans [c] [kind] startsOperand := (scans_single h).mono fun _ _ => rfl
  have hnot {d : Char} {rest : List Char} (h : startsOperand rest.head? = true)
      (hd : startsOperand (some d) = false) : rest.head? ≠ some d := by
    intro heq
    rw [heq, hd] at h
    cases h
  cases op with
  | add => exact hany rfl
  | subtract => exact hany rfl
  | multiply => exact hany rfl
  | divide => exact hany rfl
  | power => exact hany rfl
  | equal => exact hany rfl
  | concat => exact hany rfl
  | notEqual => exact scans_of_munch (c := '<') rfl fun rest _ => rfl
  | lessEqual => exact scans_of_munch (c := '<') rfl fun rest _ => rfl
  | greaterEqual => exact scans_of_munch (c := '>') rfl fun rest _ => rfl
  | less =>
    refine scans_of_munch (c := '<') rfl fun rest hrest => ?_
    have hequal := hnot hrest (d := '=') (by decide)
    have hgreater := hnot hrest (d := '>') (by decide)
    rw [List.nil_append, munch, show single? '<' = none from rfl]
    dsimp only
    rw [if_pos rfl]
    split
    · next heq => exact absurd heq hequal
    · next heq => exact absurd heq hgreater
    · rfl
  | greater =>
    refine scans_of_munch (c := '>') rfl fun rest hrest => ?_
    have hequal := hnot hrest (d := '=') (by decide)
    rw [List.nil_append, munch, show single? '>' = none from rfl]
    dsimp only
    rw [if_neg (by decide), if_pos rfl]
    split
    · next heq => exact absurd heq hequal
    · rfl

/-! ### Quotes and labels -/

/-- A text whose quotes are doubled, with a quote at its end, is read up to that quote. -/
theorem quoted?_doubled (quote : Char) (cs : List Char) (h : rest.head? ≠ some quote) :
    quoted? quote (cs.flatMap (fun c => if c = quote then [quote, quote] else [c]) ++ quote :: rest) =
      some (cs, (cs.flatMap fun c => if c = quote then [quote, quote] else [c]).length + 1) := by
  induction cs with
  | nil =>
    cases rest with
    | nil => simp [quoted?]
    | cons d rest =>
      have hd : d ≠ quote := fun heq => h (congrArg some heq)
      simp [quoted?, hd]
  | cons c cs ih =>
    by_cases hc : c = quote
    · subst hc
      simp [quoted?, ih]
    · -- the quote at the end keeps the rest from being empty
      obtain ⟨d, tail, htail⟩ : ∃ d tail, cs.flatMap (fun c => if c = quote then [quote, quote] else [c]) ++
          quote :: rest = d :: tail := List.exists_cons_of_ne_nil (by simp)
      rw [List.flatMap_cons, if_neg hc, List.append_assoc, htail, List.singleton_append,
        quoted?.eq_def]
      rw [htail] at ih
      simp [hc, ih]

/-- What may follow a quote. -/
def endsQuote (quote : Char) (next : Option Char) : Bool := next != some quote

theorem scans_quotedText (s : String) :
    Scans (Expr.quotedText s).toList [.text s] (endsQuote '"') := by
  rw [Expr.quotedText, String.toList_ofList, List.cons_append]
  refine scans_of_munch (c := '"') rfl fun rest hrest => ?_
  have hquoted := quoted?_doubled '"' s.toList (bne_iff_ne.mp hrest)
  rw [List.append_assoc, List.singleton_append, List.length_append, List.length_singleton]
  rw [munch, show single? '"' = none from rfl]
  dsimp only
  rw [if_neg (by decide), if_neg (by decide), if_pos rfl, hquoted]
  dsimp only
  rw [String.ofList_toList]

theorem scans_quotedSheet (s : String) :
    Scans ('\'' :: SheetName.doubleQuotes s.toList ++ ['\'']) [.sheetName s] (endsQuote '\'') := by
  rw [List.cons_append]
  refine scans_of_munch (c := '\'') rfl fun rest hrest => ?_
  have hquoted := quoted?_doubled '\'' s.toList (bne_iff_ne.mp hrest)
  rw [List.append_assoc, List.singleton_append, List.length_append, List.length_singleton]
  rw [munch, show single? '\'' = none from rfl]
  dsimp only
  rw [if_neg (by decide), if_neg (by decide), if_neg (by decide), if_pos rfl,
    SheetName.doubleQuotes, hquoted]
  dsimp only
  rw [String.ofList_toList]

/-- **A fault is read from its label**: no label starts another. -/
theorem scans_label {f : Fault} (h : f ∈ Fault.spelled) : Scans f.label.toList [.error f] anything := by
  obtain ⟨ds, hlabel, hfound⟩ : ∃ ds, f.label.toList = '#' :: ds ∧
      ∀ rest, errorLiteral ('#' :: ds ++ rest) = .ok (.error f, ds.length) := by
    simp only [Fault.spelled, List.mem_cons, List.not_mem_nil, or_false] at h
    rcases h with rfl | rfl | rfl | rfl | rfl | rfl | rfl <;> exact ⟨_, rfl, fun rest => rfl⟩
  rw [hlabel]
  exact scans_of_munch (c := '#') rfl fun rest _ => hfound rest

/-! ### Names -/

/-- A character of names is none that has another meaning. -/
theorem ne_of_isNamePart {d : Char} (h : isNamePart c = true) (hd : isNamePart d = false) : c ≠ d := by
  rintro rfl
  rw [h] at hd
  cases hd

theorem single?_of_isNamePart (h : isNamePart c = true) : single? c = none := by
  unfold single?
  split <;> first | rfl | exact absurd rfl (ne_of_isNamePart h (by decide))

theorem not_isDigit_of_isNameStart (h : isNameStart c = true) : ¬(c = '.' ∨ c.isDigit = true) := by
  rintro (rfl | hdigit)
  · revert h
    decide
  · have hrange := Text.isDigit_iff.mp hdigit
    have halpha : c.isAlpha = false := by
      rw [Bool.eq_false_iff]
      intro halpha
      rw [Text.isDigit_of_isAlpha halpha] at hdigit
      cases hdigit
    rw [isNameStart, Text.isAlphabetic, if_pos (by omega), halpha, Bool.or_false] at h
    simp only [Bool.or_eq_true, beq_iff_eq] at h
    rcases h with (rfl | rfl) | rfl <;> cases hdigit

theorem munch_of_isNamePart (h : isNamePart c = true) : munch c rest =
    if c = '.' ∨ c.isDigit then number c rest
    else if isNameStart c then .ok (name c rest) else .error (.unexpectedCharacter c) := by
  have hne {d : Char} (hd : isNamePart d = false) : c ≠ d := ne_of_isNamePart h hd
  rw [munch, single?_of_isNamePart h]
  dsimp only
  rw [if_neg (hne (by decide)), if_neg (hne (by decide)), if_neg (hne (by decide)),
    if_neg (hne (by decide)), if_neg (hne (by decide))]

theorem takeWhile_append_end {p : Char → Bool} (h : rest.head?.any p = false) (cs : List Char) :
    (cs ++ rest).takeWhile p = cs.takeWhile p := by
  induction cs with
  | nil =>
    cases rest with
    | nil => rfl
    | cons d rest => exact List.takeWhile_cons_of_neg (Bool.eq_false_iff.mp h)
  | cons d cs ih => rw [List.cons_append, List.takeWhile_cons, List.takeWhile_cons, ih]

/-- What follows does not go on with a name. -/
def stopsName (next : Option Char) : Bool := !next.any isNamePart

theorem any_eq_false_of_stopsName {p : Char → Bool} {next : Option Char} (h : stopsName next = true)
    (hp : ∀ d, p d = true → isNamePart d = true) : next.any p = false := by
  cases next with
  | none => rfl
  | some d =>
    rw [stopsName, Option.any_some, Bool.not_eq_true'] at h
    rw [Option.any_some, Bool.eq_false_iff]
    intro hpd
    rw [hp d hpd] at h
    cases h

theorem anchorLength_append (h : stopsName rest.head? = true) (cs : List Char) :
    anchorLength (cs ++ rest) = anchorLength cs := by
  cases cs with
  | cons d cs =>
    rw [List.cons_append]
    by_cases hd : d = '$'
    · subst hd
      rfl
    · rw [anchorLength.eq_def, anchorLength.eq_def]
      split <;> split <;> simp_all
  | nil =>
    cases rest with
    | nil => rfl
    | cons d rest =>
      have hd : d ≠ '$' := by
        rintro rfl
        revert h
        show ¬stopsName (some '$') = true
        decide
      rw [List.nil_append, anchorLength.eq_def]
      split
      · next heq => exact absurd (List.cons.inj heq).1 hd
      · rfl

theorem anchorLength_le (cs : List Char) : anchorLength cs ≤ cs.length := by
  unfold anchorLength
  split
  · exact Nat.succ_pos _
  · exact Nat.zero_le _

/-- The address in front is the same whatever follows the name. -/
theorem addressLength_append (h : stopsName rest.head? = true) (cs : List Char) :
    addressLength (cs ++ rest) = addressLength cs := by
  have halpha : rest.head?.any Char.isAlpha = false :=
    any_eq_false_of_stopsName h fun _ hd => isNamePart_of_isNameStart (isNameStart_of_isAlpha hd)
  have hdigit : rest.head?.any Char.isDigit = false :=
    any_eq_false_of_stopsName h fun _ => isNamePart_of_isDigit
  have hletters (cs : List Char) : (cs.takeWhile Char.isAlpha).length ≤ cs.length :=
    (List.takeWhile_prefix _).length_le
  rw [addressLength, addressLength]
  simp only [anchorLength_append h, List.drop_append_of_le_length (anchorLength_le _),
    takeWhile_append_end halpha, List.drop_append_of_le_length (hletters _),
    takeWhile_append_end hdigit]

theorem addressLength_le (cs : List Char) : addressLength cs ≤ cs.length := by
  unfold addressLength
  extract_lets body letters tail digits
  have hbody : body.length = cs.length - anchorLength cs := List.length_drop
  have hletters : letters ≤ body.length := (List.takeWhile_prefix _).length_le
  have htail : tail.length = body.length - letters := List.length_drop
  have hdigits : digits ≤ (tail.drop (anchorLength tail)).length := (List.takeWhile_prefix _).length_le
  rw [List.length_drop] at hdigits
  have hfirst := anchorLength_le cs
  have hsecond := anchorLength_le tail
  split <;> omega

/-- What may follow a cell. -/
def endsName (next : Option Char) : Bool := !next.any continuesCell

theorem stopsName_of_endsName {next : Option Char} (h : endsName next = true) :
    stopsName next = true := by
  cases next with
  | none => rfl
  | some d =>
    simp only [endsName, Option.any_some, continuesCell, Bool.not_eq_true', Bool.or_eq_false_iff] at h
    rw [stopsName, Option.any_some, h.1.1]
    rfl

/-- The cell in front is the same whatever follows the name. -/
theorem cell?_append (h : endsName rest.head? = true) (cs : List Char) :
    cell? (cs ++ rest) = cell? cs := by
  have hle := addressLength_le cs
  have hended : ((cs ++ rest).drop (addressLength cs)).head?.any continuesCell =
      (cs.drop (addressLength cs)).head?.any continuesCell := by
    rw [List.drop_append_of_le_length hle]
    cases cs.drop (addressLength cs) with
    | cons d tail => rfl
    | nil => rwa [endsName, Bool.not_eq_true'] at h
  rw [cell?, cell?]
  simp only [addressLength_append (stopsName_of_endsName h), List.take_append_of_le_length hle, hended]

/-- A call or a sheet is no cell. -/
theorem cell?_append_of_continuesCell (hcs : ∀ d ∈ cs, isNamePart d = true)
    (h : stopsName rest.head? = true) (hopen : rest.head?.any continuesCell = true) :
    cell? (cs ++ rest) = none := by
  have hle := addressLength_le cs
  have hended : ((cs ++ rest).drop (addressLength cs)).head?.any continuesCell = true := by
    rw [List.drop_append_of_le_length hle]
    cases htail : cs.drop (addressLength cs) with
    | nil => exact hopen
    | cons d tail =>
      have hd : d ∈ cs := List.mem_of_mem_drop (htail ▸ List.mem_cons_self)
      show continuesCell d = true
      rw [continuesCell, hcs d hd]
      rfl
  rw [cell?]
  simp only [addressLength_append h, hended, Bool.not_true]
  exact if_neg fun hcell => Bool.false_ne_true hcell.2.1

/-- A name that starts with a cell is one. -/
theorem cell?_eq_some {t : String} {n : Nat} (hcs : ∀ d ∈ cs, isNamePart d = true)
    (h : cell? cs = some (t, n)) : t = String.ofList cs ∧ n = cs.length := by
  unfold cell? at h
  extract_lets length spelling ended at h
  split at h
  case isFalse => cases h
  case isTrue hcell =>
    have hle : length ≤ cs.length := addressLength_le cs
    have hlength : length = cs.length := by
      refine Nat.le_antisymm hle (Nat.le_of_not_lt fun hlt => ?_)
      have hd := hcs cs[length] (List.getElem_mem hlt)
      have hcontinues : ended = false := by
        show (!(cs.drop length).head?.any continuesCell) = false
        rw [List.head?_drop, List.getElem?_eq_getElem hlt, Option.any_some, continuesCell, hd]
        rfl
      rw [hcontinues] at hcell
      cases hcell.2.1
    obtain ⟨rfl, rfl⟩ := Prod.mk.inj (Option.some.inj h)
    refine ⟨?_, hlength⟩
    show String.ofList (cs.take length) = _
    rw [hlength, List.take_length]

theorem isNamePart_of_isName (h : isName cs = true) : ∀ d ∈ cs, isNamePart d = true := by
  cases cs with
  | nil => exact fun d hd => by cases hd
  | cons c rest =>
    rw [isName, Bool.and_eq_true, List.all_eq_true] at h
    intro d hd
    rcases List.mem_cons.mp hd with rfl | hd
    · exact isNamePart_of_isNameStart h.1
    · exact h.2 d hd

/-- The token of a name that nothing follows. -/
def nameKind (cs : List Char) : TokenKind :=
  if (cell? cs).isSome then .cell (String.ofList cs) else .identifier (String.ofList cs)

/-- The token that a name starts, by what it is in the text. -/
theorem scans_of_name (h : isName (c :: ds) = true)
    (hname : ∀ rest : List Char, follow rest.head? = true → name c (ds ++ rest) = (kind, ds.length)) :
    Scans (c :: ds) [kind] follow := by
  have hparts := isNamePart_of_isName h
  rw [isName, Bool.and_eq_true] at h
  have hc : isNamePart c = true := hparts c List.mem_cons_self
  refine scans_of_munch (isBlank_of_isNamePart hc) fun rest hrest => ?_
  rw [munch_of_isNamePart hc, if_neg (not_isDigit_of_isNameStart h.1), if_pos h.1, hname rest hrest]

/-- The name in front of what does not go on with it. -/
theorem name_eq_identifier (hds : ∀ d ∈ ds, isNamePart d = true) (h : stopsName rest.head? = true)
    (hcell : cell? (c :: (ds ++ rest)) = none) :
    name c (ds ++ rest) = (.identifier (String.ofList (c :: ds)), ds.length) := by
  have htake : (ds ++ rest).takeWhile isNamePart = ds :=
    Text.takeWhile_append_stop hds (any_eq_false_of_stopsName h fun _ hd => hd)
  rw [name, hcell]
  dsimp only
  rw [htake]

/-- **A name is read as one token**, be it a cell or not. -/
theorem scans_name (h : isName cs = true) : Scans cs [nameKind cs] endsName := by
  have hparts := isNamePart_of_isName h
  cases cs with
  | nil => cases h
  | cons c ds =>
    refine scans_of_name h fun rest hrest => ?_
    have hcell : cell? (c :: (ds ++ rest)) = cell? (c :: ds) := cell?_append hrest (c :: ds)
    rw [nameKind]
    cases hwhole : cell? (c :: ds) with
    | none =>
      exact name_eq_identifier (fun d hd => hparts d (List.mem_cons_of_mem _ hd))
        (stopsName_of_endsName hrest) (hcell.trans hwhole)
    | some p =>
      obtain ⟨t, n⟩ := p
      obtain ⟨rfl, rfl⟩ := cell?_eq_some hparts hwhole
      rw [name, hcell, hwhole]
      rfl

/-- What follows the name of a function or a sheet. -/
def opensName (next : Option Char) : Bool := next == some '(' || next == some '!'

/-- **The name of a function or a sheet is no cell**, whatever it looks like. -/
theorem scans_identifier (h : isName cs = true) :
    Scans cs [.identifier (String.ofList cs)] opensName := by
  have hparts := isNamePart_of_isName h
  cases cs with
  | nil => cases h
  | cons c ds =>
    refine scans_of_name h fun rest hrest => ?_
    obtain ⟨hstop, hopen⟩ : stopsName rest.head? = true ∧ rest.head?.any continuesCell = true := by
      rw [opensName, Bool.or_eq_true, beq_iff_eq, beq_iff_eq] at hrest
      rcases hrest with heq | heq <;> rw [heq] <;> decide
    exact name_eq_identifier (fun d hd => hparts d (List.mem_cons_of_mem _ hd)) hstop
      (cell?_append_of_continuesCell hparts hstop hopen)

/-! ### Numbers -/

theorem numberLength_digits (point exponent : Bool) (hds : ∀ d ∈ ds, d.isDigit = true)
    (rest : List Char) : numberLength point exponent (ds ++ rest) =
      ds.length + numberLength point exponent rest := by
  induction ds with
  | nil => rw [List.nil_append, List.length_nil, Nat.zero_add]
  | cons d ds ih =>
    rw [List.cons_append, numberLength_digit _ _ (hds d List.mem_cons_self),
      ih fun x hx => hds x (List.mem_cons_of_mem _ hx), List.length_cons]
    omega

theorem numberLength_plainNumeral (h : PlainNumeral cs) : numberLength false false cs = cs.length := by
  cases h with
  | whole hne hds =>
    have hlength := numberLength_digits false false hds []
    rwa [List.append_nil] at hlength
  | point hne hds hfne hfs =>
    have hlength := numberLength_digits true false hfs []
    rw [List.append_nil] at hlength
    rw [numberLength_digits _ _ hds, numberLength_point (by decide) (by simp), hlength,
      List.length_append, List.length_cons, numberLength]

theorem isNumeral_of_plainNumeral (h : PlainNumeral cs) {x : Float}
    (hread : readFloat? (String.ofList cs) = some x) : isNumeral cs = true := by
  obtain ⟨c, rest, heq, hc⟩ := h.head_isDigit
  have hhead : cs.head?.any (fun c => c == '.' || c.isDigit) = true := by
    rw [heq, List.head?_cons, Option.any_some, hc, Bool.or_true]
  rw [isNumeral, hhead, numberLength_plainNumeral h, hread]
  simp

theorem endsNumber_of_endsName (h : endsName rest.head? = true) : endsNumber rest = true := by
  have hstop := stopsName_of_endsName h
  rw [endsNumber, Bool.not_eq_true']
  refine any_eq_false_of_stopsName hstop fun d hd => ?_
  simp only [Bool.or_eq_true, beq_iff_eq] at hd
  rcases hd with ((hdigit | rfl) | rfl) | rfl
  · exact isNamePart_of_isDigit hdigit
  · rfl
  · rfl
  · rfl

/-- **A numeral is read as one number.** -/
theorem scans_numeral (h : isNumeral cs = true) {x : Float}
    (hread : readFloat? (String.ofList cs) = some x) :
    Scans cs [.number x (String.ofList cs)] endsName := by
  simp only [isNumeral, Bool.and_eq_true, beq_iff_eq] at h
  obtain ⟨⟨hhead, hlength⟩, -⟩ := h
  cases cs with
  | nil => cases hhead
  | cons c ds =>
    rw [List.head?_cons, Option.any_some, Bool.or_eq_true, beq_iff_eq] at hhead
    have hc : isNamePart c = true := by
      rcases hhead with rfl | hdigit
      · rfl
      · exact isNamePart_of_isDigit hdigit
    refine scans_of_munch (isBlank_of_isNamePart hc) fun rest hrest => ?_
    have hwhole : numberLength false false (c :: (ds ++ rest)) = ds.length + 1 := by
      have htake := numberLength_take_append false false (c :: ds) (endsNumber_of_endsName hrest)
      rwa [hlength, List.take_length] at htake
    have hspelling : (c :: (ds ++ rest)).take (ds.length + 1) = c :: ds := by
      rw [List.take_succ_cons, List.take_left]
    rw [munch_of_isNamePart hc, if_pos hhead, number]
    simp only [hwhole, hspelling, hread, Nat.add_sub_cancel]

/-! ### References -/

/-- **A part of a reference is read as one token that may be a part.** -/
theorem scans_part (h : isPart cs = true) :
    ∃ kind, Parser.referencePart? kind = some (String.ofList cs) ∧ Scans cs [kind] endsName := by
  rw [isPart, Bool.or_eq_true] at h
  rcases h with hname | hnumeral
  · refine ⟨nameKind cs, ?_, scans_name hname⟩
    rw [nameKind]
    split <;> rfl
  · obtain ⟨x, hread⟩ : ∃ x, readFloat? (String.ofList cs) = some x := by
      simp only [isNumeral, Bool.and_eq_true] at hnumeral
      exact Option.isSome_iff_exists.mp hnumeral.2
    exact ⟨_, rfl, scans_numeral hnumeral hread⟩

theorem isName_of_isBare {s : String} (h : SheetName.isBare s = true) : isName s.toList = true := by
  have hparts : ∀ d ∈ s.toList, isNamePart d = true := fun d => SheetName.isNamePart_of_isBare h
  simp only [SheetName.isBare, Bool.and_eq_true, List.all_eq_true, Bool.or_eq_true, beq_iff_eq,
    Bool.not_eq_true'] at h
  obtain ⟨⟨⟨hne, hall⟩, hhead⟩, -⟩ := h
  cases hchars : s.toList with
  | nil =>
    rw [hchars] at hne
    cases hne
  | cons c rest =>
    rw [hchars] at hparts hall hhead
    rw [isName, Bool.and_eq_true, List.all_eq_true]
    refine ⟨?_, fun d hd => hparts d (List.mem_cons_of_mem _ hd)⟩
    rcases hall c List.mem_cons_self with halnum | rfl
    · rw [Char.isAlphanum, Bool.or_eq_true] at halnum
      rw [List.head?_cons, Option.any_some] at hhead
      exact isNameStart_of_isAlpha (halnum.resolve_right (by rw [hhead]; exact Bool.false_ne_true))
    · rfl

/-- **The sheet in front of a reference is read as it was**, with quotes or without. -/
theorem scans_written (sheet : String) : ∃ kind, (kind = .identifier sheet ∨ kind = .sheetName sheet) ∧
    Scans (SheetName.written sheet).toList [kind] (· == some '!') := by
  rw [SheetName.written]
  split
  case isTrue hbare =>
    have hscans := scans_identifier (isName_of_isBare hbare)
    rw [String.ofList_toList] at hscans
    refine ⟨_, .inl rfl, hscans.mono fun next hnext => ?_⟩
    rw [beq_iff_eq.mp hnext]
    rfl
  case isFalse =>
    rw [String.toList_ofList]
    refine ⟨_, .inr rfl, (scans_quotedSheet sheet).mono fun next hnext => ?_⟩
    rw [beq_iff_eq.mp hnext]
    rfl

/-! ### Separators -/

/-- The characters that stand behind operands. -/
def separators : List Char :=
  ['+', '-', '*', '/', '^', '&', '=', '<', '>', '%', ',', ')', ';', '\x7d']

/-- What may follow an operand. -/
def isSeparator (next : Option Char) : Bool := next.all separators.contains

theorem follow_of_isSeparator {next : Option Char} (h : isSeparator next = true)
    (hend : follow none = true) (hall : separators.all (fun d => follow (some d)) = true) :
    follow next = true := by
  cases next with
  | none => exact hend
  | some d => exact List.all_eq_true.mp hall d (List.contains_iff_mem.mp h)

theorem Scans.of_endsName {kinds : List TokenKind} (h : Scans cs kinds endsName) :
    Scans cs kinds isSeparator :=
  h.mono fun _ hnext => follow_of_isSeparator hnext rfl (by decide)

theorem Scans.of_endsQuote {kinds : List TokenKind} (h : Scans cs kinds (endsQuote '"')) :
    Scans cs kinds isSeparator :=
  h.mono fun _ hnext => follow_of_isSeparator hnext rfl (by decide)

/-! ### Case -/

theorem isMark_toUpper (c : Char) : c.toUpper = 'e' ∨ c.toUpper = 'E' ↔ c = 'e' ∨ c = 'E' := by
  have hupper := Text.toNat_toUpper c
  simp only [← Char.toNat_inj, hupper]
  show _ = 101 ∨ _ = 69 ↔ c.toNat = 101 ∨ c.toNat = 69
  split <;> omega

theorem numberLength_map_toUpper (point exponent : Bool) (cs : List Char) :
    numberLength point exponent (cs.map Char.toUpper) = numberLength point exponent cs := by
  have hpoint (d : Char) : d.toUpper = '.' ↔ d = '.' := Text.toUpper_eq_iff (by decide)
  have hplus (d : Char) : d.toUpper = '+' ↔ d = '+' := Text.toUpper_eq_iff (by decide)
  have hminus (d : Char) : d.toUpper = '-' ↔ d = '-' := Text.toUpper_eq_iff (by decide)
  have hhead (next : Option Char) : (next.map Char.toUpper).any Char.isDigit = next.any Char.isDigit := by
    cases next with
    | none => rfl
    | some d => exact Text.isDigit_toUpper d
  fun_induction numberLength point exponent cs with
  | case1 => rfl
  | _ =>
    rw [List.map_cons, numberLength.eq_def]
    simp only [Text.isDigit_toUpper, isMark_toUpper, hpoint, hplus, hminus, List.map_cons,
      List.map_nil, List.head?_map, hhead]
    grind

end Lexer

namespace Decimal

open Text

theorem splitSign_map_toUpper (cs : List Char) :
    splitSign (cs.map Char.toUpper) = ((splitSign cs).1, (splitSign cs).2.map Char.toUpper) := by
  cases cs with
  | nil => rfl
  | cons c rest =>
    have hminus : c.toUpper = '-' ↔ c = '-' := toUpper_eq_iff (by decide)
    have hplus : c.toUpper = '+' ↔ c = '+' := toUpper_eq_iff (by decide)
    rw [List.map_cons, splitSign.eq_def, splitSign.eq_def]
    grind

theorem exponent?_map_toUpper (cs : List Char) : exponent? (cs.map Char.toUpper) = exponent? cs := by
  cases cs with
  | nil => rfl
  | cons c rest =>
    rw [List.map_cons, exponent?, exponent?]
    simp only [Lexer.isMark_toUpper, splitSign_map_toUpper, all_map_toUpper isDigit_toUpper, ne_eq,
      List.map_eq_nil_iff]
    split
    · split
      · next hds =>
        rw [map_toUpper_of_isDigit (List.all_eq_true.mp hds.2)]
      · rfl
    · rfl

theorem takeWhile_isDigit_map_toUpper (cs : List Char) :
    (cs.map Char.toUpper).takeWhile Char.isDigit = cs.takeWhile Char.isDigit := by
  rw [takeWhile_map_toUpper isDigit_toUpper]
  exact map_toUpper_of_isDigit fun _ => List.mem_takeWhile_imp

/-- The digits behind the point, and what follows them. -/
def splitFraction : List Char → List Char × List Char
  | '.' :: rest => (rest.takeWhile Char.isDigit, rest.dropWhile Char.isDigit)
  | rest => ([], rest)

theorem splitFraction_map_toUpper (cs : List Char) : splitFraction (cs.map Char.toUpper) =
    ((splitFraction cs).1, (splitFraction cs).2.map Char.toUpper) := by
  cases cs with
  | nil => rfl
  | cons c rest =>
    by_cases hc : c = '.'
    · subst hc
      show ((rest.map Char.toUpper).takeWhile Char.isDigit, _) = _
      rw [takeWhile_isDigit_map_toUpper, dropWhile_map_toUpper isDigit_toUpper]
      rfl
    · have hupper : c.toUpper ≠ '.' := fun heq => hc ((toUpper_eq_iff (by decide)).mp heq)
      rw [List.map_cons, splitFraction.eq_def, splitFraction.eq_def]
      grind

theorem unsigned?_eq (negative : Bool) (cs : List Char) : unsigned? negative cs =
    if cs.takeWhile Char.isDigit = [] ∧ (splitFraction (cs.dropWhile Char.isDigit)).1 = [] then none
    else (exponent? (splitFraction (cs.dropWhile Char.isDigit)).2).map fun e =>
      ⟨negative, ofDigits (cs.takeWhile Char.isDigit ++ (splitFraction (cs.dropWhile Char.isDigit)).1),
        e - (splitFraction (cs.dropWhile Char.isDigit)).1.length⟩ := rfl

/-- **The case of its mark does not matter to a numeral.** -/
theorem unsigned?_map_toUpper (negative : Bool) (cs : List Char) :
    unsigned? negative (cs.map Char.toUpper) = unsigned? negative cs := by
  rw [unsigned?_eq, unsigned?_eq, takeWhile_isDigit_map_toUpper, dropWhile_map_toUpper isDigit_toUpper,
    splitFraction_map_toUpper, exponent?_map_toUpper]

theorem negative_of_unsigned? {negative : Bool} {cs : List Char} {d : Decimal}
    (h : unsigned? negative cs = some d) : d.negative = negative := by
  rw [unsigned?_eq] at h
  split at h
  · cases h
  · obtain ⟨e, -, rfl⟩ := Option.map_eq_some_iff.mp h
    rfl

end Decimal

namespace Lexer

variable {cs : List Char}

/-- A numeral is read without a sign. -/
theorem readFloat?_of_isNumeral (h : cs.head?.any (fun c => c == '.' || c.isDigit) = true) :
    readFloat? (String.ofList cs) = (Decimal.unsigned? false cs).map Decimal.toFloat := by
  cases cs with
  | nil => cases h
  | cons c rest =>
    rw [List.head?_cons, Option.any_some, Bool.or_eq_true, beq_iff_eq] at h
    rw [readFloat?, String.toList_ofList,
      Decimal.readChars?_of_splitSign (Decimal.splitSign_of_numeral h) h]

/-- A numeral spells a number that is not negative. -/
theorem isNegative_of_isNumeral (h : isNumeral cs = true) {x : Float}
    (hread : readFloat? (String.ofList cs) = some x) : Binary64.isNegative x = false := by
  simp only [isNumeral, Bool.and_eq_true] at h
  rw [readFloat?_of_isNumeral h.1.1] at hread
  obtain ⟨d, hd, rfl⟩ := Option.map_eq_some_iff.mp hread
  rw [Decimal.isNegative_toFloat]
  exact Decimal.negative_of_unsigned? hd

theorem isNumeral_map_toUpper (cs : List Char) : isNumeral (cs.map Char.toUpper) = isNumeral cs := by
  have hhead : (cs.map Char.toUpper).head?.any (fun c => c == '.' || c.isDigit) =
      cs.head?.any (fun c => c == '.' || c.isDigit) := by
    cases cs with
    | nil => rfl
    | cons c rest =>
      have hpoint : (c.toUpper == '.') = (c == '.') := by
        rw [Bool.eq_iff_iff, beq_iff_eq, beq_iff_eq]
        exact Text.toUpper_eq_iff (by decide)
      rw [List.map_cons, List.head?_cons, List.head?_cons, Option.any_some, Option.any_some, hpoint,
        Text.isDigit_toUpper]
  rw [isNumeral, isNumeral, hhead, numberLength_map_toUpper, List.length_map]
  cases hnumeral : cs.head?.any (fun c => c == '.' || c.isDigit) with
  | false => rfl
  | true =>
    rw [readFloat?_of_isNumeral (hhead.trans hnumeral), readFloat?_of_isNumeral hnumeral,
      Decimal.unsigned?_map_toUpper]

theorem isName_map_toUpper (cs : List Char) : isName (cs.map Char.toUpper) = isName cs := by
  cases cs with
  | nil => rfl
  | cons c rest =>
    rw [List.map_cons, isName, isName, isNameStart_toUpper, Text.all_map_toUpper isNamePart_toUpper]

theorem isPart_map_toUpper (cs : List Char) : isPart (cs.map Char.toUpper) = isPart cs := by
  rw [isPart, isPart, isName_map_toUpper, isNumeral_map_toUpper]

end Lexer

end Recalc
