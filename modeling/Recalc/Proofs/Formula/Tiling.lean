/-
Recalc/Proofs/Formula/Tiling.lean

Tokens tile the text.  Every token covers some characters, the characters that spell it, and
between the tokens stand blanks only:

    text = blanks ++ piece ++ blanks ++ piece ++ … ++ blanks.

`Tiles` says so; that tokens stand in order, that none of them is empty but the last, and that
the last one is the only end and stands behind the text, is read off it.

Design.  A token is made by `munch`, which looks ahead and may give up a reading for another
one, and `scan` passes over as many characters as `munch` says.  So all that tiling needs is
that `munch` never says more than there are, and that what it says is the text of its token
(`Munched.takes`): one lemma for each kind of token.
-/
import Recalc.Proofs.Formula.Lexing

namespace Recalc

/-- The characters are the text of the token. -/
def TokenKind.Covers : TokenKind → List Char → Prop
  | .number _ spelling, cs => cs = spelling.toList
  | .text s, cs => cs = (Expr.quotedText s).toList
  | .identifier name, cs => cs = name.toList
  | .sheetName name, cs => cs = '\'' :: SheetName.doubleQuotes name.toList ++ ['\'']
  | .error f, cs => cs.map Char.toUpper = f.label.toList
  | .cell address, cs => cs = address.toList
  | .leftParen, cs => cs = ['(']
  | .rightParen, cs => cs = [')']
  | .leftBrace, cs => cs = ['\x7b']
  | .rightBrace, cs => cs = ['\x7d']
  | .comma, cs => cs = [',']
  | .semicolon, cs => cs = [';']
  | .plus, cs => cs = ['+']
  | .minus, cs => cs = ['-']
  | .star, cs => cs = ['*']
  | .slash, cs => cs = ['/']
  | .caret, cs => cs = ['^']
  | .ampersand, cs => cs = ['&']
  | .percent, cs => cs = ['%']
  | .equal, cs => cs = ['=']
  | .notEqual, cs => cs = ['<', '>']
  | .less, cs => cs = ['<']
  | .lessEqual, cs => cs = ['<', '=']
  | .greater, cs => cs = ['>']
  | .greaterEqual, cs => cs = ['>', '=']
  | .colon, cs => cs = [':']
  | .bang, cs => cs = ['!']
  | .eof, cs => cs = []

/-- The text from the `pos`-th character of a formula on is made of the pieces of the tokens and
of blanks between them. -/
inductive Tiles : Nat → List Char → List Token → Prop
  | stop (pos : Nat) : Tiles pos [] [⟨.eof, pos, 0⟩]
  | blank {pos : Nat} {c : Char} {cs : List Char} {ts : List Token}
      (hblank : Text.isBlank c = true) (h : Tiles (pos + 1) cs ts) : Tiles pos (c :: cs) ts
  | token {pos : Nat} {kind : TokenKind} {piece cs : List Char} {ts : List Token}
      (hkind : kind ≠ .eof) (hpiece : piece ≠ []) (hcovers : kind.Covers piece)
      (h : Tiles (pos + piece.length) cs ts) :
      Tiles pos (piece ++ cs) (⟨kind, pos, piece.length⟩ :: ts)

namespace Lexer

variable {c : Char} {cs rest : List Char} {kind : TokenKind} {n : Nat}

/-! ### The text of a token -/

/-- The token that starts with `c` takes that many of the characters behind it for its text. -/
structure Takes (c : Char) (rest : List Char) (kind : TokenKind) (n : Nat) : Prop where
  le_length : n ≤ rest.length
  ne_eof : kind ≠ .eof
  covers : kind.Covers (c :: rest.take n)

/-- A text in front, given by its length. -/
theorem Takes.of_take {length : Nat} (hpos : 0 < length) (hle : length ≤ (c :: rest).length)
    (hkind : kind ≠ .eof) (hcovers : kind.Covers ((c :: rest).take length)) :
    Takes c rest kind (length - 1) := by
  obtain ⟨k, rfl⟩ := Nat.exists_eq_succ_of_ne_zero hpos.ne'
  exact ⟨Nat.le_of_succ_le_succ hle, hkind, hcovers⟩

theorem takes_single? (h : single? c = some kind) : Takes c rest kind 0 := by
  unfold single? at h
  split at h
  case h_17 => cases h
  all_goals
    obtain rfl := Option.some.inj h
    exact ⟨Nat.zero_le _, by simp, rfl⟩

/-- A quoted text ends with its quote, and the quotes before that are doubled. -/
theorem take_of_quoted? {quote : Char} {s : List Char} (h : quoted? quote rest = some (s, n)) :
    n ≤ rest.length ∧
      rest.take n = s.flatMap (fun c => if c = quote then [quote, quote] else [c]) ++ [quote] := by
  fun_induction quoted? quote rest generalizing s n with
  | case1 => cases h
  | case2 =>
    obtain ⟨rfl, rfl⟩ := Prod.mk.inj (Option.some.inj h)
    exact ⟨Nat.le_refl _, rfl⟩
  | case3 => cases h
  | case4 rest ih =>
    obtain ⟨⟨s, n⟩, hrest, heq⟩ := Option.map_eq_some_iff.mp h
    obtain ⟨rfl, rfl⟩ := Prod.mk.inj heq
    obtain ⟨hle, htake⟩ := ih hrest
    refine ⟨by simpa using hle, ?_⟩
    simp [htake]
  | case5 d rest hd =>
    obtain ⟨rfl, rfl⟩ := Prod.mk.inj (Option.some.inj h)
    exact ⟨by simp, rfl⟩
  | case6 c d rest hc ih =>
    obtain ⟨⟨s, n⟩, hrest, heq⟩ := Option.map_eq_some_iff.mp h
    obtain ⟨rfl, rfl⟩ := Prod.mk.inj heq
    obtain ⟨hle, htake⟩ := ih hrest
    refine ⟨by simpa using hle, ?_⟩
    simp [htake, hc]

theorem takes_text {s : List Char} (h : quoted? '"' rest = some (s, n)) :
    Takes '"' rest (.text (String.ofList s)) n := by
  obtain ⟨hle, htake⟩ := take_of_quoted? h
  refine ⟨hle, by simp, ?_⟩
  show '"' :: rest.take n = (Expr.quotedText (String.ofList s)).toList
  rw [htake, Expr.quotedText, String.toList_ofList, String.toList_ofList]
  rfl

theorem takes_sheetName {s : List Char} (h : quoted? '\'' rest = some (s, n)) :
    Takes '\'' rest (.sheetName (String.ofList s)) n := by
  obtain ⟨hle, htake⟩ := take_of_quoted? h
  refine ⟨hle, by simp, ?_⟩
  show '\'' :: rest.take n = '\'' :: SheetName.doubleQuotes (String.ofList s).toList ++ ['\'']
  rw [htake, SheetName.doubleQuotes, String.toList_ofList]
  rfl

theorem takes_errorLiteral (h : errorLiteral (c :: rest) = .ok (kind, n)) :
    Takes c rest kind n := by
  unfold errorLiteral at h
  extract_lets upper at h
  split at h
  case h_1 f hfind =>
    obtain ⟨rfl, rfl⟩ := Prod.mk.inj (Except.ok.inj h)
    have hfound := List.find?_some hfind
    have hstarts : f.label.toList <+: (c :: rest).map Char.toUpper :=
      List.isPrefixOf_iff_prefix.mp hfound
    have hlength : f.label.toList.length = f.label.length := String.length_toList
    have hle := hstarts.length_le
    rw [List.length_map, hlength] at hle
    refine .of_take ?_ hle (by simp) ?_
    · cases f <;> decide
    · show ((c :: rest).take f.label.length).map Char.toUpper = f.label.toList
      rw [List.map_take, ← hlength]
      exact (List.prefix_iff_eq_take.mp hstarts).symm
  case h_2 => cases h

theorem takes_number (hc : c = '.' ∨ c.isDigit = true) (h : number c rest = .ok (kind, n)) :
    Takes c rest kind n := by
  unfold number at h
  extract_lets length spelling at h
  split at h
  case h_1 x hread =>
    obtain ⟨rfl, rfl⟩ := Prod.mk.inj (Except.ok.inj h)
    refine .of_take (numberLength_pos hc) (numberLength_le _ _ _) (by simp) ?_
    show (c :: rest).take length = spelling.toList
    rw [String.toList_ofList]
  case h_2 => cases h

theorem takes_name (c : Char) (rest : List Char) :
    Takes c rest (name c rest).1 (name c rest).2 := by
  unfold name
  split
  case h_1 text length hcell =>
    unfold cell? at hcell
    extract_lets len spelling ended at hcell
    split at hcell
    case isTrue hok =>
      obtain ⟨rfl, rfl⟩ := Prod.mk.inj (Option.some.inj hcell)
      refine .of_take hok.1 (addressLength_le _) (by simp) ?_
      show (c :: rest).take len = spelling.toList
      rw [String.toList_ofList]
    case isFalse => cases hcell
  case h_2 =>
    refine ⟨(List.takeWhile_prefix _).length_le, by simp, ?_⟩
    show c :: rest.take (rest.takeWhile isNamePart).length = (String.ofList _).toList
    rw [take_length_takeWhile, String.toList_ofList]

/-- **What is read for a token is its text.** -/
theorem Munched.takes (h : Munched c rest kind n) : Takes c rest kind n := by
  cases h with
  | single h => exact takes_single? h
  | less | greater => exact ⟨Nat.zero_le _, by simp, rfl⟩
  | lessEqual | notEqual | greaterEqual => exact ⟨by simp, by simp, rfl⟩
  | text h => exact takes_text h
  | sheetName h => exact takes_sheetName h
  | error h => exact takes_errorLiteral h
  | number hc h => exact takes_number hc h
  | name => exact takes_name c rest

/-! ### Tiling -/

/-- **Tokens and blanks tile the text** behind the characters that are taken already. -/
theorem tiles_scan {taken pos : Nat} {ts : List Token} (htaken : taken ≤ cs.length)
    (h : scan taken pos cs = .ok ts) : Tiles (pos + taken) (cs.drop taken) ts := by
  induction cs generalizing taken pos ts with
  | nil =>
    obtain rfl : taken = 0 := Nat.le_zero.mp htaken
    rw [scan] at h
    obtain rfl := Except.ok.inj h
    exact .stop pos
  | cons c rest ih =>
    cases taken with
    | succ taken =>
      rw [scan] at h
      have htiles := ih (Nat.le_of_succ_le_succ htaken) h
      rwa [Nat.add_assoc, Nat.add_comm 1] at htiles
    | zero =>
      rw [scan] at h
      split at h
      case isTrue hblank => exact .blank hblank (ih (Nat.zero_le _) h)
      case isFalse =>
        split at h
        case h_1 kind more hmunch =>
          obtain ⟨tokens, hscan, h⟩ := Parser.ok_of_bind h
          obtain rfl := Except.ok.inj h
          obtain ⟨hle, hkind, hcovers⟩ := (munched_of_munch hmunch).takes
          have hlength : (c :: rest.take more).length = more + 1 := by
            rw [List.length_cons, List.length_take_of_le hle]
          have htiles := ih hle hscan
          rw [Nat.add_assoc, Nat.add_comm 1, ← hlength] at htiles
          have htoken := Tiles.token hkind (List.cons_ne_nil _ _) hcovers htiles
          rwa [List.cons_append, List.take_append_drop, hlength] at htoken
        case h_2 => cases h

end Lexer

namespace Tiles

variable {pos : Nat} {cs : List Char} {ts : List Token}

theorem le_pos (h : Tiles pos cs ts) : ∀ t ∈ ts, pos ≤ t.pos := by
  induction h with
  | stop pos =>
    intro t ht
    rw [List.mem_singleton.mp ht]
  | blank _ _ ih =>
    intro t ht
    exact Nat.le_of_succ_le (ih t ht)
  | token _ _ _ _ ih =>
    intro t ht
    rcases List.mem_cons.mp ht with rfl | ht
    · exact Nat.le_refl _
    · exact Nat.le_trans (Nat.le_add_right _ _) (ih t ht)

/-- Tokens stand one behind the other. -/
theorem pairwise_pos (h : Tiles pos cs ts) : ts.Pairwise fun t u => t.pos < u.pos := by
  induction h with
  | stop pos => exact List.pairwise_singleton _ _
  | blank _ _ ih => exact ih
  | @token pos _ piece _ _ _ hpiece _ h ih =>
    refine List.pairwise_cons.mpr ⟨fun u hu => ?_, ih⟩
    have hlength := List.length_pos_iff.mpr hpiece
    have hle := h.le_pos u hu
    show pos < u.pos
    omega

/-- The last token is the only end of the formula, and the only one that covers nothing. -/
theorem exists_stop (h : Tiles pos cs ts) :
    ∃ before, ts = before ++ [⟨.eof, pos + cs.length, 0⟩] ∧
      ∀ t ∈ before, t.kind ≠ .eof ∧ 0 < t.length := by
  induction h with
  | stop pos => exact ⟨[], rfl, by simp⟩
  | blank _ _ ih =>
    obtain ⟨before, rfl, hbefore⟩ := ih
    refine ⟨before, ?_, hbefore⟩
    rw [List.length_cons, Nat.add_assoc, Nat.add_comm 1]
  | @token pos kind piece _ _ hkind hpiece _ _ ih =>
    obtain ⟨before, rfl, hbefore⟩ := ih
    refine ⟨⟨kind, pos, piece.length⟩ :: before, ?_, ?_⟩
    · rw [List.length_append, Nat.add_assoc]
      rfl
    · intro t ht
      rcases List.mem_cons.mp ht with rfl | ht
      · exact ⟨hkind, List.length_pos_iff.mpr hpiece⟩
      · exact hbefore t ht

end Tiles

end Recalc
