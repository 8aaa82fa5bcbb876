/-
Recalc/Proofs/Formula/Lexer.lean

What tokens are spelt like.  A name starts with a name character that is no digit and goes
on with name characters; a numeral is all of what the lexer takes for a number and reads as
one.  Every token of a text is spelt so (`spelt_scan`), whatever the text is.

Design.  `Munched` says once in which ways a token is read.  What holds of every token, here
and in `Tiling`, goes by its cases and does not open `munch` again.
-/
import Recalc.Proofs.Text.Character
import Mathlib.Data.List.TakeWhile

namespace Recalc

namespace Lexer

/-! ### Spellings -/

/-- The characters make a name. -/
def isName : List Char → Bool
  | [] => false
  | c :: rest => isNameStart c && rest.all isNamePart

/-- The characters make a number. -/
def isNumeral (cs : List Char) : Bool :=
  cs.head?.any (fun c => c == '.' || c.isDigit) && numberLength false false cs == cs.length &&
    (readFloat? (String.ofList cs)).isSome

end Lexer

/-- The token has the spelling of its kind. -/
def TokenKind.Spelt : TokenKind → Prop
  | .number x spelling => Lexer.isNumeral spelling.toList = true ∧ readFloat? spelling = some x
  | .identifier name => Lexer.isName name.toList = true
  | .cell address =>
    Lexer.isName address.toList = true ∧ address.toList.any Char.isDigit = true
  | .error f => f ∈ Fault.spelled
  | _ => True

namespace Lexer

variable {c : Char} {cs rest : List Char} {kind : TokenKind} {n : Nat}

theorem numberLength_le (point exponent : Bool) (cs : List Char) :
    numberLength point exponent cs ≤ cs.length := by
  fun_induction numberLength point exponent cs <;> simp_all <;> omega

theorem numberLength_digit (point exponent : Bool) (h : c.isDigit = true) :
    numberLength point exponent (c :: rest) = numberLength point exponent rest + 1 := by
  rw [numberLength.eq_def]
  simp only [if_pos h, Nat.add_comm]

theorem numberLength_point {point exponent : Bool} (h : ¬c.isDigit = true)
    (hp : c = '.' ∧ ¬point = true ∧ ¬exponent = true) :
    numberLength point exponent (c :: rest) = numberLength true exponent rest + 1 := by
  rw [numberLength.eq_def]
  simp only [if_neg h, if_pos hp, Nat.add_comm]

theorem numberLength_mark {point exponent : Bool} (h : ¬c.isDigit = true)
    (hp : ¬(c = '.' ∧ ¬point = true ∧ ¬exponent = true))
    (he : (c = 'e' ∨ c = 'E') ∧ ¬exponent = true) (s : Char) (tail : List Char) :
    numberLength point exponent (c :: s :: tail) =
      if s = '+' ∨ s = '-' then
        if tail.head?.any Char.isDigit then 2 + numberLength point true tail else 0
      else if s.isDigit then 1 + numberLength point true (s :: tail) else 0 := by
  rw [numberLength.eq_def]
  simp only [if_neg h, if_neg hp, if_pos he]

/-- What follows does not go on with a number. -/
def endsNumber (cs : List Char) : Bool :=
  !(cs.head?.any fun d => d.isDigit || d == '.' || d == 'e' || d == 'E')

theorem numberLength_of_endsNumber (point exponent : Bool) (h : endsNumber cs = true) :
    numberLength point exponent cs = 0 := by
  cases cs with
  | nil => rfl
  | cons d rest =>
    simp only [endsNumber, List.head?_cons, Option.any_some, Bool.not_eq_true', Bool.or_eq_false_iff,
      beq_eq_false_iff_ne] at h
    rw [numberLength.eq_def]
    simp [h.1.1.1, h.1.1.2, h.1.2, h.2]

/-- A number keeps its length if something else follows that does not go on with it. -/
theorem numberLength_take_append (point exponent : Bool) (cs : List Char) {more : List Char}
    (h : endsNumber more = true) :
    numberLength point exponent (cs.take (numberLength point exponent cs) ++ more) =
      numberLength point exponent cs := by
  fun_induction numberLength point exponent cs with
  | case2 point exponent c rest hc ih =>
    rw [Nat.add_comm, List.take_succ_cons, List.cons_append, numberLength_digit _ _ hc, ih]
  | case3 point exponent c rest hc hp ih =>
    rw [Nat.add_comm, List.take_succ_cons, List.cons_append, numberLength_point hc hp, ih]
  | case5 point exponent c hc hp he s tail hs hd ih =>
    -- the digit behind the sign is part of the number
    have hhead : ((tail.take (numberLength point true tail)) ++ more).head?.any Char.isDigit = true := by
      cases tail with
      | nil => cases hd
      | cons d rest =>
        have hdigit : d.isDigit = true := hd
        rw [numberLength_digit _ _ hdigit, List.take_succ_cons]
        exact hdigit
    rw [Nat.add_comm, List.take_succ_cons, List.take_succ_cons, List.cons_append, List.cons_append,
      numberLength_mark hc hp he, if_pos hs, if_pos hhead, ih, Nat.add_comm]
  | case7 point exponent c hc hp he s tail hs hd ih =>
    rw [numberLength_digit _ _ hd, List.take_succ_cons, List.cons_append] at ih
    rw [numberLength_digit _ _ hd, Nat.add_comm, List.take_succ_cons, List.take_succ_cons,
      List.cons_append, List.cons_append, numberLength_mark hc hp he, if_neg hs, if_pos hd, ih,
      Nat.add_comm]
  | _ => exact numberLength_of_endsNumber _ _ h

/-! ### Names and cells -/

theorem take_length_takeWhile (p : Char → Bool) (cs : List Char) :
    cs.take (cs.takeWhile p).length = cs.takeWhile p :=
  (List.prefix_iff_eq_take.mp (List.takeWhile_prefix p)).symm

theorem take_anchorLength (cs : List Char) :
    cs.take (anchorLength cs) = [] ∨ cs.take (anchorLength cs) = ['$'] := by
  unfold anchorLength
  split
  · exact .inr rfl
  · exact .inl rfl

/-- An address is an anchor or none, letters, an anchor or none, and digits. -/
theorem take_addressLength (h : 0 < addressLength cs) :
    ∃ a l b d, cs.take (addressLength cs) = a ++ (l ++ (b ++ d)) ∧ (a = [] ∨ a = ['$']) ∧
      (b = [] ∨ b = ['$']) ∧ l ≠ [] ∧ d ≠ [] ∧ (∀ x ∈ l, x.isAlpha = true) ∧
      ∀ x ∈ d, x.isDigit = true := by
  unfold addressLength at h ⊢
  extract_lets body letters tail digits at h
  have hparts : 0 < letters ∧ 0 < digits := by
    split at h
    · assumption
    · cases h
  refine ⟨cs.take (anchorLength cs), body.takeWhile Char.isAlpha, tail.take (anchorLength tail),
    (tail.drop (anchorLength tail)).takeWhile Char.isDigit, ?_, take_anchorLength cs,
    take_anchorLength tail, List.length_pos_iff.mp hparts.1, List.length_pos_iff.mp hparts.2,
    fun x => List.mem_takeWhile_imp, fun x => List.mem_takeWhile_imp⟩
  rw [if_pos hparts, Nat.add_assoc, Nat.add_assoc, List.take_add, List.take_add, List.take_add,
    take_length_takeWhile, take_length_takeWhile]

/-- The text of an address is a name. -/
theorem isName_take_addressLength (h : 0 < addressLength cs) :
    isName (cs.take (addressLength cs)) = true := by
  obtain ⟨a, l, b, d, heq, ha, hb, hl, hd, hletters, hdigits⟩ := take_addressLength h
  have hanchor : ∀ x ∈ b, isNamePart x = true := by
    rcases hb with rfl | rfl
    · simp
    · exact List.forall_mem_singleton.mpr rfl
  have hrest : ∀ x ∈ l ++ (b ++ d), isNamePart x = true := by
    simp only [List.mem_append]
    rintro x (hx | hx | hx)
    · exact isNamePart_of_isNameStart (isNameStart_of_isAlpha (hletters x hx))
    · exact hanchor x hx
    · exact isNamePart_of_isDigit (hdigits x hx)
  rw [heq]
  rcases ha with rfl | rfl
  · cases l with
    | nil => exact absurd rfl hl
    | cons x xs =>
      rw [List.nil_append, List.cons_append, isName, Bool.and_eq_true, List.all_eq_true]
      exact ⟨isNameStart_of_isAlpha (hletters x List.mem_cons_self),
        fun y hy => hrest y (List.mem_cons_of_mem _ hy)⟩
  · rw [List.singleton_append, isName, Bool.and_eq_true, List.all_eq_true]
    exact ⟨rfl, hrest⟩

theorem spelt_name (h : isNameStart c = true) : (name c rest).1.Spelt := by
  unfold name
  split
  case h_1 text length hcell =>
    unfold cell? at hcell
    extract_lets len spelling ended at hcell
    split at hcell
    case isTrue hok =>
      obtain ⟨rfl, rfl⟩ := Prod.mk.inj (Option.some.inj hcell)
      have hdigit : (List.take (addressLength (c :: rest)) (c :: rest)).any Char.isDigit = true := by
        obtain ⟨a, l, b, d, heq, -, -, -, hd, -, hdigits⟩ := take_addressLength hok.1
        obtain ⟨x, hx⟩ := List.exists_mem_of_ne_nil d hd
        exact List.any_eq_true.mpr ⟨x, by simp [heq, hx], hdigits x hx⟩
      show isName (String.ofList _).toList = true ∧ (String.ofList _).toList.any Char.isDigit = true
      rw [String.toList_ofList]
      exact ⟨isName_take_addressLength hok.1, hdigit⟩
    case isFalse => cases hcell
  case h_2 =>
    show isName (String.ofList _).toList = true
    rw [String.toList_ofList, isName, h, Bool.true_and, List.all_eq_true]
    exact fun x hx => List.mem_takeWhile_imp hx

/-! ### Numbers and faults -/

theorem numberLength_pos (hc : c = '.' ∨ c.isDigit = true) :
    0 < numberLength false false (c :: rest) := by
  by_cases hdigit : c.isDigit = true
  · rw [numberLength_digit _ _ hdigit]
    exact Nat.succ_pos _
  · rw [numberLength_point hdigit ⟨hc.resolve_right hdigit, by simp⟩]
    exact Nat.succ_pos _

theorem spelt_number (hc : c = '.' ∨ c.isDigit = true) (h : number c rest = .ok (kind, n)) :
    kind.Spelt := by
  unfold number at h
  extract_lets length spelling at h
  split at h
  case h_1 x hread =>
    obtain ⟨rfl, -⟩ := Prod.mk.inj (Except.ok.inj h)
    have hchars : spelling.toList = (c :: rest).take length := String.toList_ofList
    have hwhole : numberLength false false ((c :: rest).take length) = length := by
      have htake := numberLength_take_append false false (c :: rest) (show endsNumber [] = true from rfl)
      rwa [List.append_nil] at htake
    have hlength : ((c :: rest).take length).length = length :=
      List.length_take_of_le (numberLength_le _ _ _)
    have hpos : 0 < length := numberLength_pos hc
    obtain ⟨k, hk⟩ := Nat.exists_eq_succ_of_ne_zero hpos.ne'
    have hhead : ((c :: rest).take length).head?.any (fun d => d == '.' || d.isDigit) = true := by
      rw [show length = k + 1 from hk, List.take_succ_cons, List.head?_cons, Option.any_some,
        Bool.or_eq_true, beq_iff_eq]
      exact hc
    refine ⟨?_, hread⟩
    rw [isNumeral, String.ofList_toList, hread, hchars, hhead, hwhole, hlength]
    simp
  case h_2 => cases h

theorem spelt_errorLiteral (h : errorLiteral cs = .ok (kind, n)) : kind.Spelt := by
  unfold errorLiteral at h
  extract_lets upper at h
  split at h
  case h_1 f hfind =>
    obtain ⟨rfl, -⟩ := Prod.mk.inj (Except.ok.inj h)
    exact List.mem_of_find?_eq_some hfind
  case h_2 => cases h

theorem spelt_single? (h : single? c = some kind) : kind.Spelt := by
  unfold single? at h
  split at h <;> first | (obtain rfl := Option.some.inj h; trivial) | cases h

/-- The ways in which a token is read, by its first character. -/
inductive Munched : Char → List Char → TokenKind → Nat → Prop
  | single {c : Char} {rest : List Char} {kind : TokenKind} (h : single? c = some kind) :
      Munched c rest kind 0
  | less (rest : List Char) : Munched '<' rest .less 0
  | lessEqual (rest : List Char) : Munched '<' ('=' :: rest) .lessEqual 1
  | notEqual (rest : List Char) : Munched '<' ('>' :: rest) .notEqual 1
  | greater (rest : List Char) : Munched '>' rest .greater 0
  | greaterEqual (rest : List Char) : Munched '>' ('=' :: rest) .greaterEqual 1
  | text {rest s : List Char} {n : Nat} (h : quoted? '"' rest = some (s, n)) :
      Munched '"' rest (.text (String.ofList s)) n
  | sheetName {rest s : List Char} {n : Nat} (h : quoted? '\'' rest = some (s, n)) :
      Munched '\'' rest (.sheetName (String.ofList s)) n
  | error {rest : List Char} {kind : TokenKind} {n : Nat}
      (h : errorLiteral ('#' :: rest) = .ok (kind, n)) : Munched '#' rest kind n
  | number {c : Char} {rest : List Char} {kind : TokenKind} {n : Nat}
      (hc : c = '.' ∨ c.isDigit = true) (h : number c rest = .ok (kind, n)) :
      Munched c rest kind n
  | name {c : Char} (rest : List Char) (hc : isNameStart c = true) :
      Munched c rest (name c rest).1 (name c rest).2

theorem munched_of_munch (h : munch c rest = .ok (kind, n)) : Munched c rest kind n := by
  unfold munch at h
  split at h
  case h_1 k hsingle =>
    obtain ⟨rfl, rfl⟩ := Prod.mk.inj (Except.ok.inj h)
    exact .single hsingle
  case h_2 =>
    split at h
    case isTrue hless =>
      subst hless
      split at h
      case h_1 hnext =>
        obtain ⟨rfl, rfl⟩ := Prod.mk.inj (Except.ok.inj h)
        obtain ⟨rest, rfl⟩ := List.head?_eq_some_iff.mp hnext
        exact .lessEqual rest
      case h_2 hnext =>
        obtain ⟨rfl, rfl⟩ := Prod.mk.inj (Except.ok.inj h)
        obtain ⟨rest, rfl⟩ := List.head?_eq_some_iff.mp hnext
        exact .notEqual rest
      case h_3 =>
        obtain ⟨rfl, rfl⟩ := Prod.mk.inj (Except.ok.inj h)
        exact .less rest
    split at h
    case isTrue hgreater =>
      subst hgreater
      split at h
      case h_1 hnext =>
        obtain ⟨rfl, rfl⟩ := Prod.mk.inj (Except.ok.inj h)
        obtain ⟨rest, rfl⟩ := List.head?_eq_some_iff.mp hnext
        exact .greaterEqual rest
      case h_2 =>
        obtain ⟨rfl, rfl⟩ := Prod.mk.inj (Except.ok.inj h)
        exact .greater rest
    split at h
    case isTrue hquote =>
      subst hquote
      split at h
      case h_1 s m hquoted =>
        obtain ⟨rfl, rfl⟩ := Prod.mk.inj (Except.ok.inj h)
        exact .text hquoted
      case h_2 => cases h
    split at h
    case isTrue hquote =>
      subst hquote
      split at h
      case h_1 s m hquoted =>
        obtain ⟨rfl, rfl⟩ := Prod.mk.inj (Except.ok.inj h)
        exact .sheetName hquoted
      case h_2 => cases h
    split at h
    case isTrue hhash =>
      subst hhash
      exact .error h
    split at h
    case isTrue hc => exact .number hc h
    split at h
    case isTrue hc =>
      have hname : name c rest = (kind, n) := Except.ok.inj h
      have hread := Munched.name rest hc
      rwa [hname] at hread
    case isFalse => cases h

theorem Munched.spelt (h : Munched c rest kind n) : kind.Spelt := by
  cases h with
  | single h => exact spelt_single? h
  | error h => exact spelt_errorLiteral h
  | number hc h => exact spelt_number hc h
  | name _ hc => exact spelt_name hc
  | _ => trivial

/-- **Every token is spelt like its kind.** -/
theorem spelt_scan {taken pos : Nat} {ts : List Token} (h : scan taken pos cs = .ok ts) :
    ∀ t ∈ ts, t.kind.Spelt := by
  induction cs generalizing taken pos ts with
  | nil =>
    rw [scan] at h
    obtain rfl := Except.ok.inj h
    simp [TokenKind.Spelt]
  | cons c rest ih =>
    cases taken with
    | succ taken =>
      rw [scan] at h
      exact ih h
    | zero =>
      rw [scan] at h
      split at h
      · exact ih h
      · split at h
        case h_1 kind more hmunch =>
          cases hscan : scan more (pos + 1) rest with
          | error e =>
            rw [hscan] at h
            cases h
          | ok tokens =>
            rw [hscan] at h
            obtain rfl := Except.ok.inj h
            intro t ht
            rcases List.mem_cons.mp ht with rfl | ht
            · exact (munched_of_munch hmunch).spelt
            · exact ih hscan t ht
        case h_2 => cases h

end Lexer

end Recalc
