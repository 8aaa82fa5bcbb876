/-
Recalc/Proofs/Number/Literal.lean

Numbers that formulas spell.  A number is spelt by digits with at most one point between
them, behind a sign if it is negative, and what is spelt reads back as the same number
(`literalNumber_spelling`), whether the text is the displayed one or the shortest one.

Design.  Decimals are compared by their values: the nearest double depends on the sign and
the value alone (`toFloat_congr`), so it does not matter how zeros and the point are laid
out.  That the shortest decimal reads back holds by the search that finds it, and for the
exact value, which stands in if the search finds nothing, by `ofRatio_parts`.
-/
import Recalc.Number.Display
import Recalc.Proofs.Number.Bits
import Recalc.Proofs.Text.Character

namespace Recalc

open Binary64

/-! ### The value of a decimal -/

namespace Decimal

variable {d d' : Decimal}

/-- The magnitude of a decimal. -/
def value (d : Decimal) : ℚ := d.digits * 10 ^ d.scale

/-- The magnitude as a quotient of naturals. -/
def ratio (d : Decimal) : Nat × Nat :=
  if 0 ≤ d.scale then (d.digits * Nat.pow 10 d.scale.toNat, 1)
  else (d.digits, Nat.pow 10 (-d.scale).toNat)

/-- The place of the leading digit, counted from the point. -/
def places (d : Decimal) : Int := (digitCount d.digits : Int) + d.scale

theorem ratio_pos (d : Decimal) : 0 < d.ratio.2 := by
  unfold ratio
  split
  · exact Nat.one_pos
  · exact Nat.pow_pos (by decide)

theorem ratio_eq (d : Decimal) : (d.ratio.1 / d.ratio.2 : ℚ) = d.value := by
  unfold ratio value
  split
  case isTrue hs =>
    obtain ⟨k, hk⟩ := Int.eq_ofNat_of_zero_le hs
    rw [hk, Int.toNat_natCast, zpow_natCast]
    push_cast
    rw [div_one]
    norm_cast
  case isFalse hs =>
    obtain ⟨k, hk⟩ := Int.eq_ofNat_of_zero_le (by omega : 0 ≤ -d.scale)
    rw [hk, Int.toNat_natCast, show d.scale = -k by omega, zpow_neg, zpow_natCast, div_eq_mul_inv]
    norm_cast

theorem value_eq_zero_iff : d.value = 0 ↔ d.digits = 0 := by
  rw [value, mul_eq_zero, Nat.cast_eq_zero, or_iff_left]
  positivity

/-- The leading digit bounds the value. -/
theorem value_bounds (h : d.digits ≠ 0) :
    (10 : ℚ) ^ (d.places - 1) ≤ d.value ∧ d.value < 10 ^ d.places := by
  have hpos : 0 < digitCount d.digits := List.length_pos_iff.mpr Nat.toDigits_ne_nil
  have hscale : (0 : ℚ) < 10 ^ d.scale := by positivity
  have hhigh : d.digits < 10 ^ digitCount d.digits :=
    (Nat.length_toDigits_le_iff (by decide) hpos).mp (le_refl _)
  have hlow : 10 ^ (digitCount d.digits - 1) ≤ d.digits := by
    rcases Nat.eq_zero_or_pos (digitCount d.digits - 1) with hone | hmore
    · rw [hone]
      exact Nat.pos_of_ne_zero h
    · refine Nat.le_of_not_lt fun hlt => ?_
      have := (Nat.length_toDigits_le_iff (by decide) hmore).mpr hlt
      rw [digitCount] at this hpos
      omega
  constructor
  · rw [value, places, show (digitCount d.digits : Int) + d.scale - 1 =
      ((digitCount d.digits - 1 : Nat) : Int) + d.scale by omega, zpow_add₀ (by norm_num),
      zpow_natCast]
    refine mul_le_mul_of_nonneg_right ?_ hscale.le
    exact_mod_cast hlow
  · rw [value, places, zpow_add₀ (by norm_num), zpow_natCast]
    refine mul_lt_mul_of_pos_right ?_ hscale
    exact_mod_cast hhigh

theorem places_lt_of_lt {k : Int} (h : d.digits ≠ 0) (hlt : d.value < 10 ^ k) : d.places ≤ k := by
  have := (zpow_lt_zpow_iff_right₀ (by norm_num : (1 : ℚ) < 10)).mp ((value_bounds h).1.trans_lt hlt)
  omega

theorem lt_places_of_le {k : Int} (h : d.digits ≠ 0) (hle : (10 : ℚ) ^ k ≤ d.value) :
    k < d.places :=
  (zpow_lt_zpow_iff_right₀ (by norm_num : (1 : ℚ) < 10)).mp (hle.trans_lt (value_bounds h).2)

/-- The place of the leading digit depends on the value alone. -/
theorem places_congr (h : d.digits ≠ 0) (h' : d'.digits ≠ 0) (hv : d.value = d'.value) :
    d.places = d'.places := by
  have hle := places_lt_of_lt h (hv ▸ (value_bounds h').2)
  have hge := places_lt_of_lt h' (hv ▸ (value_bounds h).2)
  omega

theorem toFloat_eq (d : Decimal) : d.toFloat =
    if d.digits = 0 then ofMagnitude d.negative 0
    else if 310 < d.places then ofMagnitude d.negative infinityBits
    else if d.places < -330 then ofMagnitude d.negative 0
    else ofRatio d.negative d.ratio.1 d.ratio.2 := by
  unfold toFloat ratio places
  dsimp only
  split
  · rfl
  · split
    · rfl
    · split
      · rfl
      · split <;> rfl

/-- **The nearest double depends on the sign and the value alone.** -/
theorem toFloat_congr (hn : d.negative = d'.negative) (hv : d.value = d'.value) :
    d.toFloat = d'.toFloat := by
  have hzero : d.digits = 0 ↔ d'.digits = 0 := by
    rw [← value_eq_zero_iff, ← value_eq_zero_iff, hv]
  rw [toFloat_eq, toFloat_eq, hn]
  by_cases h : d.digits = 0
  · rw [if_pos h, if_pos (hzero.mp h)]
  · have h' : d'.digits ≠ 0 := fun h' => h (hzero.mpr h')
    have hratio := (d.ratio_eq.trans hv).trans d'.ratio_eq.symm
    rw [if_neg h, if_neg h', places_congr h h' hv,
      ofRatio_congr_div d'.negative d.ratio_pos d'.ratio_pos hratio]

/-- A sign in front of a decimal is the sign of its double. -/
theorem neg_toFloat (digits : Nat) (scale : Int) :
    -toFloat ⟨false, digits, scale⟩ = toFloat ⟨true, digits, scale⟩ := by
  have hratio (num den : Nat) : -ofRatio false num den = ofRatio true num den := by
    unfold ofRatio
    split <;> exact neg_ofMagnitude _
  unfold toFloat
  dsimp only
  split
  · exact neg_ofMagnitude _
  · split
    · exact neg_ofMagnitude _
    · split
      · exact neg_ofMagnitude _
      · split <;> exact hratio _ _

theorem isNegative_toFloat (d : Decimal) : isNegative d.toFloat = d.negative := by
  have hratio (negative : Bool) (num den : Nat) : isNegative (ofRatio negative num den) = negative := by
    unfold ofRatio
    split <;> exact isNegative_ofMagnitude _ _
  rw [toFloat_eq]
  split
  · exact isNegative_ofMagnitude _ _
  · split
    · exact isNegative_ofMagnitude _ _
    · split
      · exact isNegative_ofMagnitude _ _
      · exact hratio _ _ _

/-- Dropping zeros keeps the sign and the value. -/
theorem value_stripZeros (fuel : Nat) (d : Decimal) :
    (d.stripZeros fuel).negative = d.negative ∧ (d.stripZeros fuel).value = d.value := by
  induction fuel generalizing d with
  | zero => exact ⟨rfl, rfl⟩
  | succ fuel ih =>
    rw [stripZeros]
    split
    case isFalse => exact ⟨rfl, rfl⟩
    case isTrue h =>
      obtain ⟨hn, hv⟩ := ih { d with digits := d.digits / 10, scale := d.scale + 1 }
      refine ⟨hn, hv.trans ?_⟩
      have hdigits : ((d.digits / 10 : Nat) : ℚ) * 10 = d.digits := by
        exact_mod_cast Nat.div_mul_cancel (Nat.dvd_of_mod_eq_zero h.2)
      rw [value, value, zpow_add₀ (by norm_num), zpow_one, ← hdigits]
      ring

end Decimal

/-! ### The shortest decimal -/

theorem value_exactDecimal (p : Parts) :
    (exactDecimal p).negative = p.negative ∧ (exactDecimal p).value = p.mantissa * 2 ^ p.exponent := by
  unfold exactDecimal
  split
  case isTrue he =>
    obtain ⟨k, hk⟩ := Int.eq_ofNat_of_zero_le he
    refine ⟨rfl, ?_⟩
    rw [Decimal.value, hk, Int.toNat_natCast, zpow_natCast, zpow_zero, mul_one]
    norm_cast
  case isFalse he =>
    obtain ⟨k, hk⟩ := Int.eq_ofNat_of_zero_le (by omega : 0 ≤ -p.exponent)
    refine ⟨rfl, ?_⟩
    have hten : (5 : ℚ) ^ k * (10 ^ k)⁻¹ = (2 ^ k)⁻¹ := by
      rw [show (10 : ℚ) = 5 * 2 by norm_num, mul_pow, mul_inv, ← mul_assoc,
        mul_inv_cancel₀ (by positivity), one_mul]
    rw [Decimal.value, hk, Int.toNat_natCast, show p.exponent = -k by omega, zpow_neg, zpow_neg,
      zpow_natCast, zpow_natCast, ← hten]
    push_cast
    rw [mul_assoc]
    norm_cast

/-- No finite double has more than 309 places in front of the point. -/
theorem two_zpow_le_ten_zpow : (2 : ℚ) ^ (53 + 971 : Int) ≤ 10 ^ (309 : Int) := by
  have hpow : (2 : ℚ) ^ 93 ≤ 10 ^ 28 := by norm_num
  calc (2 : ℚ) ^ (53 + 971 : Int) = ((2 ^ 93) ^ 11) * 2 := by
        rw [← pow_mul, ← pow_succ, ← zpow_natCast]
        rfl
    _ ≤ ((10 ^ 28) ^ 11) * 10 := by gcongr; norm_num
    _ = 10 ^ (309 : Int) := by
        rw [← pow_mul, ← pow_succ, ← zpow_natCast]
        rfl

/-- No finite double starts more than 324 places behind it. -/
theorem ten_zpow_le_two_zpow : (10 : ℚ) ^ (-324 : Int) ≤ 2 ^ (-1074 : Int) := by
  have hpow : (2 : ℚ) ^ 93 ≤ 10 ^ 28 := by norm_num
  have hrest : (2 : ℚ) ^ 51 ≤ 10 ^ 16 := by norm_num
  rw [zpow_neg, zpow_neg]
  refine inv_anti₀ (by positivity) ?_
  calc (2 : ℚ) ^ (1074 : Int) = ((2 ^ 93) ^ 11) * 2 ^ 51 := by
        rw [← pow_mul, ← pow_add, ← zpow_natCast]
        rfl
    _ ≤ ((10 ^ 28) ^ 11) * 10 ^ 16 := by gcongr
    _ = 10 ^ (324 : Int) := by
        rw [← pow_mul, ← pow_add, ← zpow_natCast]
        rfl

/-- The exact value of a finite double reads back. -/
theorem toFloat_exactDecimal {x : Float} (h : x.isFinite = true) (hm : (parts x).mantissa ≠ 0) :
    (exactDecimal (parts x)).toFloat = x := by
  obtain ⟨hbounded, -⟩ := bounded_parts h
  obtain ⟨hnegative, hvalue⟩ := value_exactDecimal (parts x)
  have hdigits : (exactDecimal (parts x)).digits ≠ 0 := by
    rw [Ne, ← Decimal.value_eq_zero_iff, hvalue, mul_eq_zero, Nat.cast_eq_zero]
    rintro (hzero | hzero)
    · exact hm hzero
    · exact absurd hzero (by positivity)
  have hplaces : (exactDecimal (parts x)).places ≤ 309 := by
    refine Decimal.places_lt_of_lt hdigits ?_
    refine lt_of_lt_of_le ?_ two_zpow_le_ten_zpow
    rw [hvalue, zpow_add₀ (by norm_num)]
    refine mul_lt_mul ?_ ?_ (by positivity) (by positivity)
    · exact_mod_cast hbounded.mantissa_lt
    · exact zpow_le_zpow_right₀ (by norm_num) hbounded.exponent_le
  have hleast : -324 < (exactDecimal (parts x)).places := by
    refine Decimal.lt_places_of_le hdigits ?_
    refine ten_zpow_le_two_zpow.trans ?_
    have hone : (1 : ℚ) ≤ (parts x).mantissa := by exact_mod_cast Nat.pos_of_ne_zero hm
    calc (2 : ℚ) ^ (-1074 : Int) ≤ 2 ^ (parts x).exponent :=
          zpow_le_zpow_right₀ (by norm_num) hbounded.le_exponent
      _ ≤ (parts x).mantissa * 2 ^ (parts x).exponent :=
          le_mul_of_one_le_left (by positivity) hone
      _ = (exactDecimal (parts x)).value := hvalue.symm
  rw [Decimal.toFloat_eq, if_neg hdigits, if_neg (by omega), if_neg (by omega), hnegative,
    negative_parts]
  have hratio := ((Decimal.ratio_eq _).trans hvalue).trans (parts x).ratio_eq.symm
  rw [ofRatio_congr_div _ (Decimal.ratio_pos _) (parts x).ratio_pos hratio, ofRatio_parts h]

/-- The points on a grid have the sign of the double. -/
theorem negative_of_mem_pointsAround {negative : Bool} {num den : Nat} {scale : Int} {d : Decimal}
    (h : d ∈ pointsAround negative num den scale) : d.negative = negative := by
  unfold pointsAround at h
  dsimp only at h
  split at h
  all_goals
    split at h
    all_goals
      rcases List.mem_cons.mp h with rfl | h
      · rfl
      · rw [List.mem_singleton.mp h]

/-- **The shortest decimal reads back.** -/
theorem shortest_readsBack {x : Float} (h : x.isFinite = true) :
    (shortest x).negative = isNegative x ∧ ((shortest x).toFloat == x) = true := by
  obtain ⟨hbounded, hbits⟩ := bounded_parts h
  have hself := beq_self_of_isFinite h
  unfold shortest
  dsimp only
  split
  case isTrue hzero =>
    have hexponent : (parts x).exponent = -1074 := hbounded.full.resolve_right (by omega)
    have hmagnitude : magnitudeBits x = 0 := by
      rw [← hbits, Parts.bits, hexponent, hzero]
      rfl
    have hx := ofMagnitude_magnitudeBits h
    rw [hmagnitude] at hx
    refine ⟨negative_parts x, ?_⟩
    show (ofMagnitude (parts x).negative 0 == x) = true
    rw [negative_parts, hx]
    exact hself
  case isFalse hm =>
    split
    case h_1 d hd =>
      obtain ⟨i, -, hfind⟩ := List.exists_of_findSome?_eq_some hd
      have hnegative := negative_of_mem_pointsAround (List.mem_of_find?_eq_some hfind)
      have hreads := List.find?_some hfind
      obtain ⟨hn, hv⟩ := Decimal.value_stripZeros 17 d
      refine ⟨hn.trans (hnegative.trans (negative_parts x)), ?_⟩
      rw [Decimal.toFloat_congr hn hv]
      exact hreads
    case h_2 =>
      refine ⟨(value_exactDecimal _).1.trans (negative_parts x), ?_⟩
      rw [toFloat_exactDecimal h hm]
      exact hself

/-! ### Plain numerals -/

/-- Digits, perhaps with a point and more digits. -/
inductive PlainNumeral : List Char → Prop
  | whole {ds : List Char} (hne : ds ≠ []) (hds : ∀ c ∈ ds, c.isDigit = true) : PlainNumeral ds
  | point {ds fs : List Char} (hne : ds ≠ []) (hds : ∀ c ∈ ds, c.isDigit = true) (hfne : fs ≠ [])
      (hfs : ∀ c ∈ fs, c.isDigit = true) : PlainNumeral (ds ++ '.' :: fs)

/-- A text behind a minus sign, if it is to be negative. -/
def signedChars (negative : Bool) (cs : List Char) : List Char :=
  (if negative then ['-'] else []) ++ cs

namespace PlainNumeral

variable {cs : List Char}

theorem head_isDigit (h : PlainNumeral cs) : ∃ c rest, cs = c :: rest ∧ c.isDigit = true := by
  cases h with
  | whole hne hds =>
    obtain ⟨c, rest, rfl⟩ := List.exists_cons_of_ne_nil hne
    exact ⟨c, rest, rfl, hds c List.mem_cons_self⟩
  | point hne hds =>
    obtain ⟨c, rest, rfl⟩ := List.exists_cons_of_ne_nil hne
    exact ⟨c, _, rfl, hds c List.mem_cons_self⟩

end PlainNumeral

namespace Decimal

variable {cs ds fs : List Char}

theorem unsigned?_whole (negative : Bool) (hne : ds ≠ []) (hds : ∀ c ∈ ds, c.isDigit = true) :
    unsigned? negative ds = some ⟨negative, ofDigits ds, 0⟩ := by
  have htake := Text.takeWhile_append_stop hds (r := []) rfl
  have hdrop := Text.dropWhile_append_stop hds (r := []) rfl
  rw [List.append_nil] at htake hdrop
  simp [unsigned?, htake, hdrop, hne, exponent?]

theorem unsigned?_point (negative : Bool) (hne : ds ≠ []) (hds : ∀ c ∈ ds, c.isDigit = true)
    (hfs : ∀ c ∈ fs, c.isDigit = true) :
    unsigned? negative (ds ++ '.' :: fs) = some ⟨negative, ofDigits (ds ++ fs), -fs.length⟩ := by
  have htake := Text.takeWhile_append_stop hds (r := '.' :: fs) rfl
  have hdrop := Text.dropWhile_append_stop hds (r := '.' :: fs) rfl
  have hftake := Text.takeWhile_append_stop hfs (r := []) rfl
  have hfdrop := Text.dropWhile_append_stop hfs (r := []) rfl
  rw [List.append_nil] at hftake hfdrop
  simp [unsigned?, htake, hdrop, hftake, hfdrop, hne, exponent?]

/-- A plain numeral spells a decimal, and the sign in front is the sign of the decimal. -/
theorem exists_unsigned? (h : PlainNumeral cs) :
    ∃ digits scale, ∀ negative, unsigned? negative cs = some ⟨negative, digits, scale⟩ := by
  cases h with
  | whole hne hds => exact ⟨_, _, fun negative => unsigned?_whole negative hne hds⟩
  | point hne hds hfne hfs => exact ⟨_, _, fun negative => unsigned?_point negative hne hds hfs⟩

/-- A numeral is no word: words start with a letter. -/
theorem readChars?_of_splitSign {negative : Bool} {c : Char} {rest : List Char}
    (hsplit : splitSign cs = (negative, c :: rest)) (hc : c = '.' ∨ c.isDigit = true) :
    readChars? cs = (unsigned? negative (c :: rest)).map toFloat := by
  have hlower : c.toLower = c := by
    rcases hc with rfl | hdigit
    · rfl
    · exact Text.toLower_of_isDigit hdigit
  have hword {w : String} {d : Char} (hw : w.toList.head? = some d)
      (hd : ¬(d = '.' ∨ d.isDigit = true)) : ¬String.ofList ((c :: rest).map Char.toLower) = w := by
    rintro rfl
    rw [String.toList_ofList, List.map_cons, List.head?_cons, Option.some.injEq, hlower] at hw
    exact hd (hw ▸ hc)
  unfold readChars?
  rw [hsplit]
  dsimp only
  rw [if_neg (not_or.mpr ⟨hword rfl (by decide), hword rfl (by decide)⟩),
    if_neg (hword rfl (by decide))]

theorem splitSign_of_numeral {c : Char} {rest : List Char} (hc : c = '.' ∨ c.isDigit = true) :
    splitSign (c :: rest) = (false, c :: rest) := by
  rw [splitSign.eq_def]
  split
  case h_1 heq => exact absurd ((List.cons.inj heq).1 ▸ hc) (by decide)
  case h_2 heq => exact absurd ((List.cons.inj heq).1 ▸ hc) (by decide)
  case h_3 => rfl

theorem readChars?_signedChars (h : PlainNumeral cs) {digits : Nat} {scale : Int} {negative : Bool}
    (hread : unsigned? negative cs = some ⟨negative, digits, scale⟩) :
    readChars? (signedChars negative cs) = some (toFloat ⟨negative, digits, scale⟩) := by
  obtain ⟨c, rest, rfl, hc⟩ := h.head_isDigit
  have hsplit : splitSign (signedChars negative (c :: rest)) = (negative, c :: rest) := by
    cases negative with
    | true => rfl
    | false => exact splitSign_of_numeral (.inr hc)
  rw [readChars?_of_splitSign hsplit (.inr hc), hread]
  rfl

end Decimal

/-! ### Layouts -/

section Layout

theorem isDigit_toDigits (n : Nat) : ∀ c ∈ Nat.toDigits 10 n, c.isDigit = true :=
  fun _ hc => Nat.isDigit_of_mem_toDigits (by decide) (by decide) hc

theorem isDigit_replicate (n : Nat) : ∀ c ∈ List.replicate n '0', c.isDigit = true :=
  fun _ hc => List.eq_of_mem_replicate hc ▸ rfl

theorem isDigit_append {l r : List Char} (hl : ∀ c ∈ l, c.isDigit = true)
    (hr : ∀ c ∈ r, c.isDigit = true) : ∀ c ∈ l ++ r, c.isDigit = true :=
  fun c hc => (List.mem_append.mp hc).elim (hl c) (hr c)

theorem ofDigits_toDigits (n : Nat) : Decimal.ofDigits (Nat.toDigits 10 n) = n :=
  Nat.ofDigitChars_ten_toDigits

theorem ofDigits_append_zeros (n k : Nat) :
    Decimal.ofDigits (Nat.toDigits 10 n ++ List.replicate k '0') = 10 ^ k * n := by
  show Nat.ofDigitChars 10 (Nat.toDigits 10 n ++ List.replicate k '0') 0 = _
  rw [Nat.ofDigitChars_append, Nat.ofDigitChars_replicate_zero, Nat.ofDigitChars_ten_toDigits]

theorem ofDigits_zeros_append (k : Nat) (cs : List Char) :
    Decimal.ofDigits ('0' :: (List.replicate k '0' ++ cs)) = Decimal.ofDigits cs := by
  show Nat.ofDigitChars 10 (List.replicate (k + 1) '0' ++ cs) 0 = Nat.ofDigitChars 10 cs 0
  rw [Nat.ofDigitChars_append, Nat.ofDigitChars_replicate_zero, Nat.mul_zero]

/-- Digits laid out around the point are a plain numeral of the same value. -/
theorem positionalChars_spells (digits : Nat) (scale : Int) :
    PlainNumeral (positionalChars digits scale false) ∧ ∃ n k,
      (∀ negative, Decimal.unsigned? negative (positionalChars digits scale false) =
        some ⟨negative, n, k⟩) ∧ (n : ℚ) * 10 ^ k = digits * 10 ^ scale := by
  have hds := isDigit_toDigits digits
  have hne : Nat.toDigits 10 digits ≠ [] := Nat.toDigits_ne_nil
  unfold positionalChars
  dsimp only
  split
  case isTrue hs =>
    rw [if_neg Bool.false_ne_true, List.append_nil]
    have hall := isDigit_append hds (isDigit_replicate scale.toNat)
    have hsome : Nat.toDigits 10 digits ++ List.replicate scale.toNat '0' ≠ [] :=
      List.append_ne_nil_of_left_ne_nil hne _
    refine ⟨.whole hsome hall, _, _, fun negative => Decimal.unsigned?_whole negative hsome hall, ?_⟩
    obtain ⟨k, hk⟩ := Int.eq_ofNat_of_zero_le hs
    rw [ofDigits_append_zeros, hk, Int.toNat_natCast, zpow_natCast, zpow_zero]
    push_cast
    ring
  case isFalse hs =>
    obtain ⟨k, hk⟩ := Int.eq_ofNat_of_zero_le (by omega : 0 ≤ -scale)
    rw [hk, Int.toNat_natCast]
    have hscale : scale = -k := by omega
    split
    case isTrue hlt =>
      have hleft : ∀ c ∈ (Nat.toDigits 10 digits).take ((Nat.toDigits 10 digits).length - k),
          c.isDigit = true := fun c hc => hds c (List.mem_of_mem_take hc)
      have hright : ∀ c ∈ (Nat.toDigits 10 digits).drop ((Nat.toDigits 10 digits).length - k),
          c.isDigit = true := fun c hc => hds c (List.mem_of_mem_drop hc)
      have hlsome : (Nat.toDigits 10 digits).take ((Nat.toDigits 10 digits).length - k) ≠ [] := by
        rw [← List.length_pos_iff, List.length_take]
        omega
      have hrsome : (Nat.toDigits 10 digits).drop ((Nat.toDigits 10 digits).length - k) ≠ [] := by
        rw [← List.length_pos_iff, List.length_drop]
        omega
      refine ⟨.point hlsome hleft hrsome hright, _, _, fun negative =>
        Decimal.unsigned?_point negative hlsome hleft hright, ?_⟩
      rw [List.take_append_drop, ofDigits_toDigits, List.length_drop, hscale,
        Nat.sub_sub_self hlt.le]
    case isFalse hlt =>
      have hzero : ∀ c ∈ ['0'], c.isDigit = true := List.forall_mem_singleton.mpr rfl
      have hright := isDigit_append
        (isDigit_replicate (k - (Nat.toDigits 10 digits).length)) hds
      have hsome : List.replicate (k - (Nat.toDigits 10 digits).length) '0' ++
          Nat.toDigits 10 digits ≠ [] := List.append_ne_nil_of_right_ne_nil _ hne
      refine ⟨.point (List.cons_ne_nil '0' []) hzero hsome hright, _, _, fun negative =>
        Decimal.unsigned?_point negative (List.cons_ne_nil '0' []) hzero hright, ?_⟩
      rw [List.singleton_append, ofDigits_zeros_append, ofDigits_toDigits, List.length_append,
        List.length_replicate, hscale, Nat.sub_add_cancel (Nat.le_of_not_lt hlt)]

theorem isDigit_zeroPadded (width n : Nat) : ∀ c ∈ zeroPadded width n, c.isDigit = true :=
  isDigit_append (isDigit_replicate _) (isDigit_toDigits n)

theorem zeroPadded_ne_nil (width n : Nat) : zeroPadded width n ≠ [] :=
  List.append_ne_nil_of_right_ne_nil _ Nat.toDigits_ne_nil

/-- With fixed places a double is a plain numeral behind its sign. -/
theorem fixedText_spells (places : Nat) (x : Float) :
    ∃ cs, PlainNumeral cs ∧ fixedText places x = String.ofList (signedChars (isNegative x) cs) := by
  unfold fixedText
  dsimp only
  rw [negative_parts]
  generalize roundDiv ((parts x).ratio.1 * Nat.pow 10 places) (parts x).ratio.2 = n
  by_cases hplaces : places = 0
  · refine ⟨_, .whole Nat.toDigits_ne_nil (isDigit_toDigits (n / Nat.pow 10 places)), ?_⟩
    rw [if_pos hplaces, List.append_nil]
    rfl
  · refine ⟨_, .point Nat.toDigits_ne_nil (isDigit_toDigits (n / Nat.pow 10 places))
      (zeroPadded_ne_nil places (n % Nat.pow 10 places)) (isDigit_zeroPadded _ _), ?_⟩
    rw [if_neg hplaces, List.append_assoc]
    rfl

theorem point_not_mem {ds : List Char} (h : ∀ c ∈ ds, c.isDigit = true) : '.' ∉ ds :=
  fun hmem => absurd (h '.' hmem) (by decide)

/-- Zeros and a point at the end are dropped from the digits behind the point. -/
theorem dropTrailing_point (front ds fs : List Char) (hne : ds ≠ [])
    (hds : ∀ c ∈ ds, c.isDigit = true) (hfs : ∀ c ∈ fs, c.isDigit = true) :
    ∃ cs, PlainNumeral (ds ++ cs) ∧
      ((((front ++ (ds ++ '.' :: fs)).reverse.dropWhile (· = '0')).dropWhile (· = '.')).reverse) =
        front ++ (ds ++ cs) := by
  have hreverse : (front ++ (ds ++ '.' :: fs)).reverse =
      fs.reverse ++ '.' :: (ds.reverse ++ front.reverse) := by simp
  obtain ⟨d, ds', hlast⟩ := List.exists_cons_of_ne_nil (List.reverse_ne_nil_iff.mpr hne)
  have hd : d ≠ '.' := by
    rintro rfl
    refine point_not_mem hds (List.mem_reverse.mp ?_)
    rw [hlast]
    exact List.mem_cons_self
  rw [hreverse, List.dropWhile_append]
  cases hkeep : fs.reverse.dropWhile (· = '0') with
  | nil =>
    -- only zeros stand behind the point
    refine ⟨[], by rw [List.append_nil]; exact .whole hne hds, ?_⟩
    rw [if_pos List.isEmpty_nil, List.dropWhile_cons_of_neg (by decide),
      List.dropWhile_cons_of_pos (by decide), hlast, List.cons_append,
      List.dropWhile_cons_of_neg (by simpa using hd), ← List.cons_append, ← hlast]
    simp
  | cons c rest =>
    have hmem : ∀ e ∈ c :: rest, e.isDigit = true := by
      intro e he
      rw [← hkeep] at he
      exact hfs e (List.mem_reverse.mp ((List.dropWhile_sublist _).subset he))
    have hc : c ≠ '.' := fun heq => point_not_mem hmem (heq ▸ List.mem_cons_self)
    refine ⟨'.' :: (c :: rest).reverse, .point hne hds (by simp) fun e he =>
      hmem e (List.mem_reverse.mp he), ?_⟩
    rw [if_neg (by simp), List.cons_append, List.dropWhile_cons_of_neg (by simpa using hc)]
    simp

/-- What is displayed with zeros dropped is a plain numeral still. -/
theorem dropTrailingZeros_spells (negative : Bool) {cs : List Char} (h : PlainNumeral cs) :
    ∃ cs', PlainNumeral cs' ∧ dropTrailingZeros (String.ofList (signedChars negative cs)) =
      String.ofList (signedChars negative cs') := by
  have hsign : '.' ∉ (if negative then ['-'] else []) := by cases negative <;> decide
  unfold dropTrailingZeros
  rw [String.toList_ofList]
  cases h with
  | whole hne hds =>
    refine ⟨cs, .whole hne hds, ?_⟩
    rw [if_neg]
    rw [List.contains_iff_mem, signedChars, List.mem_append]
    exact not_or.mpr ⟨hsign, point_not_mem hds⟩
  | point hne hds hfne hfs =>
    rename_i ds fs
    obtain ⟨rest, hplain, heq⟩ := dropTrailing_point (if negative then ['-'] else []) ds fs hne hds hfs
    refine ⟨ds ++ rest, hplain, ?_⟩
    rw [if_pos]
    · exact congrArg String.ofList heq
    · rw [List.contains_iff_mem, signedChars]
      simp

/-- A finite number is displayed as a plain numeral, behind its sign unless it is zero. -/
theorem displayNumber_spells {x : Float} (h : x.isFinite = true) :
    ∃ negative cs, PlainNumeral cs ∧ (isNegative x = false → negative = false) ∧
      displayNumber x = String.ofList (signedChars negative cs) := by
  unfold displayNumber
  rw [h, Bool.not_true, if_neg Bool.false_ne_true]
  split
  · exact ⟨false, ['0'], .whole (List.cons_ne_nil _ _) (List.forall_mem_singleton.mpr rfl), fun _ => rfl,
      rfl⟩
  · split
    · obtain ⟨cs, hplain, heq⟩ := fixedText_spells 0 x
      exact ⟨_, cs, hplain, id, heq⟩
    · obtain ⟨cs, hplain, heq⟩ := fixedText_spells (displayPlaces x) x
      obtain ⟨cs', hplain', heq'⟩ := dropTrailingZeros_spells (isNegative x) hplain
      exact ⟨_, cs', hplain', id, by rw [heq, heq']⟩

/-- The shortest text is a plain numeral behind its sign, and reads back. -/
theorem plainText_spells {x : Float} (h : x.isFinite = true) :
    ∃ cs y, PlainNumeral cs ∧ plainText x = String.ofList (signedChars (isNegative x) cs) ∧
      readFloat? (plainText x) = some y ∧ (y == x) = true := by
  obtain ⟨hnegative, hreads⟩ := shortest_readsBack h
  obtain ⟨hplain, n, k, hread, hvalue⟩ :=
    positionalChars_spells (shortest x).digits (shortest x).scale
  have htext : plainText x = String.ofList (signedChars (isNegative x)
      (positionalChars (shortest x).digits (shortest x).scale false)) := by
    have hpositional : (shortest x).digits = 0 ∨ plainStyle.positional ((shortest x).scale +
        (Decimal.digitCount (shortest x).digits : Int) - 1) = true := .inr rfl
    unfold plainText NumberStyle.write
    rw [isNaN_of_isFinite h, h, if_neg Bool.false_ne_true, if_pos rfl]
    dsimp only
    rw [if_pos hpositional]
    rfl
  refine ⟨_, _, hplain, htext, ?_, hreads⟩
  rw [htext, readFloat?, String.toList_ofList,
    Decimal.readChars?_signedChars hplain (hread (isNegative x)), ← hnegative]
  exact congrArg some (Decimal.toFloat_congr rfl hvalue)

end Layout

/-- **The text of a finite number reads back.**  It is a plain numeral, behind a minus sign at most
if the number is negative, and the sign may as well be taken when the numeral is read. -/
theorem literalNumber_spelling {x : Float} (h : x.isFinite = true) :
    ∃ negative cs y, PlainNumeral cs ∧ literalNumber x = String.ofList (signedChars negative cs) ∧
      (isNegative x = false → negative = false) ∧ readFloat? (String.ofList cs) = some y ∧
      isNegative y = false ∧ ((if negative then -y else y) == x) = true := by
  -- whichever text it is, it is signed and reads back
  obtain ⟨negative, cs, y, hplain, htext, hsign, hread, heq⟩ : ∃ negative cs y, PlainNumeral cs ∧
      literalNumber x = String.ofList (signedChars negative cs) ∧
      (isNegative x = false → negative = false) ∧ readFloat? (literalNumber x) = some y ∧
      (y == x) = true := by
    obtain ⟨negative, cs, hplain, hsign, hdisplay⟩ := displayNumber_spells h
    obtain ⟨cs', y', hplain', htext', hread', heq'⟩ := plainText_spells h
    unfold literalNumber
    dsimp only
    rw [h, Bool.not_true, if_neg Bool.false_ne_true]
    split
    case h_1 y hy =>
      split
      case isTrue heq => exact ⟨_, cs, y, hplain, hdisplay, hsign, hy, heq⟩
      case isFalse => exact ⟨_, cs', y', hplain', htext', id, hread', heq'⟩
    case h_2 => exact ⟨_, cs', y', hplain', htext', id, hread', heq'⟩
  obtain ⟨digits, scale, hunsigned⟩ := Decimal.exists_unsigned? hplain
  have hpositive := Decimal.readChars?_signedChars hplain (hunsigned false)
  have hsigned := Decimal.readChars?_signedChars hplain (hunsigned negative)
  refine ⟨negative, cs, Decimal.toFloat ⟨false, digits, scale⟩, hplain, htext, hsign, ?_,
    Decimal.isNegative_toFloat _, ?_⟩
  · rw [readFloat?, String.toList_ofList]
    exact hpositive
  · rw [htext, readFloat?, String.toList_ofList, hsigned] at hread
    obtain rfl := Option.some.inj hread
    cases negative with
    | false => rwa [if_neg Bool.false_ne_true]
    | true => rwa [if_pos rfl, Decimal.neg_toFloat]

end Recalc
