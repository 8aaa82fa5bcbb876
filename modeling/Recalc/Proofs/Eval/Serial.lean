/-
Recalc/Proofs/Eval/Serial.lean

The serials of an epoch are a faithful calendar.

Design.  Under either epoch the serials run through the days from the first one on, one by one
(`dayOfSerial`), but for the serial that stands for no day: 60, the 29th of February 1900, from
which on the days are one behind.  Dates and their serials are each other's inverse along this
numbering: `dateOfSerial_eq` reads a date from a serial, `serialOfDay?_dayOfSerial` goes back,
and `dayOfSerial_lt_iff` and `exists_dayOfSerial` say that the numbering keeps the order and
misses no day.

Serials are doubles where the program hands them on, and every serial of a date that is in
reach is a small whole number, hence one exactly (`serialOfDate?_eq`).  What the calendar knows
of rolled-over months and days (`Date.reached_iff`) then gives `faithful`.
-/
import Recalc.Proofs.Eval.Calendar
import Recalc.Proofs.Number.Value

namespace Recalc.Epoch

open Binary64 (IsWhole)

variable {epoch : Epoch}

/-! ### Days by serial -/

/-- The first day of an epoch. -/
def start : Epoch → Date
  | .from1900 => ⟨1900, 1, 1⟩
  | .from1904 => ⟨1904, 1, 1⟩

/-- The serial of the first day. -/
def firstSerial : Epoch → Nat
  | .from1900 => 1
  | .from1904 => 0

theorem real_start (epoch : Epoch) : epoch.start.Real := by
  cases epoch <;> decide

theorem real_latest : Date.latest.Real := by decide

/-- The serial stands for a day of the calendar. -/
def HasDay (epoch : Epoch) (n : Nat) : Prop :=
  epoch.firstSerial ≤ n ∧ ¬(epoch = .from1900 ∧ n = 60)

instance (epoch : Epoch) (n : Nat) : Decidable (epoch.HasDay n) :=
  inferInstanceAs (Decidable (_ ∧ _))

/-- The number of the day that a serial stands for. -/
def dayOfSerial (epoch : Epoch) (n : Nat) : Int :=
  epoch.start.dayNumber + n - epoch.firstSerial - if epoch = .from1900 ∧ 60 < n then 1 else 0

/-- The days that serials of 1900 are counted from, by the first day of 1900. -/
theorem dayNumber_bases :
    (Date.mk 1899 12 31).dayNumber = (Date.mk 1900 1 1).dayNumber - 1 ∧
    (Date.mk 1899 12 30).dayNumber = (Date.mk 1900 1 1).dayNumber - 2 ∧
    (Date.mk 1900 3 1).dayNumber = (Date.mk 1900 1 1).dayNumber + 59 := by
  decide

theorem dateOfSerial_eq {n : Nat} (h : epoch.HasDay n) :
    epoch.dateOfSerial n = Date.ofDayNumber (epoch.dayOfSerial n) := by
  obtain ⟨hlast, hbase, -⟩ := dayNumber_bases
  cases epoch with
  | from1900 =>
    obtain ⟨hfirst, hphantom⟩ := h
    simp only [firstSerial, true_and] at hfirst hphantom
    simp only [dateOfSerial, dayOfSerial, start, firstSerial, hlast, hbase, true_and]
    rw [if_neg (by omega), if_neg hphantom]
    by_cases hlt : n < 60
    · rw [if_pos hlt, if_neg (by omega)]
      congr 1
      omega
    · rw [if_neg hlt, if_pos (by omega)]
      congr 1
      omega
  | from1904 => simp [dateOfSerial, dayOfSerial, start, firstSerial]

theorem serialOfDay?_dayOfSerial {n : Nat} (h : epoch.HasDay n) :
    epoch.serialOfDay? (epoch.dayOfSerial n) = some n := by
  obtain ⟨-, hbase, hmarch⟩ := dayNumber_bases
  cases epoch with
  | from1900 =>
    obtain ⟨hfirst, hphantom⟩ := h
    simp only [firstSerial, true_and] at hfirst hphantom
    simp only [serialOfDay?, dayOfSerial, start, firstSerial, hbase, hmarch, true_and]
    have hserial : ∀ serial : Int, serial = n →
        (if 0 ≤ serial then some serial.toNat else none) = some n := by
      rintro serial rfl
      rw [if_pos (Int.natCast_nonneg n), Int.toNat_natCast]
    -- the days before March are those of the serials below 60
    apply hserial
    omega
  | from1904 => simp [serialOfDay?, dayOfSerial, start, firstSerial]

/-- No day from the first one on is missed. -/
theorem exists_dayOfSerial {day : Int} (h : epoch.start.dayNumber ≤ day) :
    ∃ n, epoch.HasDay n ∧ epoch.dayOfSerial n = day := by
  obtain ⟨k, rfl⟩ := Int.le.dest h
  cases epoch with
  | from1900 =>
    by_cases hlt : k < 59
    · refine ⟨k + 1, ⟨Nat.succ_pos k, by omega⟩, ?_⟩
      simp only [dayOfSerial, firstSerial, true_and]
      rw [if_neg (by omega)]
      omega
    · refine ⟨k + 2, ⟨Nat.succ_pos _, by omega⟩, ?_⟩
      simp only [dayOfSerial, firstSerial, true_and]
      rw [if_pos (by omega)]
      omega
  | from1904 => exact ⟨k, ⟨Nat.zero_le k, by simp⟩, by simp [dayOfSerial, firstSerial]⟩

/-- The days are in the order of their serials. -/
theorem dayOfSerial_lt_iff {n k : Nat} (hn : epoch.HasDay n) (hk : epoch.HasDay k) :
    epoch.dayOfSerial n < epoch.dayOfSerial k ↔ n < k := by
  obtain ⟨-, hn⟩ := hn
  obtain ⟨-, hk⟩ := hk
  unfold dayOfSerial
  cases epoch with
  | from1900 =>
    simp only [true_and] at hn hk ⊢
    omega
  | from1904 =>
    simp only [reduceCtorEq, false_and, if_false]
    omega

theorem dayOfSerial_inj {n k : Nat} (hn : epoch.HasDay n) (hk : epoch.HasDay k)
    (h : epoch.dayOfSerial n = epoch.dayOfSerial k) : n = k := by
  have hlt := dayOfSerial_lt_iff hn hk
  have hgt := dayOfSerial_lt_iff hk hn
  omega

/-- The next day has the next serial, but for the day after the 28th of February 1900. -/
theorem dayOfSerial_eq_add_one_iff {n k : Nat} (hn : epoch.HasDay n) (hk : epoch.HasDay k) :
    epoch.dayOfSerial k = epoch.dayOfSerial n + 1 ↔
      k = if epoch = .from1900 ∧ n = 59 then 61 else n + 1 := by
  obtain ⟨-, hn⟩ := hn
  obtain ⟨-, hk⟩ := hk
  unfold dayOfSerial
  cases epoch with
  | from1900 =>
    simp only [true_and] at hn hk ⊢
    by_cases hlast : n = 59
    · rw [if_pos hlast]
      omega
    · rw [if_neg hlast]
      omega
  | from1904 =>
    simp only [reduceCtorEq, false_and, if_false]
    omega

/-- The serial before the one of no day is that of the 28th of February 1900. -/
theorem eq_59_iff {n : Nat} {d : Date} (hn : from1900.HasDay n) (hd : d.Real)
    (h : from1900.dayOfSerial n = d.dayNumber) : n = 59 ↔ d = ⟨1900, 2, 28⟩ := by
  have hlast : from1900.dayOfSerial 59 = (Date.mk 1900 2 28).dayNumber := by decide
  constructor
  · rintro rfl
    exact Date.eq_of_dayNumber_eq hd (by decide) (h.symm.trans hlast)
  · rintro rfl
    exact dayOfSerial_inj hn (by decide) (h.trans hlast.symm)

/-! ### Serials as doubles -/

/-- The serial of a date. -/
def serialOfDate? (epoch : Epoch) (d : Date) : Option Float :=
  (epoch.serialOfDay? d.dayNumber).map Binary64.ofNat

theorem isWhole_zero : IsWhole 0.0 0 := by
  have h : (0.0 : Float) = Binary64.ofNat 0 := rfl
  rw [h]
  exact Binary64.isWhole_ofNat (by omega)

theorem isWhole_maxSpan : IsWhole 3000000.0 3000000 := by
  have h : (3000000.0 : Float) = Binary64.ofNat 3000000 := rfl
  rw [h]
  exact Binary64.isWhole_ofNat (by omega)

/-- A serial that is taken is read as a date. -/
theorem date?_of_isWhole {x : Float} {n : Nat} (h : IsWhole x n) (hn : n ≤ 3000000) :
    epoch.date? x = some (epoch.dateOfSerial n) := by
  have hlow : 0.0 ≤ x := (isWhole_zero.le_iff h).mpr (by omega)
  have hhigh : x ≤ 3000000.0 := (h.le_iff isWhole_maxSpan).mpr (by omega)
  have hclamp : Binary64.clampNat x = n := by
    rw [Binary64.clampNat, h.clampInt (by omega) (by omega), Int.toNat_natCast]
  rw [date?, h.isFinite, decide_eq_true hlow, decide_eq_true hhigh, hclamp]
  rfl

/-- Every date from the first day to the last one in reach has a serial, a whole number. -/
theorem serialOfDate?_eq (epoch : Epoch) {d : Date} (hstart : epoch.start.dayNumber ≤ d.dayNumber)
    (hlatest : d.dayNumber ≤ Date.latest.dayNumber) :
    ∃ n, epoch.HasDay n ∧ epoch.dayOfSerial n = d.dayNumber ∧
      epoch.serialOfDate? d = some (Binary64.ofNat n) ∧ IsWhole (Binary64.ofNat n) n := by
  obtain ⟨n, hn, hday⟩ := exists_dayOfSerial hstart
  refine ⟨n, hn, hday, ?_, Binary64.isWhole_ofNat ?_⟩
  · rw [serialOfDate?, ← hday, serialOfDay?_dayOfSerial hn]
    rfl
  · have hbound : Date.latest.dayNumber < 2 ^ 52 := by decide
    have hpos : 0 ≤ epoch.start.dayNumber := by cases epoch <;> decide
    have hsmall : epoch.firstSerial ≤ 1 := by cases epoch <;> decide
    unfold dayOfSerial at hday
    split at hday <;> omega

/-! ### Dates by parts -/

theorem rolled?_of_reached {year month day : Int} {d : Date}
    (h : Date.Reached year (month - 1) (day - 1) d) :
    rolled? year month day = if Date.latest.Before d then none else some d.dayNumber := by
  rw [Date.reached_iff] at h
  obtain ⟨hreal, hnumber⟩ := Date.dayNumber_ofDayNumber
    ((Date.ofMonthNumber (year * 12 + (month - 1))).dayNumber + (day - 1))
  rw [← h] at hreal hnumber
  have hrolled : rolled? year month day
      = if d.dayNumber ≤ Date.latest.dayNumber then some d.dayNumber else none := by
    rw [hnumber, ← Int.add_sub_assoc, ← Int.add_sub_assoc]
    rfl
  rw [hrolled]
  by_cases hlate : Date.latest.Before d
  · rw [if_pos hlate, if_neg (hlate.dayNumber_lt real_latest hreal).not_ge]
  · rw [if_neg hlate, if_pos ((Date.not_before_iff real_latest hreal).mp hlate)]

/-- A year, a month and a day have the serial of the date that they roll over to. -/
theorem serial?_of_reached (epoch : Epoch) {y m d : Float} {year month day : Int} {date : Date}
    (hy : IsWhole y year) (hm : IsWhole m month) (hd : IsWhole d day)
    (hlow : 1900 ≤ year) (hhigh : year ≤ 9999) (hmonth : |month| ≤ 3000000)
    (hday : |day| ≤ 3000000) (h : Date.Reached year (month - 1) (day - 1) date) :
    epoch.serial? y m d = if Date.latest.Before date then none else epoch.serialOfDate? date := by
  rw [abs_le] at hmonth hday
  have hyear : ¬(0 ≤ year ∧ year < 1900) := by omega
  have hrange : 1900 ≤ year ∧ year ≤ 9999 ∧ month.natAbs ≤ maxSpan.toNat ∧
      day.natAbs ≤ maxSpan.toNat := by
    unfold maxSpan
    omega
  have hparts : epoch.serialOfParts? year month day
      = (rolled? year month day).bind epoch.serialOfDay? := by
    rw [serialOfParts?, if_neg hyear, if_pos hrange]
  rw [serial?, hy.isFinite, hm.isFinite, hd.isFinite, whole, whole, whole,
    hy.clampInt (by omega) (by omega), hm.clampInt (by omega) (by omega),
    hd.clampInt (by omega) (by omega), hparts, rolled?_of_reached h]
  by_cases hlate : Date.latest.Before date
  · rw [if_pos hlate, if_pos hlate]
    rfl
  · rw [if_neg hlate, if_neg hlate]
    rfl

/-! ### The calendar of an epoch -/

/-- The serial of a date is read as the date. -/
theorem date?_of_serialOfDate? {d : Date} (hd : d.Real) (hstart : ¬d.Before epoch.start)
    (hlatest : ¬Date.latest.Before d) {s : Float} (hs : epoch.serialOfDate? d = some s)
    (hspan : s ≤ 3000000.0) : epoch.date? s = some d := by
  rw [Date.not_before_iff hd epoch.real_start] at hstart
  rw [Date.not_before_iff real_latest hd] at hlatest
  obtain ⟨n, hn, hnumber, heq, hwhole⟩ := serialOfDate?_eq epoch hstart hlatest
  obtain rfl : Binary64.ofNat n = s := Option.some.inj (heq.symm.trans hs)
  have hspan := (hwhole.le_iff isWhole_maxSpan).mp hspan
  rw [date?_of_isWhole hwhole (by omega), dateOfSerial_eq hn, hnumber,
    Date.ofDayNumber_dayNumber hd]

/-- A serial is that of the date it is read as. -/
theorem serialOfDate?_of_date? {x : Float} {n : Nat} (hx : IsWhole x n) (hspan : n ≤ 3000000)
    (hn : epoch.HasDay n) :
    ∃ date s, date.Real ∧ epoch.date? x = some date ∧
      epoch.serialOfDate? date = some s ∧ IsWhole s n := by
  obtain ⟨hreal, hnumber⟩ := Date.dayNumber_ofDayNumber (epoch.dayOfSerial n)
  refine ⟨_, _, hreal, ?_, ?_, Binary64.isWhole_ofNat (show n < 2 ^ 53 by omega)⟩
  · rw [date?_of_isWhole hx hspan, dateOfSerial_eq hn]
  · rw [serialOfDate?, hnumber, serialOfDay?_dayOfSerial hn]
    rfl

theorem serialOfDate?_start (epoch : Epoch) :
    ∃ s, epoch.serialOfDate? epoch.start = some s ∧ IsWhole s epoch.firstSerial := by
  have hn : epoch.HasDay epoch.firstSerial := by cases epoch <;> decide
  have hday : epoch.dayOfSerial epoch.firstSerial = epoch.start.dayNumber := by
    cases epoch <;> decide
  refine ⟨_, ?_, Binary64.isWhole_ofNat (by cases epoch <;> decide)⟩
  rw [serialOfDate?, ← hday, serialOfDay?_dayOfSerial hn]
  rfl

/-- Later dates have larger serials. -/
theorem serialOfDate?_lt {a b : Date} (ha : a.Real) (hb : b.Real) (hstart : ¬a.Before epoch.start)
    (hlt : a.Before b) (hlatest : ¬Date.latest.Before b) :
    ∃ s t, epoch.serialOfDate? a = some s ∧ epoch.serialOfDate? b = some t ∧ s < t := by
  rw [Date.not_before_iff ha epoch.real_start] at hstart
  rw [Date.not_before_iff real_latest hb] at hlatest
  have hnumber := hlt.dayNumber_lt ha hb
  obtain ⟨n, hn, hday, heq, hwhole⟩ := serialOfDate?_eq epoch hstart (by omega)
  obtain ⟨k, hk, hday', heq', hwhole'⟩ := serialOfDate?_eq epoch (d := b) (by omega) hlatest
  refine ⟨_, _, heq, heq', (hwhole.lt_iff hwhole').mpr ?_⟩
  rw [← hday, ← hday', dayOfSerial_lt_iff hn hk] at hnumber
  omega

/-- The day after has the next serial, but for the serial that stands for no day. -/
theorem serialOfDate?_next {d : Date} (hd : d.Real) (hstart : ¬d.Before epoch.start)
    (hlatest : d.Before Date.latest) :
    ∃ (s t : Float) (n k : Nat), epoch.serialOfDate? d = some s ∧ IsWhole s n ∧
      epoch.serialOfDate? d.next = some t ∧ IsWhole t k ∧
      if epoch = .from1900 ∧ d = ⟨1900, 2, 28⟩ then n = 59 ∧ k = 61 else k = n + 1 := by
  rw [Date.not_before_iff hd epoch.real_start] at hstart
  have hlatest := hlatest.dayNumber_lt hd real_latest
  obtain ⟨-, hnext⟩ := Date.dayNumber_next hd
  obtain ⟨n, hn, hday, heq, hwhole⟩ := serialOfDate?_eq epoch hstart (by omega)
  obtain ⟨k, hk, hday', heq', hwhole'⟩ :=
    serialOfDate?_eq epoch (d := d.next) (by omega) (by omega)
  refine ⟨_, _, n, k, heq, hwhole, heq', hwhole', ?_⟩
  rw [← hday, ← hday', dayOfSerial_eq_add_one_iff hn hk] at hnext
  cases epoch with
  | from1900 =>
    simp only [true_and, ← eq_59_iff hn hd hday] at hnext ⊢
    by_cases hlast : n = 59
    · rw [if_pos hlast] at hnext ⊢
      exact ⟨hlast, hnext⟩
    · rw [if_neg hlast] at hnext ⊢
      exact hnext
  | from1904 => simpa using hnext

/-- The serials of an epoch are those of a calendar. -/
structure Faithful (epoch : Epoch) : Prop where
  /-- Whatever months and days roll over to is one date; its serial is the one that is computed,
  and is read as that date again. -/
  parts : ∀ {y m d : Float} {year month day : Int},
    IsWhole y year → IsWhole m month → IsWhole d day →
    1900 ≤ year → year ≤ 9999 → |month| ≤ 3000000 → |day| ≤ 3000000 →
    ∃ date : Date, (∀ other, Date.Reached year (month - 1) (day - 1) other ↔ other = date) ∧
      (epoch.serial? y m d
        = if Date.latest.Before date then none else epoch.serialOfDate? date) ∧
      ∀ s, epoch.serial? y m d = some s → ¬date.Before epoch.start → s ≤ 3000000.0 →
        epoch.date? s = some date
  /-- Every serial that is taken, but for the one of no day, is read as a date of which it is the
  serial. -/
  back : ∀ {x : Float} {n : Nat}, IsWhole x n → n ≤ 3000000 → epoch.HasDay n →
    ∃ date s, date.Real ∧ epoch.date? x = some date ∧
      epoch.serialOfDate? date = some s ∧ IsWhole s n
  /-- The first day has the first serial. -/
  first : ∃ s, epoch.serialOfDate? epoch.start = some s ∧ IsWhole s epoch.firstSerial
  /-- Later dates have larger serials. -/
  increasing : ∀ {a b : Date}, a.Real → b.Real → ¬a.Before epoch.start → a.Before b →
    ¬Date.latest.Before b →
    ∃ s t, epoch.serialOfDate? a = some s ∧ epoch.serialOfDate? b = some t ∧ s < t
  /-- The day after has the next serial, but for the first of March 1900 after the 28th of
  February. -/
  byOne : ∀ {d : Date}, d.Real → ¬d.Before epoch.start → d.Before Date.latest →
    ∃ (s t : Float) (n k : Nat), epoch.serialOfDate? d = some s ∧ IsWhole s n ∧
      epoch.serialOfDate? d.next = some t ∧ IsWhole t k ∧
      if epoch = .from1900 ∧ d = ⟨1900, 2, 28⟩ then n = 59 ∧ k = 61 else k = n + 1

/-- **The serials of either epoch are a faithful calendar.** -/
theorem faithful (epoch : Epoch) : epoch.Faithful where
  parts {y m d year month day} hy hm hd hlow hhigh hmonth hday := by
    obtain ⟨date, hdate⟩ : ∃ date, ∀ other,
        Date.Reached year (month - 1) (day - 1) other ↔ other = date :=
      ⟨_, fun _ => Date.reached_iff⟩
    have hreached := (hdate date).mpr rfl
    have hserial := serial?_of_reached epoch hy hm hd hlow hhigh hmonth hday hreached
    refine ⟨date, hdate, hserial, ?_⟩
    intro s hs hstart hspan
    rw [hserial] at hs
    by_cases hlate : Date.latest.Before date
    · rw [if_pos hlate] at hs
      cases hs
    · rw [if_neg hlate] at hs
      exact date?_of_serialOfDate? hreached.real hstart hlate hs hspan
  back := serialOfDate?_of_date?
  first := serialOfDate?_start epoch
  increasing := serialOfDate?_lt
  byOne := serialOfDate?_next

/-- From January 2024 ten months back, and from the first of March 2023 a month of days back. -/
theorem faithful_backwards :
    Date.Reached 2024 (-10) (-31) ⟨2023, 1, 29⟩ ∧
    from1900.serial? 2024.0 (-9.0) (-30.0) = some 44955.0 ∧
    from1900.date? 44955.0 = some ⟨2023, 1, 29⟩ := by
  have hreached : Date.Reached 2024 (-10) (-31) ⟨2023, 1, 29⟩ :=
    ⟨⟨2023, 3, 1⟩, by decide, by decide, by decide, by decide +kernel⟩
  have hserial : from1900.serial? 2024.0 (-9.0) (-30.0) = some 44955.0 := by decide +kernel
  have hyear : IsWhole 2024.0 2024 := Binary64.isWhole_ofNat (n := 2024) (by omega)
  have hmonth : IsWhole (-9.0) (-9) := by
    have hparts : Binary64.parts (-9.0) = ⟨true, 9 * 2 ^ 49, -49⟩ := by decide +kernel
    refine ⟨by decide +kernel, ?_⟩
    rw [Binary64.value, hparts]
    norm_num [Binary64.Parts.value, Binary64.Parts.magnitude]
  have hday : IsWhole (-30.0) (-30) := by
    have hparts : Binary64.parts (-30.0) = ⟨true, 30 * 2 ^ 48, -48⟩ := by decide +kernel
    refine ⟨by decide +kernel, ?_⟩
    rw [Binary64.value, hparts]
    norm_num [Binary64.Parts.value, Binary64.Parts.magnitude]
  obtain ⟨date, hdate, -, hback⟩ := (faithful .from1900).parts hyear hmonth hday
    (by decide) (by decide) (by decide) (by decide)
  obtain rfl := (hdate ⟨2023, 1, 29⟩).mp hreached
  exact ⟨hreached, hserial, hback _ hserial (by decide) (by decide +kernel)⟩

end Recalc.Epoch
