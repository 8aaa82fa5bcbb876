/-
Recalc/Proofs/Eval/Calendar.lean

The day numbers count the days of the Gregorian calendar.

Design.  The calendar itself is given by its rules alone, with no count of days in them: which
years are leap (`Leap`), how long a month is (`monthLength`), which dates are there (`Real`),
and which date follows which (`next` for days, `nextMonth` for months).  A number of steps may
be negative, so a date is `Moved` by `k` steps when the two of them meet after the steps that
`k` asks for.  Then

* `dayNumber_next`: the next day has the next number, and is there;
* `dayNumber_lt_iff`: later dates have larger numbers, hence no two dates have the same;
* `dayNumber_ofDayNumber`: every number is that of a date that is there.

Together these turn every walk through the calendar into an addition of day numbers
(`moved_next_iff`), for months likewise (`moved_nextMonth_iff`), and `reached_iff` joins the two:
the date some months and then some days from the first of January is the one of the number
that `Epoch.rolled?` computes.
-/
import Mathlib.Logic.Function.Iterate
import Mathlib.Tactic.IntervalCases
import Recalc.Eval.Calendar

namespace Recalc.Date

/-! ### The rules of the calendar -/

/-- Whether a year is leap: every fourth one, but of the centuries only every fourth. -/
def Leap (year : Int) : Prop := 4 ∣ year ∧ (100 ∣ year → 400 ∣ year)

instance (year : Int) : Decidable (Leap year) := inferInstanceAs (Decidable (_ ∧ _))

/-- The length of a month. -/
def monthLength (year : Int) (month : Nat) : Nat :=
  if month = 2 then if Leap year then 29 else 28
  else if month ∈ [4, 6, 9, 11] then 30
  else 31

/-- The length of a year. -/
def yearLength (year : Int) : Nat := if Leap year then 366 else 365

/-- A date that is in the calendar. -/
@[mk_iff]
structure Real (d : Date) : Prop where
  one_le_month : 1 ≤ d.month
  month_le : d.month ≤ 12
  one_le_day : 1 ≤ d.day
  day_le : d.day ≤ monthLength d.year d.month

instance (d : Date) : Decidable d.Real := decidable_of_iff _ (real_iff d).symm

/-- The day after. -/
def next (d : Date) : Date :=
  if d.day < monthLength d.year d.month then ⟨d.year, d.month, d.day + 1⟩
  else if d.month < 12 then ⟨d.year, d.month + 1, 1⟩
  else ⟨d.year + 1, 1, 1⟩

/-- The same day of the month after. -/
def nextMonth (d : Date) : Date :=
  if d.month < 12 then ⟨d.year, d.month + 1, d.day⟩ else ⟨d.year + 1, 1, d.day⟩

/-- One date is earlier than another. -/
def Before (a b : Date) : Prop :=
  a.year < b.year ∨
    a.year = b.year ∧ (a.month < b.month ∨ a.month = b.month ∧ a.day < b.day)

instance (a b : Date) : Decidable (a.Before b) := inferInstanceAs (Decidable (_ ∨ _))

/-- `b` is `k` steps on from `a`; for a negative `k`, it is `a` that is `-k` steps on from `b`. -/
def Moved (step : Date → Date) (k : Int) (a b : Date) : Prop :=
  step^[k.toNat] a = step^[(-k).toNat] b

instance (step : Date → Date) (k : Int) (a b : Date) : Decidable (Moved step k a b) :=
  inferInstanceAs (Decidable (_ = _))

/-- The first day of a month. -/
def IsFirst (d : Date) : Prop := d.Real ∧ d.day = 1

instance (d : Date) : Decidable d.IsFirst := inferInstanceAs (Decidable (_ ∧ _))

/-- The date reached from the first of January of a year by some months and then by some days. -/
def Reached (year months days : Int) (d : Date) : Prop :=
  ∃ first : Date, first.IsFirst ∧ Moved nextMonth months ⟨year, 1, 1⟩ first ∧
    d.Real ∧ Moved next days first d

theorem Reached.real {year months days : Int} {d : Date} (h : Reached year months days d) :
    d.Real := by
  obtain ⟨_, _, _, hreal, _⟩ := h
  exact hreal

/-! ### Walks that a count follows -/

section Walk

variable {step : Date → Date} {good : Date → Prop} {count : Date → Int}

/-- A walk keeps what a step keeps, and a count that a step raises by one counts the steps. -/
theorem count_iterate (hstep : ∀ d, good d → good (step d) ∧ count (step d) = count d + 1)
    (n : Nat) {d : Date} (hd : good d) : good (step^[n] d) ∧ count (step^[n] d) = count d + n := by
  induction n generalizing d with
  | zero => exact ⟨hd, by simp⟩
  | succ n ih =>
    obtain ⟨hgood, hcount⟩ := hstep d hd
    obtain ⟨hgood', hcount'⟩ := ih hgood
    rw [Function.iterate_succ_apply]
    exact ⟨hgood', by omega⟩

/-- If the count also tells the dates apart, then it says how far one is from the other. -/
theorem moved_iff_count (hstep : ∀ d, good d → good (step d) ∧ count (step d) = count d + 1)
    (hinj : ∀ a b, good a → good b → count a = count b → a = b)
    {k : Int} {a b : Date} (ha : good a) (hb : good b) :
    Moved step k a b ↔ count b = count a + k := by
  obtain ⟨hgooda, hcounta⟩ := count_iterate hstep k.toNat ha
  obtain ⟨hgoodb, hcountb⟩ := count_iterate hstep (-k).toNat hb
  constructor
  · intro hmoved
    have := congrArg count hmoved
    omega
  · intro hcount
    apply hinj _ _ hgooda hgoodb
    omega

end Walk

/-! ### Years -/

theorem isLeap_eq (year : Int) : isLeap year = decide (Leap year) := by
  rw [Bool.eq_iff_iff, decide_eq_true_iff]
  simp only [isLeap, Leap, Bool.and_eq_true, Bool.or_eq_true, beq_iff_eq, bne_iff_ne]
  omega

theorem daysBeforeYear_succ (year : Int) :
    daysBeforeYear (year + 1) = daysBeforeYear year + yearLength year := by
  unfold daysBeforeYear yearLength
  by_cases h : Leap year
  · rw [if_pos h]
    unfold Leap at h
    omega
  · rw [if_neg h]
    unfold Leap at h
    omega

theorem daysBeforeYear_le {a b : Int} (h : a < b) :
    daysBeforeYear a + yearLength a ≤ daysBeforeYear b := by
  rw [← daysBeforeYear_succ]
  induction b, h using Int.leInduction with
  | base => exact le_rfl
  | succ b _ ih =>
    rw [daysBeforeYear_succ b]
    omega

/-! ### Months -/

theorem getElem?_monthLengths {year : Int} {j length : Nat}
    (h : (monthLengths (isLeap year))[j]? = some length) :
    j < 12 ∧ length = monthLength year (j + 1) := by
  have hj : j < 12 := (List.getElem?_eq_some_iff.mp h).1
  refine ⟨hj, ?_⟩
  rw [isLeap_eq] at h
  unfold monthLength
  interval_cases j <;> simp_all [monthLengths]

theorem one_le_monthLength (year : Int) (month : Nat) : 1 ≤ monthLength year month := by
  unfold monthLength
  repeat' split
  all_goals omega

theorem daysBeforeMonth_one (leap : Bool) : daysBeforeMonth leap 1 = 0 := rfl

theorem daysBeforeMonth_succ (year : Int) {month : Nat} (hone : 1 ≤ month) (hle : month ≤ 12) :
    daysBeforeMonth (isLeap year) (month + 1)
      = daysBeforeMonth (isLeap year) month + monthLength year month := by
  rw [isLeap_eq]
  unfold monthLength
  by_cases h : Leap year <;> interval_cases month <;> simp [h, daysBeforeMonth, monthLengths]

theorem daysBeforeMonth_le (year : Int) {a b : Nat} (hone : 1 ≤ a) (hlt : a < b) (hle : b ≤ 13) :
    daysBeforeMonth (isLeap year) a + monthLength year a ≤ daysBeforeMonth (isLeap year) b := by
  rw [← daysBeforeMonth_succ year hone (by omega)]
  induction b, hlt using Nat.le_induction with
  | base => exact le_rfl
  | succ b hb ih =>
    rw [daysBeforeMonth_succ year (show 1 ≤ b by omega) (by omega)]
    exact (ih (by omega)).trans (Nat.le_add_right _ _)

/-- The months of a year make up the year. -/
theorem daysBeforeMonth_end (year : Int) :
    daysBeforeMonth (isLeap year) 13 = yearLength year := by
  rw [isLeap_eq]
  unfold yearLength
  by_cases h : Leap year <;> simp [h, daysBeforeMonth, monthLengths]

/-! ### Later dates have larger numbers -/

/-- A date that is there lies in its month, and its month in its year. -/
theorem Real.daysBeforeMonth_add_day_le {d : Date} (h : d.Real) :
    daysBeforeMonth (isLeap d.year) d.month + d.day ≤ yearLength d.year := by
  have hmonth := daysBeforeMonth_le d.year h.one_le_month
    (Nat.lt_succ_of_le h.month_le) le_rfl
  rw [daysBeforeMonth_end] at hmonth
  have := h.day_le
  omega

theorem Before.dayNumber_lt {a b : Date} (h : a.Before b) (ha : a.Real) (hb : b.Real) :
    a.dayNumber < b.dayNumber := by
  have hday := hb.one_le_day
  unfold dayNumber
  rcases h with hyear | ⟨hyear, hmonth | ⟨hmonth, hlt⟩⟩
  · have := daysBeforeYear_le hyear
    have := ha.daysBeforeMonth_add_day_le
    omega
  · have := daysBeforeMonth_le a.year ha.one_le_month hmonth
      (hb.month_le.trans (Nat.le_succ 12))
    have := ha.day_le
    rw [← hyear]
    omega
  · rw [hyear, hmonth]
    omega

theorem before_trichotomy (a b : Date) : a.Before b ∨ a = b ∨ b.Before a := by
  obtain ⟨ya, ma, da⟩ := a
  obtain ⟨yb, mb, db⟩ := b
  simp only [Before, mk.injEq]
  omega

theorem eq_of_dayNumber_eq {a b : Date} (ha : a.Real) (hb : b.Real)
    (h : a.dayNumber = b.dayNumber) : a = b := by
  rcases before_trichotomy a b with hlt | heq | hgt
  · have := hlt.dayNumber_lt ha hb
    omega
  · exact heq
  · have := hgt.dayNumber_lt hb ha
    omega

/-- **The numbers are in the order of the dates.** -/
theorem dayNumber_lt_iff {a b : Date} (ha : a.Real) (hb : b.Real) :
    a.dayNumber < b.dayNumber ↔ a.Before b := by
  constructor
  · intro h
    rcases before_trichotomy a b with hlt | rfl | hgt
    · exact hlt
    · exact absurd h (lt_irrefl _)
    · exact absurd h (hgt.dayNumber_lt hb ha).not_gt
  · exact fun h => h.dayNumber_lt ha hb

theorem not_before_iff {a b : Date} (ha : a.Real) (hb : b.Real) :
    ¬a.Before b ↔ b.dayNumber ≤ a.dayNumber := by
  rw [← dayNumber_lt_iff ha hb, not_lt]

/-! ### The next day has the next number -/

/-- **The day after a date is there, and has the next number.** -/
theorem dayNumber_next {d : Date} (h : d.Real) :
    d.next.Real ∧ d.next.dayNumber = d.dayNumber + 1 := by
  obtain ⟨hone, hle, hday, hdayle⟩ := h
  unfold next
  by_cases hin : d.day < monthLength d.year d.month
  · rw [if_pos hin]
    refine ⟨⟨hone, hle, Nat.succ_pos _, hin⟩, ?_⟩
    simp only [dayNumber]
    omega
  · rw [if_neg hin]
    have hlast : d.day = monthLength d.year d.month := by omega
    have hstep := daysBeforeMonth_succ d.year hone hle
    by_cases hmonth : d.month < 12
    · rw [if_pos hmonth]
      refine ⟨⟨Nat.succ_pos _, hmonth, le_rfl, one_le_monthLength _ _⟩, ?_⟩
      simp only [dayNumber]
      omega
    · rw [if_neg hmonth]
      refine ⟨⟨le_rfl, show 1 ≤ 12 by omega, le_rfl, one_le_monthLength _ _⟩, ?_⟩
      -- the last day of December is the last of the year
      have hdec : d.month + 1 = 13 := by omega
      rw [hdec, daysBeforeMonth_end] at hstep
      simp only [dayNumber, daysBeforeMonth_one, daysBeforeYear_succ]
      omega

theorem moved_next_iff {k : Int} {a b : Date} (ha : a.Real) (hb : b.Real) :
    Moved next k a b ↔ b.dayNumber = a.dayNumber + k :=
  moved_iff_count (fun _ => dayNumber_next) (fun _ _ => eq_of_dayNumber_eq) ha hb

/-! ### Every number is that of a date -/

/-- Counting off months ends in one of them, with the days before it and those into it. -/
theorem inMonths_eq (lengths : List Nat) (month : Nat) {day : Nat}
    (h : day < lengths.foldr (· + ·) 0) :
    ∃ j r length, inMonths month day lengths = (month + j, r + 1) ∧
      lengths[j]? = some length ∧ r < length ∧ day = (lengths.take j).foldr (· + ·) 0 + r := by
  induction lengths generalizing month day with
  | nil => exact absurd h (Nat.not_lt_zero day)
  | cons length rest ih =>
    unfold inMonths
    by_cases hin : day < length
    · exact ⟨0, day, length, if_pos hin, rfl, hin, by simp⟩
    · have hrest : day - length < rest.foldr (· + ·) 0 := by
        rw [List.foldr_cons] at h
        omega
      obtain ⟨j, r, l, heq, hj, hr, hday⟩ := ih (month + 1) hrest
      refine ⟨j + 1, r, l, ?_, hj, hr, ?_⟩
      · rw [if_neg hin, heq, Nat.add_assoc, Nat.add_comm 1 j]
      · rw [List.take_succ_cons, List.foldr_cons]
        omega

/-- The years of a number, by cycles of four hundred, hundred and four, with the days that are
left: a day too many only at the end of a leap year. -/
theorem ofDayNumber_eq (n : Int) :
    ∃ (cycles centuries quads years : Int) (day : Nat),
      (0 ≤ centuries ∧ centuries ≤ 3) ∧ (0 ≤ quads ∧ quads ≤ 24) ∧ (0 ≤ years ∧ years ≤ 3) ∧
      (day < 365 ∨ day = 365 ∧ years = 3 ∧ (quads < 24 ∨ centuries = 3)) ∧
      n = 146097 * cycles + 36524 * centuries + 1461 * quads + 365 * years + day ∧
      let year := 400 * cycles + 100 * centuries + 4 * quads + years + 1
      ofDayNumber n = ⟨year, (inMonths 1 day (monthLengths (isLeap year))).1,
        (inMonths 1 day (monthLengths (isLeap year))).2⟩ := by
  -- the last century of four and the last year of four are a day longer than the others, so the
  -- quotients stop at 3
  refine ⟨n / 146097, min (n % 146097 / 36524) 3, _, _, _, ?_, ?_, ?_, ?_, ?_, rfl⟩
  all_goals omega

theorem daysBeforeYear_cycles (cycles : Int) {centuries quads years : Int}
    (hcenturies : 0 ≤ centuries ∧ centuries ≤ 3) (hquads : 0 ≤ quads ∧ quads ≤ 24)
    (hyears : 0 ≤ years ∧ years ≤ 3) :
    daysBeforeYear (400 * cycles + 100 * centuries + 4 * quads + years + 1)
      = 146097 * cycles + 36524 * centuries + 1461 * quads + 365 * years := by
  unfold daysBeforeYear
  omega

theorem lt_yearLength_cycles (cycles : Int) {centuries quads years : Int} {day : Nat}
    (h : day < 365 ∨ day = 365 ∧ years = 3 ∧ (quads < 24 ∨ centuries = 3))
    (hquads : 0 ≤ quads ∧ quads ≤ 24) :
    day < yearLength (400 * cycles + 100 * centuries + 4 * quads + years + 1) := by
  unfold yearLength
  split
  · omega
  · -- in a common year no day is too many
    rename_i hleap
    unfold Leap at hleap
    omega

/-- **Every number is that of a date in the calendar.** -/
theorem dayNumber_ofDayNumber (n : Int) :
    (ofDayNumber n).Real ∧ (ofDayNumber n).dayNumber = n := by
  obtain ⟨cycles, centuries, quads, years, day, hcenturies, hquads, hyears, hday, hn, heq⟩ :=
    ofDayNumber_eq n
  have hbefore := daysBeforeYear_cycles cycles hcenturies hquads hyears
  have hlt := lt_yearLength_cycles cycles hday hquads
  generalize 400 * cycles + 100 * centuries + 4 * quads + years + 1 = year at hbefore hlt heq
  rw [← daysBeforeMonth_end] at hlt
  obtain ⟨j, r, length, hmonths, hlength, hr, hsum⟩ :=
    inMonths_eq (monthLengths (isLeap year)) 1 hlt
  obtain ⟨hj, rfl⟩ := getElem?_monthLengths hlength
  rw [heq, hmonths]
  constructor
  · refine ⟨Nat.le_add_right 1 j, show 1 + j ≤ 12 by omega, Nat.succ_pos r, ?_⟩
    show r + 1 ≤ monthLength year (1 + j)
    rw [Nat.add_comm 1 j]
    exact hr
  · simp only [dayNumber, daysBeforeMonth, Nat.add_sub_cancel_left]
    omega

theorem ofDayNumber_dayNumber {d : Date} (h : d.Real) : ofDayNumber d.dayNumber = d :=
  eq_of_dayNumber_eq (dayNumber_ofDayNumber _).1 h (dayNumber_ofDayNumber _).2

/-! ### Months by number, and dates by months and days -/

/-- The months from the January of year 0. -/
def monthNumber (d : Date) : Int := d.year * 12 + d.month - 1

/-- The first day of the month of a number. -/
def ofMonthNumber (n : Int) : Date := ⟨n / 12, (n % 12).toNat + 1, 1⟩

theorem monthNumber_ofMonthNumber (n : Int) :
    (ofMonthNumber n).IsFirst ∧ (ofMonthNumber n).monthNumber = n := by
  refine ⟨⟨⟨Nat.succ_pos _, ?_, le_rfl, one_le_monthLength _ _⟩, rfl⟩, ?_⟩
  · simp only [ofMonthNumber]
    omega
  · simp only [ofMonthNumber, monthNumber]
    omega

theorem isFirst_january (year : Int) : IsFirst ⟨year, 1, 1⟩ :=
  ⟨⟨le_rfl, show 1 ≤ 12 by omega, le_rfl, one_le_monthLength _ _⟩, rfl⟩

theorem monthNumber_nextMonth {d : Date} (h : d.IsFirst) :
    d.nextMonth.IsFirst ∧ d.nextMonth.monthNumber = d.monthNumber + 1 := by
  obtain ⟨hreal, hday⟩ := h
  have hone : 1 ≤ d.day := hreal.one_le_day
  have hle := hreal.month_le
  unfold nextMonth
  by_cases hmonth : d.month < 12
  · rw [if_pos hmonth]
    refine ⟨⟨⟨Nat.succ_pos _, hmonth, hone, ?_⟩, hday⟩, ?_⟩
    · exact hday.trans_le (one_le_monthLength _ _)
    · simp only [monthNumber]
      omega
  · rw [if_neg hmonth]
    refine ⟨⟨⟨le_rfl, show 1 ≤ 12 by omega, hone, ?_⟩, hday⟩, ?_⟩
    · exact hday.trans_le (one_le_monthLength _ _)
    · simp only [monthNumber]
      omega

theorem eq_of_monthNumber_eq {a b : Date} (ha : a.IsFirst) (hb : b.IsFirst)
    (h : a.monthNumber = b.monthNumber) : a = b := by
  obtain ⟨⟨hone, hle, -, -⟩, hday⟩ := ha
  obtain ⟨⟨hone', hle', -, -⟩, hday'⟩ := hb
  obtain ⟨ya, ma, da⟩ := a
  obtain ⟨yb, mb, db⟩ := b
  simp only [monthNumber, mk.injEq] at *
  omega

theorem moved_nextMonth_iff {k : Int} {a b : Date} (ha : a.IsFirst) (hb : b.IsFirst) :
    Moved nextMonth k a b ↔ b.monthNumber = a.monthNumber + k :=
  moved_iff_count (fun _ => monthNumber_nextMonth) (fun _ _ => eq_of_monthNumber_eq) ha hb

/-- **One date is reached by some months and then some days**: that of the number by as many
days beyond the first of the month that as many months lead to. -/
theorem reached_iff {year months days : Int} {d : Date} :
    Reached year months days d ↔
      d = ofDayNumber ((ofMonthNumber (year * 12 + months)).dayNumber + days) := by
  obtain ⟨hfirst, hnumber⟩ := monthNumber_ofMonthNumber (year * 12 + months)
  have hjanuary : monthNumber ⟨year, 1, 1⟩ = year * 12 := by
    simp only [monthNumber]
    omega
  constructor
  · rintro ⟨first, hfirst', hmonths, hd, hdays⟩
    rw [moved_nextMonth_iff (isFirst_january year) hfirst', hjanuary, ← hnumber] at hmonths
    obtain rfl := eq_of_monthNumber_eq hfirst' hfirst hmonths
    rw [moved_next_iff hfirst'.1 hd] at hdays
    rw [← hdays, ofDayNumber_dayNumber hd]
  · rintro rfl
    obtain ⟨hreal, hday⟩ :=
      dayNumber_ofDayNumber ((ofMonthNumber (year * 12 + months)).dayNumber + days)
    refine ⟨_, hfirst, ?_, hreal, (moved_next_iff hfirst.1 hreal).mpr hday⟩
    rw [moved_nextMonth_iff (isFirst_january year) hfirst, hjanuary, hnumber]

end Recalc.Date
