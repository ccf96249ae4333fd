import GoSieve.Date
import Mathlib.Tactic.IntervalCases

/-!
# The calendar behind the `julian` date-part

`modifiedJulianDay` reads the civil date of a time and computes its Julian Day Number by the
integer formula of the source, with Go's truncating division, minus 2400001. This file states
what that number is for: the count of days from 17 November 1858.

`CivilDate` is a date of the proleptic Gregorian calendar, valid by construction, and
`CivilDate.next` the day after it, by the leap-year rule. From the year -4799 on, every
division in the formula is of a nonnegative number, so it is Euclidean division there; the
formula then gains exactly one from each date to the next (`CivilDate.julianDay_next`), at the
end of every month, of February in leap and common years, and of the year. Every date is
reached from every earlier one by `next` (`CivilDate.reaches_of_onOrBefore`), which gives
`modifiedJulianDay_counts_days`: on a date from -4799 on, the `julian` part is the signed
number of days from 1858-11-17 to it.

Conversely, the formula inverts the civil date Go's `time` package computes from the days since
the Unix epoch (`civilFromDays`, Hinnant's algorithm): `modifiedJulianDay_eq_days` gives
`julian` as those days plus 40587, and the weekday `date` reads as the one the `julian` number
gives.
-/

namespace GoSieve

/-- A leap year of the proleptic Gregorian calendar: divisible by 4, and not by 100 unless by
400. -/
def IsLeapYear (y : Int) : Prop := y % 4 = 0 ∧ (y % 100 ≠ 0 ∨ y % 400 = 0)

instance : DecidablePred IsLeapYear := fun _ => inferInstanceAs (Decidable (_ ∧ _))

/-- The number of days of month `m` (1 = January) of year `y`. -/
def daysInMonth (y : Int) : Nat → Nat
  | 2 => if IsLeapYear y then 29 else 28
  | 4 | 6 | 9 | 11 => 30
  | _ => 31

theorem one_le_daysInMonth (y : Int) (m : Nat) : 1 ≤ daysInMonth y m := by
  unfold daysInMonth; split <;> (try split) <;> omega

/-- A date of the proleptic Gregorian calendar: a month of the year and a day of the month. -/
@[ext] structure CivilDate where
  year : Int
  month : Nat
  day : Nat
  month_mem : 1 ≤ month ∧ month ≤ 12
  day_mem : 1 ≤ day ∧ day ≤ daysInMonth year month

namespace CivilDate

/-- The day after `D`. -/
def next (D : CivilDate) : CivilDate :=
  if h : D.day < daysInMonth D.year D.month then
    ⟨D.year, D.month, D.day + 1, D.month_mem, by omega⟩
  else if h' : D.month < 12 then
    ⟨D.year, D.month + 1, 1, by omega, ⟨le_rfl, one_le_daysInMonth _ _⟩⟩
  else ⟨D.year + 1, 1, 1, by omega, ⟨le_rfl, one_le_daysInMonth _ _⟩⟩

/-- 17 November 1858, day 0 of the Modified Julian Day count. -/
def epoch : CivilDate := ⟨1858, 11, 17, by decide, by decide⟩

end CivilDate

/-! ## The Julian Day Number -/

/-- The Julian Day Number that `modifiedJulianDay` computes, as a function of the civil date
alone. -/
def julianDayNumber (year month day : Int) : Int :=
  let a := Int.tdiv (14 - month) 12
  let y := year + 4800 - a
  let m := month + 12 * a - 3
  day + Int.tdiv (153 * m + 2) 5 + 365 * y + Int.tdiv y 4 - Int.tdiv y 100 + Int.tdiv y 400 -
    32045

theorem modifiedJulianDay_eq (t : Time) :
    modifiedJulianDay t = julianDayNumber t.year t.month t.day - 2400001 := rfl

/-- The days of `Y` years of 365 days and their leap days, counted in years that begin on
1 March; the year part of `julianDayNumber`. -/
def yearDays (Y : Int) : Int := 365 * Y + Y / 4 - Y / 100 + Y / 400

/-- The leap-year rule as three divisibilities: a year divisible by 4 gains a day, by 100
loses it again, and by 400 gains it back. -/
theorem leapDay_eq (year : Int) : (if IsLeapYear year then (1 : Int) else 0) =
    (if year % 4 = 0 then 1 else 0) - (if year % 100 = 0 then 1 else 0) +
      (if year % 400 = 0 then 1 else 0) := by
  unfold IsLeapYear
  by_cases h4 : year % 4 = 0
  · by_cases h100 : year % 100 = 0
    · by_cases h400 : year % 400 = 0 <;> simp [h4, h100, h400]
    · have h400 : ¬ year % 400 = 0 := by omega
      simp [h4, h100, h400]
  · have h100 : ¬ year % 100 = 0 := by omega
    have h400 : ¬ year % 400 = 0 := by omega
    simp [h4, h100, h400]

theorem ediv_four_succ (year : Int) :
    (year + 4800) / 4 = (year + 4799) / 4 + if year % 4 = 0 then 1 else 0 := by
  split_ifs <;> omega

theorem ediv_hundred_succ (year : Int) :
    (year + 4800) / 100 = (year + 4799) / 100 + if year % 100 = 0 then 1 else 0 := by
  split_ifs <;> omega

theorem ediv_fourHundred_succ (year : Int) :
    (year + 4800) / 400 = (year + 4799) / 400 + if year % 400 = 0 then 1 else 0 := by
  split_ifs <;> omega

/-- A year that begins on 1 March ends on the last day of February of the year after, so it
has a leap day when that year is a leap year. -/
theorem yearDays_succ (year : Int) :
    yearDays (year + 4800) = yearDays (year + 4799) + 365 + if IsLeapYear year then 1 else 0 := by
  unfold yearDays
  rw [leapDay_eq, ediv_four_succ, ediv_hundred_succ, ediv_fourHundred_succ]
  omega

section Division

variable {year : Int} {month : Nat} (day : Int) (hy : -4799 ≤ year)
include hy

/-- In January and February the formula counts from March of the year before. From -4799 on,
its divisions are of nonnegative numbers, where Go's truncation is Euclidean division. -/
theorem julianDayNumber_of_le_two (hm : 1 ≤ month ∧ month ≤ 2) :
    julianDayNumber year month day =
      day + (153 * (month + 9) + 2) / 5 + yearDays (year + 4799) - 32045 := by
  have ha : Int.tdiv (14 - month) 12 = 1 := by rw [Int.tdiv_eq_ediv (by omega) (by omega)]; omega
  have hY : 0 ≤ year + 4799 := by omega
  simp only [julianDayNumber, ha, show year + 4800 - 1 = year + 4799 by omega,
    show (month : Int) + 12 * 1 - 3 = month + 9 by omega, Int.tdiv_eq_ediv hY (by decide : (0 : Int) ≤ 4),
    Int.tdiv_eq_ediv hY (by decide : (0 : Int) ≤ 100), Int.tdiv_eq_ediv hY (by decide : (0 : Int) ≤ 400),
    Int.tdiv_eq_ediv (by omega : (0 : Int) ≤ 153 * (month + 9) + 2) (by decide : (0 : Int) ≤ 5), yearDays]
  omega

theorem julianDayNumber_of_three_le (hm : 3 ≤ month ∧ month ≤ 12) :
    julianDayNumber year month day =
      day + (153 * (month - 3) + 2) / 5 + yearDays (year + 4800) - 32045 := by
  have ha : Int.tdiv (14 - month) 12 = 0 := by rw [Int.tdiv_eq_ediv (by omega) (by omega)]; omega
  have hY : 0 ≤ year + 4800 := by omega
  simp only [julianDayNumber, ha, Int.sub_zero, Int.mul_zero, Int.add_zero,
    Int.tdiv_eq_ediv hY (by decide : (0 : Int) ≤ 4), Int.tdiv_eq_ediv hY (by decide : (0 : Int) ≤ 100),
    Int.tdiv_eq_ediv hY (by decide : (0 : Int) ≤ 400),
    Int.tdiv_eq_ediv (by omega : (0 : Int) ≤ 153 * (month - 3) + 2) (by decide : (0 : Int) ≤ 5), yearDays]
  omega

/-- The first day of a month is one day after the last day of the month before. -/
theorem julianDayNumber_month_step (hm : 1 ≤ month ∧ month < 12) :
    julianDayNumber year (month + 1 : Nat) 1 =
      julianDayNumber year month (daysInMonth year month) + 1 := by
  obtain ⟨h1, h2⟩ := hm
  interval_cases month
  case «1» =>
    rw [julianDayNumber_of_le_two _ hy (by omega), julianDayNumber_of_le_two _ hy (by omega)]
    simp only [daysInMonth]
    omega
  case «2» =>
    rw [julianDayNumber_of_three_le _ hy (by omega), julianDayNumber_of_le_two _ hy (by omega),
      yearDays_succ]
    simp only [daysInMonth]
    split_ifs <;> omega
  all_goals
    rw [julianDayNumber_of_three_le _ hy (by omega), julianDayNumber_of_three_le _ hy (by omega)]
    simp only [daysInMonth]
    omega

end Division

/-- 1 January is one day after 31 December of the year before. -/
theorem julianDayNumber_year_step {year : Int} (hy : -4799 ≤ year) :
    julianDayNumber (year + 1) (1 : Nat) (1 : Nat) =
      julianDayNumber year (12 : Nat) (31 : Nat) + 1 := by
  rw [julianDayNumber_of_le_two _ (by omega) (by decide),
    julianDayNumber_of_three_le _ hy (by decide), show year + 1 + 4799 = year + 4800 by omega]
  omega

/-! ## The formula on dates -/

namespace CivilDate

/-- The Julian Day Number of a date. -/
def julianDay (D : CivilDate) : Int := julianDayNumber D.year D.month D.day

theorem year_le_next_year (D : CivilDate) : D.year ≤ D.next.year := by
  unfold next; split_ifs <;> simp

/-- The Julian Day Number counts days: the next day's is one more, across every month, year
and leap-year boundary. -/
theorem julianDay_next (D : CivilDate) (hy : -4799 ≤ D.year) :
    D.next.julianDay = D.julianDay + 1 := by
  obtain ⟨y, m, d, hm, hd⟩ := D
  simp only at hy
  unfold next julianDay
  split_ifs with h1 h2
  · simp only [julianDayNumber]
    push_cast
    omega
  · dsimp only at h1 ⊢
    rw [show d = daysInMonth y m by omega]
    exact julianDayNumber_month_step hy ⟨hm.1, h2⟩
  · dsimp only at h1 h2 ⊢
    obtain rfl : m = 12 := by omega
    obtain rfl : d = 31 := by simp only [daysInMonth] at h1 hd; omega
    exact julianDayNumber_year_step hy

theorem julianDay_iterate (D : CivilDate) (hy : -4799 ≤ D.year) (n : Nat) :
    (next^[n] D).julianDay = D.julianDay + n ∧ -4799 ≤ (next^[n] D).year := by
  induction n with
  | zero => simpa using hy
  | succ n ih =>
    rw [Function.iterate_succ_apply', julianDay_next _ ih.2]
    exact ⟨by rw [ih.1]; omega, ih.2.trans (year_le_next_year _)⟩

/-! ## Every later date is a number of days on -/

/-- `B` is `A` or a day after it. -/
def Reaches (A B : CivilDate) : Prop := ∃ n, next^[n] A = B

theorem Reaches.trans {A B C : CivilDate} : Reaches A B → Reaches B C → Reaches A C
  | ⟨m, hm⟩, ⟨n, hn⟩ => ⟨n + m, by rw [Function.iterate_add_apply, hm, hn]⟩

theorem Reaches.next_of {A B : CivilDate} (h : Reaches A.next B) : Reaches A B :=
  let ⟨n, hn⟩ := h
  ⟨n + 1, by rw [Function.iterate_succ_apply, hn]⟩

/-- The first day of month `m` of year `y`. -/
def first (y : Int) (m : Nat) (hm : 1 ≤ m ∧ m ≤ 12) : CivilDate :=
  ⟨y, m, 1, hm, ⟨le_rfl, one_le_daysInMonth y m⟩⟩

theorem reaches_of_same_month {A B : CivilDate} (hy : A.year = B.year) (hm : A.month = B.month)
    (hd : A.day ≤ B.day) : Reaches A B := by
  obtain ⟨k, hk⟩ : ∃ k, B.day = A.day + k := ⟨B.day - A.day, by omega⟩
  induction k generalizing A with
  | zero => exact ⟨0, show A = B from CivilDate.ext hy hm (by omega)⟩
  | succ k ih =>
    have hlt : A.day < daysInMonth A.year A.month := by
      have := B.day_mem.2; rw [← hy, ← hm] at this; omega
    refine Reaches.next_of (ih ?_ ?_ ?_ ?_) <;> simp only [next, hlt, dite_true] <;> omega

/-- The last day of a month leads to the first of the next month. -/
theorem reaches_next_month (A : CivilDate) (h : A.month < 12) :
    Reaches A (first A.year (A.month + 1) ⟨by omega, by omega⟩) := by
  let L : CivilDate := ⟨A.year, A.month, daysInMonth A.year A.month, A.month_mem,
    ⟨one_le_daysInMonth _ _, le_rfl⟩⟩
  refine (reaches_of_same_month rfl rfl A.day_mem.2 : Reaches A L).trans ⟨1, ?_⟩
  simp [L, next, h, first]

theorem reaches_of_same_year {A B : CivilDate} (hy : A.year = B.year)
    (h : A.month < B.month ∨ A.month = B.month ∧ A.day ≤ B.day) : Reaches A B := by
  obtain ⟨k, hk⟩ : ∃ k, B.month = A.month + k := ⟨B.month - A.month, by omega⟩
  induction k generalizing A with
  | zero => exact reaches_of_same_month hy (by omega) (by omega)
  | succ k ih =>
    have h12 : A.month < 12 := by have := B.month_mem.2; omega
    have := B.day_mem.1
    exact (reaches_next_month A h12).trans (ih hy (by simp [first]; omega) (by simp [first]; omega))

/-- 31 December leads to 1 January of the next year. -/
theorem reaches_next_year (A : CivilDate) :
    Reaches A (first (A.year + 1) 1 ⟨le_rfl, by omega⟩) := by
  let L : CivilDate := ⟨A.year, 12, 31, ⟨by omega, le_rfl⟩, ⟨by omega, by simp [daysInMonth]⟩⟩
  have hL : Reaches A L := reaches_of_same_year rfl (by
    have := A.month_mem.2; have := A.day_mem.2
    rcases Nat.lt_or_eq_of_le ‹A.month ≤ 12› with h | h
    · exact .inl h
    · exact .inr ⟨h, by rw [h] at this; simpa [daysInMonth] using this⟩)
  refine hL.trans ⟨1, ?_⟩
  simp [L, next, daysInMonth, first]

/-- `A` is on or before `B`: the order of (year, month, day). -/
def OnOrBefore (A B : CivilDate) : Prop :=
  A.year < B.year ∨ A.year = B.year ∧ (A.month < B.month ∨ A.month = B.month ∧ A.day ≤ B.day)

theorem reaches_of_onOrBefore {A B : CivilDate} (h : OnOrBefore A B) : Reaches A B := by
  rcases h with h | ⟨hy, h⟩
  · obtain ⟨k, hk⟩ : ∃ k : Nat, B.year = A.year + 1 + k := ⟨(B.year - A.year - 1).toNat, by omega⟩
    induction k generalizing A with
    | zero =>
      refine (reaches_next_year A).trans (reaches_of_same_year (by simp [first]; omega) ?_)
      have := B.month_mem.1; have := B.day_mem.1
      simp only [first]; omega
    | succ k ih =>
      exact (reaches_next_year A).trans (ih (by simp [first]; omega) (by simp [first]; omega))
  · exact reaches_of_same_year hy h

theorem onOrBefore_total (A B : CivilDate) : OnOrBefore A B ∨ OnOrBefore B A := by
  unfold OnOrBefore; omega

end CivilDate

/-- `t` falls on the date `D` on its own zone's clock. -/
def Time.IsOn (t : Time) (D : CivilDate) : Prop :=
  t.year = D.year ∧ t.month = D.month ∧ t.day = D.day

instance (t : Time) (D : CivilDate) : Decidable (t.IsOn D) := inferInstanceAs (Decidable (_ ∧ _))

theorem modifiedJulianDay_of_isOn {t : Time} {D : CivilDate} (h : t.IsOn D) :
    modifiedJulianDay t = D.julianDay - 2400001 := by
  rw [modifiedJulianDay_eq, h.1, h.2.1, h.2.2]
  rfl

theorem CivilDate.julianDay_epoch : CivilDate.epoch.julianDay = 2400001 := by decide

open CivilDate in
/-- The `julian` date-part counts days from 17 November 1858. It is 0 on that day, one more
on each next day, and on every date from the year -4799 on it is the signed number of days
from 1858-11-17 to that date. -/
theorem modifiedJulianDay_counts_days (D : CivilDate) (t t' : Time) (hy : -4799 ≤ D.year)
    (ht : t.IsOn D) (ht' : t'.IsOn D.next) :
    (∀ e : Time, e.IsOn epoch → modifiedJulianDay e = 0) ∧
    modifiedJulianDay t' = modifiedJulianDay t + 1 ∧
    ((∃ n : Nat, next^[n] epoch = D ∧ modifiedJulianDay t = n) ∨
      (∃ n : Nat, next^[n] D = epoch ∧ modifiedJulianDay t = -n)) := by
  refine ⟨fun e he => by rw [modifiedJulianDay_of_isOn he, julianDay_epoch]; rfl, ?_, ?_⟩
  · rw [modifiedJulianDay_of_isOn ht', modifiedJulianDay_of_isOn ht, julianDay_next D hy]
    omega
  rw [modifiedJulianDay_of_isOn ht]
  rcases onOrBefore_total epoch D with h | h
  · obtain ⟨n, hn⟩ := reaches_of_onOrBefore h
    have hj := (julianDay_iterate epoch (by decide) n).1
    rw [hn, julianDay_epoch] at hj
    exact .inl ⟨n, hn, by omega⟩
  · obtain ⟨n, hn⟩ := reaches_of_onOrBefore h
    have hj := (julianDay_iterate D hy n).1
    rw [hn, julianDay_epoch] at hj
    exact .inr ⟨n, hn, by omega⟩

theorem modifiedJulianDay_counts_days_sample :
    let D : CivilDate := ⟨1970, 1, 1, by decide, by decide⟩
    let t : Time := ⟨0, 0⟩
    let t' : Time := ⟨86400, 0⟩
    (-4799 ≤ D.year ∧ t.IsOn D ∧ t'.IsOn D.next) ∧
    ((∀ e : Time, e.IsOn CivilDate.epoch → modifiedJulianDay e = 0) ∧
      modifiedJulianDay t' = modifiedJulianDay t + 1 ∧
      ((∃ n : Nat, CivilDate.next^[n] CivilDate.epoch = D ∧ modifiedJulianDay t = n) ∨
        (∃ n : Nat, CivilDate.next^[n] D = CivilDate.epoch ∧ modifiedJulianDay t = -n))) := by
  intro D t t'
  have h : -4799 ≤ D.year ∧ t.IsOn D ∧ t'.IsOn D.next := by decide
  exact ⟨h, modifiedJulianDay_counts_days D t t' h.1 h.2.1 h.2.2⟩

/-! ## The formula inverts Go's civil date

`civilFromDays` is how `time` finds the civil date of a day (the era of 400 years, the year of
the era, the day of the year counted from 1 March). On every day from the year -4799 on, the
formula of `modifiedJulianDay` gives back the day it came from. -/

/-- Hinnant's year of the era on day `r` of the `k`-th four-year block of century `c`, the
last day of the era apart: the leap days before it are taken out, and what is left divided
into years of 365 days. -/
theorem yoe_of_blocks {c k r : Int} (hc : 0 ≤ c ∧ c ≤ 3) (hk : 0 ≤ k ∧ k ≤ 24)
    (hr : 0 ≤ r ∧ r < 1461 ∧ (k = 24 → r < 1460)) :
    (36524 * c + 1461 * k + r - (36524 * c + 1461 * k + r) / 1460 +
        (36524 * c + 1461 * k + r) / 36524 - (36524 * c + 1461 * k + r) / 146096) / 365 =
      100 * c + 4 * k + (if 1460 ≤ 24 * c + k + r then r - 1 else r) / 365 := by
  have h1 : (36524 * c + 1461 * k + r) / 36524 = c := by omega
  have h2 : (36524 * c + 1461 * k + r) / 146096 = 0 := by omega
  rw [h1, h2]
  split_ifs
  · rw [show (36524 * c + 1461 * k + r) / 1460 = 25 * c + k + 1 by omega]
    omega
  · rw [show (36524 * c + 1461 * k + r) / 1460 = 25 * c + k by omega]
    omega

/-- The year of the era is in `0..399` and the day of the year, counted from 1 March, in
`0..365`. -/
theorem yoe_doy_bounds {doe yoe : Int} (h : 0 ≤ doe ∧ doe ≤ 146096)
    (hyoe : (doe - doe / 1460 + doe / 36524 - doe / 146096) / 365 = yoe) :
    0 ≤ yoe ∧ yoe ≤ 399 ∧ 0 ≤ doe - (365 * yoe + yoe / 4 - yoe / 100) ∧
      doe - (365 * yoe + yoe / 4 - yoe / 100) ≤ 365 := by
  by_cases hlast : doe = 146096
  · subst hlast; omega
  obtain ⟨c, k, r, rfl, hc, hk, hr⟩ : ∃ c k r, doe = 36524 * c + 1461 * k + r ∧
      (0 ≤ c ∧ c ≤ 3) ∧ (0 ≤ k ∧ k ≤ 24) ∧ (0 ≤ r ∧ r < 1461 ∧ (k = 24 → r < 1460)) :=
    ⟨doe / 36524, doe % 36524 / 1461, doe % 36524 % 1461, by omega, by omega, by omega, by omega⟩
  rw [yoe_of_blocks hc hk hr] at hyoe
  subst hyoe
  generalize hs : (if 1460 ≤ 24 * c + k + r then r - 1 else r) / 365 = s
  have hs' : 0 ≤ s ∧ s ≤ 3 ∧ 0 ≤ r - 365 * s ∧ r - 365 * s ≤ 365 := by split_ifs at hs <;> omega
  rw [show (100 * c + 4 * k + s) / 4 = 25 * c + k by omega,
    show (100 * c + 4 * k + s) / 100 = c by omega]
  omega

/-- The year part of the formula at year `yoe` of an era: the `era + 12` whole eras since
March -4800, then the years of this era before `yoe`. -/
theorem yearDays_era {era yoe : Int} (hy : 0 ≤ yoe ∧ yoe ≤ 399) :
    yearDays (yoe + era * 400 + 4800) = 146097 * (era + 12) + 365 * yoe + yoe / 4 - yoe / 100 := by
  unfold yearDays
  rw [show (yoe + era * 400 + 4800) / 4 = yoe / 4 + 100 * (era + 12) by omega,
    show (yoe + era * 400 + 4800) / 100 = yoe / 100 + 4 * (era + 12) by omega,
    show (yoe + era * 400 + 4800) / 400 = era + 12 by omega]
  omega

/-- The Julian Day Number of the civil date of day `z` (days from 1970-01-01) is
`z + 2440588`. -/
theorem julianDayNumber_civilFromDays (z : Int) (hy : -4799 ≤ (civilFromDays z).1) :
    julianDayNumber (civilFromDays z).1 (civilFromDays z).2.1 (civilFromDays z).2.2 =
      z + 2440588 := by
  dsimp only [civilFromDays] at hy ⊢
  generalize hera : (z + 719468) / 146097 = era at hy ⊢
  generalize hdoe : z + 719468 - era * 146097 = doe at hy ⊢
  have hdoe' : 0 ≤ doe ∧ doe ≤ 146096 := by omega
  generalize hyoe : (doe - doe / 1460 + doe / 36524 - doe / 146096) / 365 = yoe at hy ⊢
  obtain ⟨hy0, hy1, hd0, hd1⟩ := yoe_doy_bounds hdoe' hyoe
  generalize hdoy : doe - (365 * yoe + yoe / 4 - yoe / 100) = doy at hy hd0 hd1 ⊢
  have hmp : 0 ≤ (5 * doy + 2) / 153 ∧ (5 * doy + 2) / 153 ≤ 11 := by omega
  generalize hmp' : (5 * doy + 2) / 153 = mp at hy hmp ⊢
  have hday : ((doy - (153 * mp + 2) / 5 + 1).toNat : Int) = doy - (153 * mp + 2) / 5 + 1 :=
    Int.toNat_of_nonneg (by omega)
  rcases lt_or_le mp 10 with h10 | h10
  · -- March to December
    rw [if_pos h10, if_neg (show ¬ mp + 3 ≤ 2 by omega)] at hy ⊢
    have hcast : ((mp + 3).toNat : Int) = mp + 3 := Int.toNat_of_nonneg (by omega)
    rw [julianDayNumber_of_three_le _ hy (by omega), hday, hcast, yearDays_era ⟨hy0, hy1⟩]
    omega
  · -- January and February, in the next year
    rw [if_neg (show ¬ mp < 10 by omega), if_pos (show mp - 9 ≤ 2 by omega)] at hy ⊢
    have hcast : ((mp - 9).toNat : Int) = mp - 9 := Int.toNat_of_nonneg (by omega)
    rw [julianDayNumber_of_le_two _ hy (by omega), hday, hcast,
      show yoe + era * 400 + 1 + 4799 = yoe + era * 400 + 4800 by omega, yearDays_era ⟨hy0, hy1⟩]
    omega

/-- The `julian` date-part of every time from the year -4799 on is its day on its zone's
clock counted from 1858-11-17: the source's formula inverts the civil date `time` computes.
So the `weekday` part is the `julian` part plus 3, modulo 7. -/
theorem modifiedJulianDay_eq_days (t : Time) (hy : -4799 ≤ t.year) :
    modifiedJulianDay t = t.days + 40587 ∧ t.weekday = ((modifiedJulianDay t + 3) % 7).toNat := by
  have h : modifiedJulianDay t = t.days + 40587 := by
    rw [modifiedJulianDay_eq]
    have := julianDayNumber_civilFromDays t.days hy
    unfold Time.year Time.month Time.day
    omega
  refine ⟨h, ?_⟩
  rw [h, Time.weekday]
  congr 1
  omega

theorem modifiedJulianDay_eq_days_epoch :
    -4799 ≤ (⟨0, 0⟩ : Time).year ∧ (modifiedJulianDay ⟨0, 0⟩ = (⟨0, 0⟩ : Time).days + 40587 ∧
      (⟨0, 0⟩ : Time).weekday = ((modifiedJulianDay ⟨0, 0⟩ + 3) % 7).toNat) :=
  ⟨by decide, modifiedJulianDay_eq_days ⟨0, 0⟩ (by decide)⟩

end GoSieve
