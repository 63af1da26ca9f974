import Mathlib.Logic.Function.Iterate
import Mathlib.Tactic.SplitIfs
import Mathlib.Tactic.IntervalCases

/-!
# The Gregorian calendar

Dates, the day after a date, and the number of a date in a count that goes up by one every day. The number
determines the date, and every number is that of a date, so that counting days and numbering them is the same.
-/

namespace Lib

def IsLeap (year : Int) : Prop := year % 4 = 0 ∧ (year % 100 ≠ 0 ∨ year % 400 = 0)

instance (year : Int) : Decidable (IsLeap year) := inferInstanceAs (Decidable (_ ∧ _))

def lengthOfMonth (year month : Int) : Int :=
  if month = 2 then
    if IsLeap year then 29 else 28
  else if month = 4 ∨ month = 6 ∨ month = 9 ∨ month = 11 then
    30
  else
    31

theorem lengthOfMonth_pos (year month : Int) : 1 ≤ lengthOfMonth year month := by
  unfold lengthOfMonth
  split_ifs <;> decide

theorem january_valid : (1 : Int) ≤ 1 ∧ (1 : Int) ≤ 12 := by decide

theorem march_valid : (1 : Int) ≤ 3 ∧ (3 : Int) ≤ 12 := by decide

/-- A date of the calendar, the months and days counted from 1. -/
@[ext] structure Date where
  year : Int
  month : Int
  day : Int
  month_valid : 1 ≤ month ∧ month ≤ 12
  day_valid : 1 ≤ day ∧ day ≤ lengthOfMonth year month
deriving DecidableEq

namespace Date

def next (d : Date) : Date :=
  if hday : d.day < lengthOfMonth d.year d.month then
    { year := d.year
      month := d.month
      day := d.day + 1
      month_valid := d.month_valid
      day_valid := ⟨by have := d.day_valid; omega, hday⟩ }
  else if hmonth : d.month < 12 then
    { year := d.year
      month := d.month + 1
      day := 1
      month_valid := ⟨by have := d.month_valid; omega, hmonth⟩
      day_valid := ⟨Int.le_refl 1, lengthOfMonth_pos _ _⟩ }
  else
    { year := d.year + 1
      month := 1
      day := 1
      month_valid := january_valid
      day_valid := ⟨Int.le_refl 1, lengthOfMonth_pos _ _⟩ }

def prev (d : Date) : Date :=
  if hday : 1 < d.day then
    { year := d.year
      month := d.month
      day := d.day - 1
      month_valid := d.month_valid
      day_valid := ⟨by omega, by have := d.day_valid; omega⟩ }
  else if hmonth : 1 < d.month then
    { year := d.year
      month := d.month - 1
      day := lengthOfMonth d.year (d.month - 1)
      month_valid := ⟨by omega, by have := d.month_valid; omega⟩
      day_valid := ⟨lengthOfMonth_pos _ _, Int.le_refl _⟩ }
  else
    { year := d.year - 1
      month := 12
      day := 31
      month_valid := by decide
      day_valid := ⟨by decide, Int.le_refl 31⟩ }

end Date

/-! ### Numbering the days -/

/-- The days of the years before a year, where a year begins in March. -/
def daysBeforeYear (year : Int) : Int := 365 * year + year / 4 - year / 100 + year / 400

/-- The days of the months before a month, where March is month 0. -/
def daysBeforeMonth (month : Int) : Int := (153 * month + 2) / 5

/-- The number of the first day of a month, counted from 1 March of the year 0. January and February belong to
the year before. -/
def firstOfMonth (year month : Int) : Int :=
  if month ≤ 2 then
    daysBeforeYear (year - 1) + daysBeforeMonth (month + 9)
  else
    daysBeforeYear year + daysBeforeMonth (month - 3)

theorem firstOfMonth_march (year : Int) :
    firstOfMonth year 3 = firstOfMonth year 2 + lengthOfMonth year 2 := by
  simp only [firstOfMonth, lengthOfMonth, IsLeap, daysBeforeYear, daysBeforeMonth]
  norm_num
  split_ifs <;> omega

theorem firstOfMonth_succ (year : Int) {month : Int} (hlow : 1 ≤ month) (hhigh : month < 12) :
    firstOfMonth year (month + 1) = firstOfMonth year month + lengthOfMonth year month := by
  by_cases hfeb : month = 2
  · rw [hfeb]
    exact firstOfMonth_march year
  · unfold firstOfMonth lengthOfMonth daysBeforeMonth
    interval_cases month <;> simp at hfeb ⊢ <;> omega

theorem firstOfMonth_january (year : Int) :
    firstOfMonth (year + 1) 1 = firstOfMonth year 12 + lengthOfMonth year 12 := by
  simp only [firstOfMonth, lengthOfMonth, daysBeforeMonth]
  norm_num
  omega

/-- The first days of all months, in the order of the months. -/
def monthStart (i : Int) : Int := firstOfMonth (i / 12) (i % 12 + 1)

theorem monthStart_succ (i : Int) : monthStart (i + 1) = monthStart i + lengthOfMonth (i / 12) (i % 12 + 1) := by
  unfold monthStart
  by_cases hdec : i % 12 = 11
  · rw [show (i + 1) / 12 = i / 12 + 1 by omega, show (i + 1) % 12 + 1 = 1 by omega, hdec]
    exact firstOfMonth_january _
  · rw [show (i + 1) / 12 = i / 12 by omega, show (i + 1) % 12 = i % 12 + 1 by omega]
    exact firstOfMonth_succ _ (by omega) (by omega)

theorem monthStart_mono {i j : Int} (h : i ≤ j) : monthStart i ≤ monthStart j := by
  induction j, h using Int.leInduction with
  | base => exact Int.le_refl _
  | succ j _ ih =>
    have hstep := monthStart_succ j
    have hpos := lengthOfMonth_pos (j / 12) (j % 12 + 1)
    omega

namespace Date

def number (d : Date) : Int := firstOfMonth d.year d.month + d.day - 1

/-- The next day has the next number. -/
theorem number_next (d : Date) : d.next.number = d.number + 1 := by
  obtain ⟨year, month, day, hmonth, hday⟩ := d
  unfold next
  by_cases hwithin : day < lengthOfMonth year month
  · simp only [dif_pos hwithin, number]
    omega
  by_cases hyear : month < 12
  · have hsucc := firstOfMonth_succ year hmonth.1 hyear
    simp only [dif_neg hwithin, dif_pos hyear, number]
    omega
  · obtain rfl : month = 12 := by omega
    have hjanuary := firstOfMonth_january year
    simp only [dif_neg hwithin, dif_neg hyear, number]
    omega

theorem number_prev (d : Date) : d.prev.number = d.number - 1 := by
  obtain ⟨year, month, day, hmonth, hday⟩ := d
  unfold prev
  by_cases hwithin : 1 < day
  · simp only [dif_pos hwithin, number]
    omega
  by_cases hyear : 1 < month
  · have hsucc := firstOfMonth_succ year (show 1 ≤ month - 1 by omega) (by omega)
    rw [Int.sub_add_cancel] at hsucc
    simp only [dif_neg hwithin, dif_pos hyear, number]
    omega
  · obtain rfl : month = 1 := by omega
    have hjanuary := firstOfMonth_january (year - 1)
    have hlength : lengthOfMonth (year - 1) 12 = 31 := rfl
    rw [Int.sub_add_cancel] at hjanuary
    simp only [dif_neg hwithin, dif_neg hyear, number]
    omega

theorem number_iterate_next (d : Date) (n : Nat) : (next^[n] d).number = d.number + n := by
  induction n with
  | zero => exact (Int.add_zero _).symm
  | succ n ih =>
    rw [Function.iterate_succ_apply', number_next, ih]
    omega

theorem number_iterate_prev (d : Date) (n : Nat) : (prev^[n] d).number = d.number - n := by
  induction n with
  | zero => exact (Int.sub_zero _).symm
  | succ n ih =>
    rw [Function.iterate_succ_apply', number_prev, ih]
    omega

def monthIndex (d : Date) : Int := 12 * d.year + d.month - 1

theorem monthStart_monthIndex (d : Date) : monthStart d.monthIndex = firstOfMonth d.year d.month ∧
    monthStart (d.monthIndex + 1) = firstOfMonth d.year d.month + lengthOfMonth d.year d.month := by
  have hmonth := d.month_valid
  have hyear : d.monthIndex / 12 = d.year := by
    rw [monthIndex]
    omega
  have hrest : d.monthIndex % 12 + 1 = d.month := by
    rw [monthIndex]
    omega
  rw [monthStart_succ, monthStart, hyear, hrest]
  exact ⟨rfl, rfl⟩

theorem number_lt_of_monthIndex_lt {d d' : Date} (h : d.monthIndex < d'.monthIndex) : d.number < d'.number := by
  have hend := (monthStart_monthIndex d).2
  have hstart := (monthStart_monthIndex d').1
  have hle : monthStart (d.monthIndex + 1) ≤ monthStart d'.monthIndex :=
    monthStart_mono (Int.add_one_le_iff.mpr h)
  have hday := d.day_valid
  have hday' := d'.day_valid
  rw [number, number]
  omega

/-- A number belongs to one date only. -/
theorem number_injective : Function.Injective number := by
  intro d d' h
  obtain hbefore | hsame | hafter := lt_trichotomy d.monthIndex d'.monthIndex
  · exact absurd h (number_lt_of_monthIndex_lt hbefore).ne
  · have hmonth := d.month_valid
    have hmonth' := d'.month_valid
    simp only [monthIndex] at hsame
    have hyear : d.year = d'.year := by omega
    have hmonths : d.month = d'.month := by omega
    simp only [number, hyear, hmonths] at h
    exact Date.ext hyear hmonths (by omega)
  · exact absurd h (number_lt_of_monthIndex_lt hafter).ne'

/-- A date is the `n`-th after another one exactly if its number is larger by `n`. -/
theorem iterate_next_eq_iff {d d' : Date} {n : Nat} : next^[n] d = d' ↔ d'.number = d.number + n := by
  rw [← number_iterate_next]
  exact ⟨fun h => h ▸ rfl, fun h => number_injective h.symm⟩

def ofNumber (n : Int) : Date :=
  let origin : Date := ⟨0, 3, 1, march_valid, by decide⟩
  if 0 ≤ n then next^[n.toNat] origin else prev^[(-n).toNat] origin

theorem number_ofNumber (n : Int) : (ofNumber n).number = n := by
  have horigin : (⟨0, 3, 1, march_valid, by decide⟩ : Date).number = 0 := by decide
  unfold ofNumber
  by_cases hn : 0 ≤ n
  · simp only [if_pos hn, number_iterate_next, horigin]
    omega
  · simp only [if_neg hn, number_iterate_prev, horigin]
    omega

end Date

end Lib
