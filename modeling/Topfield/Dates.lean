import Topfield.Lib.Calendar
import Topfield.Listing

/-!
# Dates on the device

`time_to_tfdt` and `tfdt_to_time` count days with the decimal approximations of the broadcasting standard.
From 1 March 1900 to 22 April 2038, the last day whose number has 16 bits, the second undoes the first.
-/

namespace Topfield

open Lib

namespace Tm

/-- A date and time of the calendar, the years counted from 1900 and the months from 0; a minute may have a leap
second. -/
structure Valid (tm : Tm) : Prop where
  sec : 0 ≤ tm.sec ∧ tm.sec ≤ 60
  min : 0 ≤ tm.min ∧ tm.min ≤ 59
  hour : 0 ≤ tm.hour ∧ tm.hour ≤ 23
  mon : 0 ≤ tm.mon ∧ tm.mon ≤ 11
  mday : 1 ≤ tm.mday ∧ tm.mday ≤ lengthOfMonth (tm.year + 1900) (tm.mon + 1)

/-- From 1 March 1900 to 22 April 2038. -/
structure InRange (tm : Tm) : Prop where
  first : 0 < tm.year ∨ tm.year = 0 ∧ 2 ≤ tm.mon
  last : tm.year < 138 ∨ tm.year = 138 ∧ (tm.mon < 3 ∨ tm.mon = 3 ∧ tm.mday ≤ 22)

end Tm

/-! ### Day numbers -/

theorem daysOfYears_eq {n : Int} (hn : 0 ≤ n) : daysOfYears n = n * 36525 / 100 :=
  Int.tdiv_eq_ediv_of_nonneg (by omega)

theorem daysOfMonths_eq {n : Int} (hn : 0 ≤ n) : daysOfMonths n = n * 306001 / 10000 :=
  Int.tdiv_eq_ediv_of_nonneg (by omega)

/-- The length of a month in the count of the day numbers, where January and February are the months 14
and 15 of the year before. -/
def monthLength (y m : Int) : Int :=
  if m = 15 then
    if y % 4 = 3 then 29 else 28
  else if m = 5 ∨ m = 7 ∨ m = 10 ∨ m = 12 then
    30
  else
    31

/-- A day number determines its year. -/
theorem year_of_mjd {y m d : Int} (hy : 0 ≤ y) (hm : 4 ≤ m ∧ m ≤ 15) (hd : 1 ≤ d)
    (hd' : d ≤ monthLength y m) :
    (100 * (14956 + d + daysOfYears y + daysOfMonths m) - 1507820).tdiv 36525 = y := by
  have hmonth : d ≤ 31 := by
    unfold monthLength at hd'
    split_ifs at hd' <;> omega
  rw [daysOfYears_eq hy, daysOfMonths_eq (by omega), Int.tdiv_eq_ediv_of_nonneg (by omega)]
  by_cases hfeb : m = 15
  · -- 29 February falls into a year whose fraction of a day has been cut off
    rw [hfeb, monthLength, if_pos rfl] at hd'
    rw [hfeb]
    split_ifs at hd' <;> omega
  · omega

theorem month_of_mjd {y m d : Int} (hm : 4 ≤ m ∧ m ≤ 15) (hd : 1 ≤ d) (hd' : d ≤ monthLength y m) :
    (10000 * (14956 + d + daysOfYears y + daysOfMonths m) - 149561000 - 10000 * daysOfYears y).tdiv 306001 =
      m := by
  have hmonth : d ≤ 31 := by
    unfold monthLength at hd'
    split_ifs at hd' <;> omega
  have hdays := daysOfMonths_eq (show 0 ≤ m by omega)
  have hcut : 10000 * (14956 + d + daysOfYears y + daysOfMonths m) - 149561000 - 10000 * daysOfYears y =
      10000 * (d + m * 306001 / 10000) - 1000 := by
    rw [hdays]
    ring
  rw [hcut, Int.tdiv_eq_ediv_of_nonneg (by omega)]
  unfold monthLength at hd'
  obtain ⟨hlow, hhigh⟩ := hm
  interval_cases m <;> split_ifs at hd' <;> omega

theorem Tm.Valid.parts {tm : Tm} (hvalid : tm.Valid) (hrange : tm.InRange) {k : Int}
    (hk : k = if tm.mon + 1 = 1 ∨ tm.mon + 1 = 2 then 1 else 0) :
    0 ≤ tm.year - k ∧ (4 ≤ tm.mon + 1 + 1 + k * 12 ∧ tm.mon + 1 + 1 + k * 12 ≤ 15) ∧
      tm.mday ≤ monthLength (tm.year - k) (tm.mon + 1 + 1 + k * 12) := by
  obtain ⟨hlow, hhigh⟩ := hvalid.mon
  have hmday := hvalid.mday.2
  have hfirst := hrange.first
  refine ⟨by split_ifs at hk <;> omega, by split_ifs at hk <;> omega, hmday.trans ?_⟩
  unfold lengthOfMonth monthLength IsLeap
  split_ifs at hk ⊢ <;> omega

/-- The day number fits into its sixteen bits. -/
theorem tmToMjd_bounds {tm : Tm} (hvalid : tm.Valid) (hrange : tm.InRange) :
    0 ≤ tmToMjd tm ∧ tmToMjd tm ≤ 0xFFFF := by
  obtain ⟨hyear, ⟨hlow, hhigh⟩, hmday⟩ := hvalid.parts hrange rfl
  have hpos := hvalid.mday.1
  have hlast := hrange.last
  have hmon := hvalid.mon
  simp only [tmToMjd]
  rw [daysOfYears_eq hyear, daysOfMonths_eq (by omega)]
  unfold monthLength at hmday
  split_ifs at * <;> omega

/-- 22 April 2038 has the last day number of sixteen bits. -/
example : tmToMjd ⟨0, 0, 0, 22, 3, 138⟩ = 0xFFFF := by
  decide

/-! ### The round trip -/

section RoundTrip

variable {σ : Type} (e : Env σ) (t : Int) (m : Mem) (dt : Nat)

def dateBytes (tm : Tm) : List UInt8 :=
  toBE 2 (UInt16.ofInt (tmToMjd tm)).toNat ++ [UInt8.ofInt tm.hour, UInt8.ofInt tm.min, UInt8.ofInt tm.sec]

theorem timeToTfdt_eq_store : timeToTfdt e t m dt = m.store dt (dateBytes (e.localtime t)) := by
  have hsplit (tm : Tm) : dateBytes tm = toBE 2 (UInt16.ofInt (tmToMjd tm)).toNat ++ [UInt8.ofInt tm.hour] ++
      [UInt8.ofInt tm.min] ++ [UInt8.ofInt tm.sec] := by
    simp [dateBytes]
  simp only [timeToTfdt, putU16_eq_store, Mem.set_eq_store]
  rw [hsplit, ← Mem.store_append, ← Mem.store_append, ← Mem.store_append]
  simp only [List.length_append, length_toBE, List.length_singleton]

theorem toNat_ofInt_byte {n : Int} (hlow : 0 ≤ n) (hhigh : n ≤ 255) : ((UInt8.ofInt n).toNat : Int) = n := by
  rw [UInt8.ofInt, UInt8.toNat_ofNat']
  omega

variable {e t m dt}

theorem dateBytes_fields {tm : Tm} (hvalid : tm.Valid) (hrange : tm.InRange) (hload : m.load dt 5 = dateBytes tm) :
    ((getU16 m dt).toNat : Int) = tmToMjd tm ∧ ((m (dt + 2)).toNat : Int) = tm.hour ∧
      ((m (dt + 3)).toNat : Int) = tm.min ∧ ((m (dt + 4)).toNat : Int) = tm.sec := by
  obtain ⟨hlow, hhigh⟩ := tmToMjd_bounds hvalid hrange
  obtain ⟨hmjd, htime⟩ := Mem.load_split hload
  obtain ⟨hhour, hmin, hsec, -⟩ : m (dt + 2) = UInt8.ofInt tm.hour ∧ m (dt + 3) = UInt8.ofInt tm.min ∧
      m (dt + 4) = UInt8.ofInt tm.sec ∧ True := by
    simpa [Mem.load, Nat.add_assoc] using htime
  rw [hhour, hmin, hsec]
  refine ⟨?_, ?_, ?_, ?_⟩
  · rw [length_toBE] at hmjd
    rw [getU16_toNat, hmjd, ofBE_toBE, UInt16.ofInt, UInt16.toNat_ofNat']
    omega
  · exact toNat_ofInt_byte hvalid.hour.1 (hvalid.hour.2.trans (by decide))
  · exact toNat_ofInt_byte hvalid.min.1 (hvalid.min.2.trans (by decide))
  · exact toNat_ofInt_byte hvalid.sec.1 (hvalid.sec.2.trans (by decide))

theorem tfdtToTm_dateBytes {tm : Tm} (hvalid : tm.Valid) (hrange : tm.InRange)
    (hload : m.load dt 5 = dateBytes tm) : tfdtToTm m dt = tm := by
  obtain ⟨hday, hhour, hmin, hsec⟩ := dateBytes_fields hvalid hrange hload
  generalize hk : (if tm.mon + 1 = 1 ∨ tm.mon + 1 = 2 then (1 : Int) else 0) = k
  have hnumber : tmToMjd tm = 14956 + tm.mday + daysOfYears (tm.year - k) +
      daysOfMonths (tm.mon + 1 + 1 + k * 12) := by
    simp only [tmToMjd, hk]
  obtain ⟨hy, hm, hd⟩ := hvalid.parts hrange hk.symm
  have hyear := year_of_mjd hy hm hvalid.mday.1 hd
  have hmonth := month_of_mjd hm hvalid.mday.1 hd
  have hmon := hvalid.mon
  have hk' : (if tm.mon + 1 + 1 + k * 12 = 14 ∨ tm.mon + 1 + 1 + k * 12 = 15 then (1 : Int) else 0) = k := by
    split_ifs at hk ⊢ <;> omega
  simp only [tfdtToTm, hday, hnumber, hyear, hmonth, hk', hhour, hmin, hsec]
  obtain ⟨sec, min, hour, mday, mon, year⟩ := tm
  simp only [Tm.mk.injEq, true_and]
  exact ⟨by omega, by omega, by omega⟩

/-- The calendar of the host at one moment: the broken-down time is valid, in range, and taken back. -/
structure Dated (h : Host σ) (t : Int) : Prop where
  valid : (h.localtime t).Valid
  inRange : (h.localtime t).InRange
  inverse : h.mktime (h.localtime t) = t

/-- **Dates.** A time of the range in which the device has dates survives being stored and read. -/
theorem tfdtToTime_dateBytes (h : Dated e.toHost t) (hload : m.load dt 5 = dateBytes (e.localtime t)) :
    tfdtToTime e m dt = t := by
  have htm := tfdtToTm_dateBytes h.valid h.inRange hload
  have hhour : m (dt + 2) ≠ 0xff := by
    intro hbyte
    have hfield := congrArg Tm.hour htm
    have hvalid := h.valid.hour.2
    simp only [tfdtToTm, hbyte] at hfield
    have h255 : (0xff : UInt8).toNat = 255 := rfl
    omega
  rw [tfdtToTime, if_neg fun hall => hhour hall.2.2.2, htm, h.inverse]

end RoundTrip

end Topfield
