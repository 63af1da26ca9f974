import Topfield.Dates

/-!
# The device's day numbers and the calendar

The day number of a date is its number in days from 17 November 1858, on every day from 1 March 1900 on. On a
host with a Gregorian calendar at a fixed offset from UTC, a time is stored under that number and read back.
-/

namespace Topfield

open Lib

def mjdEpoch : Date := ⟨1858, 11, 17, by decide, by decide⟩

def unixEpoch : Date := ⟨1970, 1, 1, january_valid, by decide⟩

namespace Tm

def date (tm : Tm) (h : tm.Valid) : Date where
  year := tm.year + 1900
  month := tm.mon + 1
  day := tm.mday
  month_valid := ⟨by have := h.mon; omega, by have := h.mon; omega⟩
  day_valid := h.mday

def seconds (tm : Tm) : Int :=
  86400 * (firstOfMonth (tm.year + 1900) (tm.mon + 1) + tm.mday - 1 - unixEpoch.number) +
    3600 * tm.hour + 60 * tm.min + tm.sec

end Tm

/-- The C library's conversions on a host whose clock is `offset` seconds ahead of UTC. -/
structure Gregorian {σ : Type} (host : Host σ) (offset : Int) : Prop where
  valid : ∀ t, (host.localtime t).Valid
  localtime : ∀ t, (host.localtime t).seconds = t + offset
  mktime : ∀ tm : Tm, tm.Valid → host.mktime tm = tm.seconds - offset

def march1900 : Date := ⟨1900, 3, 1, march_valid, by decide⟩

/-- From 1 March 1900 to the last day whose number has sixteen bits. -/
structure Dateable (date : Date) : Prop where
  first : march1900.number ≤ date.number
  last : date.number ≤ mjdEpoch.number + 0xFFFF

/-- What is stored at `dt` for a time is its date in days from 17 November 1858 and its time of day, and is
read back as that time. -/
structure DateKept {σ : Type} (e : Env σ) (t : Int) (date : Date) (m : Mem) (dt : Nat) : Prop where
  mjd : Date.next^[(getU16 m dt).toNat] mjdEpoch = date
  hour : ((m (dt + 2)).toNat : Int) = (e.localtime t).hour
  min : ((m (dt + 3)).toNat : Int) = (e.localtime t).min
  sec : ((m (dt + 4)).toNat : Int) = (e.localtime t).sec
  back : tfdtToTime e m dt = t

theorem mjdEpoch_number : mjdEpoch.number = 678881 := by decide

/-- The last day whose number has sixteen bits. -/
def lastDay : Date := ⟨2038, 4, 22, by decide, by decide⟩

theorem lastDay_number : lastDay.number = mjdEpoch.number + 0xFFFF := by decide

theorem Dateable.inRange {tm : Tm} {h : tm.Valid} (hdate : Dateable (tm.date h)) : tm.InRange := by
  have hindex : (tm.date h).monthIndex = 12 * (tm.year + 1900) + (tm.mon + 1) - 1 := rfl
  have hmon := h.mon
  constructor
  · by_contra hout
    have hmarch : march1900.monthIndex = 22802 := by decide
    have hbefore : (tm.date h).monthIndex < march1900.monthIndex := by omega
    exact absurd hdate.first (Int.not_le.mpr (Date.number_lt_of_monthIndex_lt hbefore))
  · by_contra hout
    have hlast := hdate.last
    have hapril : lastDay.monthIndex = 24459 := by decide
    rw [← lastDay_number] at hlast
    by_cases hmonth : tm.year = 138 ∧ tm.mon = 3
    · have hnumber : (tm.date h).number = firstOfMonth (tm.year + 1900) (tm.mon + 1) + tm.mday - 1 := rfl
      have hlastDay : lastDay.number = firstOfMonth 2038 4 + 22 - 1 := rfl
      rw [hmonth.1, hmonth.2] at hnumber
      have hsame : firstOfMonth (138 + 1900) (3 + 1) = firstOfMonth 2038 4 := rfl
      omega
    · have hafter : lastDay.monthIndex < (tm.date h).monthIndex := by omega
      exact absurd hlast (Int.not_le.mpr (Date.number_lt_of_monthIndex_lt hafter))

/-! ### The day number -/

/-- In the years 1900 to 2038 every fourth year is a leap year. -/
theorem daysOfYears_eq_daysBeforeYear {y : Int} (hlow : 0 ≤ y) (hhigh : y ≤ 138) :
    daysOfYears y = daysBeforeYear (y + 1900) - 693960 := by
  rw [daysOfYears_eq hlow, daysBeforeYear]
  by_cases hcentury : y < 100
  · rw [show (y + 1900) / 100 = 19 by omega, show (y + 1900) / 400 = 4 by omega]
    omega
  · rw [show (y + 1900) / 100 = 20 by omega, show (y + 1900) / 400 = 5 by omega]
    omega

/-- The months of 30.6001 days, beginning with the fourth, are those of the calendar. -/
theorem daysOfMonths_eq_daysBeforeMonth {m : Int} (hlow : 0 ≤ m) (hhigh : m ≤ 11) :
    daysOfMonths (m + 4) = daysBeforeMonth m + 122 := by
  interval_cases m <;> decide

/-- The day number is that of the calendar. -/
theorem tmToMjd_eq {tm : Tm} (h : tm.Valid) (hrange : tm.InRange) :
    tmToMjd tm = (tm.date h).number - mjdEpoch.number := by
  obtain ⟨hlow, hhigh⟩ := h.mon
  have hfirst := hrange.first
  have hlast := hrange.last
  have hnumber : (tm.date h).number = firstOfMonth (tm.year + 1900) (tm.mon + 1) + tm.mday - 1 := rfl
  rw [hnumber, mjdEpoch_number, firstOfMonth]
  simp only [tmToMjd]
  by_cases hwinter : tm.mon ≤ 1
  · have hyears := daysOfYears_eq_daysBeforeYear (show 0 ≤ tm.year - 1 by omega) (by omega)
    have hmonths := daysOfMonths_eq_daysBeforeMonth (show 0 ≤ tm.mon + 10 by omega) (by omega)
    rw [if_pos (show tm.mon + 1 = 1 ∨ tm.mon + 1 = 2 by omega), if_pos (show tm.mon + 1 ≤ 2 by omega), hyears,
      show tm.mon + 1 + 1 + 1 * 12 = tm.mon + 10 + 4 by omega, hmonths,
      show tm.year - 1 + 1900 = tm.year + 1900 - 1 by omega, show tm.mon + 1 + 9 = tm.mon + 10 by omega]
    omega
  · have hyears := daysOfYears_eq_daysBeforeYear (show 0 ≤ tm.year by omega) (by omega)
    have hmonths := daysOfMonths_eq_daysBeforeMonth (show 0 ≤ tm.mon - 2 by omega) (by omega)
    rw [if_neg (show ¬ (tm.mon + 1 = 1 ∨ tm.mon + 1 = 2) by omega), if_neg (show ¬ tm.mon + 1 ≤ 2 by omega),
      Int.sub_zero, hyears, show tm.mon + 1 + 1 + 0 * 12 = tm.mon - 2 + 4 by omega, hmonths,
      show tm.mon + 1 - 3 = tm.mon - 2 by omega]
    omega

/-- **Dates.** A time from 1 March 1900 to the last day whose number has sixteen bits is stored under the date
of the calendar, and read back. -/
theorem timeToTfdt_kept {σ : Type} {e : Env σ} {offset : Int} (h : Gregorian e.toHost offset) {t : Int}
    (hdate : Dateable ((e.localtime t).date (h.valid t))) (m : Mem) (dt : Nat) :
    DateKept e t ((e.localtime t).date (h.valid t)) (timeToTfdt e t m dt) dt := by
  have hrange := hdate.inRange
  have hload : (timeToTfdt e t m dt).load dt 5 = dateBytes (e.localtime t) := by
    rw [timeToTfdt_eq_store]
    exact Mem.load_store_self m dt (dateBytes (e.localtime t))
  obtain ⟨hmjd, hhour, hmin, hsec⟩ := dateBytes_fields (h.valid t) hrange hload
  have hdated : Dated e.toHost t := by
    refine ⟨h.valid t, hrange, ?_⟩
    rw [h.mktime _ (h.valid t), h.localtime, Int.add_sub_cancel]
  refine ⟨?_, hhour, hmin, hsec, tfdtToTime_dateBytes hdated hload⟩
  rw [Date.iterate_next_eq_iff, hmjd, tmToMjd_eq (h.valid t) hrange]
  omega

/-! ### A host with this calendar -/

def Host.gregorian (σ : Type) (offset : Int) : Host σ where
  stack _ := fun _ => 0
  localtime t :=
    let date := Date.ofNumber (unixEpoch.number + (t + offset) / 86400)
    { sec := (t + offset) % 60
      min := (t + offset) / 60 % 60
      hour := (t + offset) / 3600 % 24
      mday := date.day
      mon := date.month - 1
      year := date.year - 1900 }
  mktime tm := tm.seconds - offset

theorem number_gregorian {σ : Type} {offset t : Int} (h : ((Host.gregorian σ offset).localtime t).Valid) :
    (((Host.gregorian σ offset).localtime t).date h).number = unixEpoch.number + (t + offset) / 86400 := by
  rw [← Date.number_ofNumber (unixEpoch.number + (t + offset) / 86400)]
  simp only [Date.number, Tm.date, Host.gregorian, Int.sub_add_cancel]

theorem gregorian_host (σ : Type) (offset : Int) : Gregorian (Host.gregorian σ offset) offset := by
  refine ⟨fun t => ?_, fun t => ?_, fun tm _ => rfl⟩
  · have hmonth := (Date.ofNumber (unixEpoch.number + (t + offset) / 86400)).month_valid
    have hday := (Date.ofNumber (unixEpoch.number + (t + offset) / 86400)).day_valid
    refine ⟨?_, ?_, ?_, ?_, ?_⟩
    · simp only [Host.gregorian]
      omega
    · simp only [Host.gregorian]
      omega
    · simp only [Host.gregorian]
      omega
    · simp only [Host.gregorian]
      omega
    · simp only [Host.gregorian, Int.sub_add_cancel]
      exact hday
  · have hnumber := Date.number_ofNumber (unixEpoch.number + (t + offset) / 86400)
    rw [Date.number] at hnumber
    simp only [Tm.seconds, Host.gregorian, Int.sub_add_cancel]
    rw [hnumber]
    omega

/-- A device that is not there, on this host. -/
def Env.gregorian (offset : Int) : Env Unit where
  toHost := Host.gregorian Unit offset
  write _ _ _ _ := (-1, ())
  read _ _ _ _ := ((-1, fun _ => 0), ())

theorem timeToTfdt_kept_2005 :
    DateKept (Env.gregorian 36000) 1120183200
      (((Env.gregorian 36000).localtime 1120183200).date ((gregorian_host Unit 36000).valid 1120183200))
      (timeToTfdt (Env.gregorian 36000) 1120183200 (fun _ => 0) 0) 0 := by
  have hnumber : (((Env.gregorian 36000).localtime 1120183200).date
      ((gregorian_host Unit 36000).valid 1120183200)).number = unixEpoch.number + 12965 :=
    number_gregorian _
  refine timeToTfdt_kept (gregorian_host Unit 36000) ⟨?_, ?_⟩ _ _
  · rw [hnumber]
    decide
  · rw [hnumber]
    decide

/-! ### Every date of the device -/

/-- A day from 1 March 1900 on, and a time of day. -/
structure Stamped (m : Mem) (dt : Nat) : Prop where
  mjd : 15079 ≤ (getU16 m dt).toNat
  hour : (m (dt + 2)).toNat ≤ 23
  min : (m (dt + 3)).toNat ≤ 59
  sec : (m (dt + 4)).toNat ≤ 59

def stampSeconds (m : Mem) (dt : Nat) : Int :=
  86400 * (getU16 m dt).toNat + 3600 * (m (dt + 2)).toNat + 60 * (m (dt + 3)).toNat + (m (dt + 4)).toNat

/-- A host whose minutes have sixty seconds. -/
structure Regular {σ : Type} (host : Host σ) (offset : Int) : Prop extends Gregorian host offset where
  sec : ∀ t, (host.localtime t).sec ≤ 59

/-- The broken-down time of a stamp by the calendar. -/
def calendarTm (m : Mem) (dt : Nat) : Tm :=
  let date := Date.ofNumber (mjdEpoch.number + (getU16 m dt).toNat)
  { sec := (m (dt + 4)).toNat
    min := (m (dt + 3)).toNat
    hour := (m (dt + 2)).toNat
    mday := date.day
    mon := date.month - 1
    year := date.year - 1900 }

namespace Stamped

variable {m m' : Mem} {dt dt' : Nat}

theorem valid (h : Stamped m dt) : (calendarTm m dt).Valid := by
  have hmonth := (Date.ofNumber (mjdEpoch.number + (getU16 m dt).toNat)).month_valid
  have hday := (Date.ofNumber (mjdEpoch.number + (getU16 m dt).toNat)).day_valid
  have hhour := h.hour
  have hmin := h.min
  have hsec := h.sec
  refine ⟨?_, ?_, ?_, ?_, ?_⟩
  · simp only [calendarTm]
    omega
  · simp only [calendarTm]
    omega
  · simp only [calendarTm]
    omega
  · simp only [calendarTm]
    omega
  · simp only [calendarTm, Int.sub_add_cancel]
    exact hday

theorem number_date (h : Stamped m dt) :
    ((calendarTm m dt).date h.valid).number = mjdEpoch.number + (getU16 m dt).toNat := by
  rw [← Date.number_ofNumber (mjdEpoch.number + (getU16 m dt).toNat)]
  simp only [Date.number, Tm.date, calendarTm, Int.sub_add_cancel]

theorem dateable (h : Stamped m dt) : Dateable ((calendarTm m dt).date h.valid) := by
  have hmarch : march1900.number = mjdEpoch.number + 15079 := by decide
  have hlow := h.mjd
  have hhigh := (getU16 m dt).toNat_lt
  constructor
  · rw [h.number_date, hmarch]
    omega
  · rw [h.number_date]
    omega

theorem load_eq (h : Stamped m dt) : m.load dt 5 = dateBytes (calendarTm m dt) := by
  have hmjd : tmToMjd (calendarTm m dt) = ((getU16 m dt).toNat : Int) := by
    rw [tmToMjd_eq h.valid h.dateable.inRange, h.number_date]
    omega
  have hword : UInt16.ofInt (tmToMjd (calendarTm m dt)) = getU16 m dt := by
    apply UInt16.toNat_inj.mp
    have hlt := (getU16 m dt).toNat_lt
    rw [hmjd, UInt16.ofInt, UInt16.toNat_ofNat']
    omega
  have hbyte (b : UInt8) : UInt8.ofInt (b.toNat : Int) = b := by
    have hle := b.toNat_lt
    exact UInt8.toNat_inj.mp (Int.ofNat_inj.mp (toNat_ofInt_byte (Int.natCast_nonneg _) (by omega)))
  have hbytes := toBE_ofBE (m.load dt 2)
  rw [Mem.length_load, ← getU16_toNat] at hbytes
  rw [Mem.load_add m dt 2 3, dateBytes, hword, hbytes]
  simp only [calendarTm, hbyte]
  rfl

theorem tfdtToTm_eq (h : Stamped m dt) : tfdtToTm m dt = calendarTm m dt :=
  tfdtToTm_dateBytes h.valid h.dateable.inRange h.load_eq

theorem seconds_eq (h : Stamped m dt) :
    (calendarTm m dt).seconds = stampSeconds m dt - 86400 * 40587 := by
  have hnumber := h.number_date
  have hunix : unixEpoch.number = mjdEpoch.number + 40587 := by decide
  rw [Date.number] at hnumber
  simp only [Tm.date] at hnumber
  rw [Tm.seconds, hnumber, hunix, stampSeconds]
  simp only [calendarTm]
  ring

theorem tfdtToTime_eq {σ : Type} {e : Env σ} {offset : Int} (hhost : Gregorian e.toHost offset) (h : Stamped m dt) :
    tfdtToTime e m dt = stampSeconds m dt - 86400 * 40587 - offset := by
  have hhour := h.hour
  have hdate : m (dt + 2) ≠ 0xff := by
    intro hbyte
    rw [hbyte] at hhour
    exact absurd hhour (by decide)
  rw [tfdtToTime, if_neg fun hall => hdate hall.2.2.2, h.tfdtToTm_eq, hhost.mktime _ h.valid, h.seconds_eq]

/-- Read as one number, the bytes of a stamp are in the order of the moments. -/
theorem stampSeconds_lt_iff (h : Stamped m dt) (h' : Stamped m' dt') :
    stampSeconds m dt < stampSeconds m' dt' ↔ ofBE (m.load dt 5) < ofBE (m'.load dt' 5) := by
  have hvalue (m : Mem) (dt : Nat) : ofBE (m.load dt 5) =
      0x1000000 * (getU16 m dt).toNat + 0x10000 * (m (dt + 2)).toNat + 0x100 * (m (dt + 3)).toNat +
        (m (dt + 4)).toNat := by
    rw [getU16_toNat]
    simp only [Mem.load, ofBE, List.foldl_cons, List.foldl_nil]
    ring
  rw [hvalue, hvalue]
  simp only [stampSeconds]
  have hhour := h.hour
  have hmin := h.min
  have hsec := h.sec
  have hhour' := h'.hour
  have hmin' := h'.min
  have hsec' := h'.sec
  omega

end Stamped

theorem Tm.eq_of_seconds {tm tm' : Tm} (h : tm.Valid) (h' : tm'.Valid) (hsec : tm.sec ≤ 59) (hsec' : tm'.sec ≤ 59)
    (heq : tm.seconds = tm'.seconds) : tm = tm' := by
  have hhour := h.hour
  have hmin := h.min
  have hhour' := h'.hour
  have hmin' := h'.min
  have hlow := h.sec
  have hlow' := h'.sec
  have hnumber : (tm.date h).number = firstOfMonth (tm.year + 1900) (tm.mon + 1) + tm.mday - 1 := rfl
  have hnumber' : (tm'.date h').number = firstOfMonth (tm'.year + 1900) (tm'.mon + 1) + tm'.mday - 1 := rfl
  simp only [Tm.seconds, ← hnumber, ← hnumber'] at heq
  have hdate : tm.date h = tm'.date h' := Date.number_injective (by omega)
  have hyear : tm.year + 1900 = tm'.year + 1900 := congrArg Date.year hdate
  have hmon : tm.mon + 1 = tm'.mon + 1 := congrArg Date.month hdate
  have hmday : tm.mday = tm'.mday := congrArg Date.day hdate
  rw [hdate] at heq
  obtain ⟨sec, min, hour, mday, mon, year⟩ := tm
  obtain ⟨sec', min', hour', mday', mon', year'⟩ := tm'
  simp only at *
  rw [Tm.mk.injEq]
  omega

/-- **Stamps.** Every date of the device from 1 March 1900 on with a time of day is read as a moment, stored again it
gives the same bytes, and of two of them the earlier one has the smaller bytes. -/
theorem stamps_faithful {σ : Type} {e : Env σ} {offset : Int} (hhost : Regular e.toHost offset) {m m' : Mem}
    {dt dt' : Nat} (h : Stamped m dt) (h' : Stamped m' dt') :
    (timeToTfdt e (tfdtToTime e m dt) m' dt').load dt' 5 = m.load dt 5 ∧
      (tfdtToTime e m dt < tfdtToTime e m' dt' ↔ ofBE (m.load dt 5) < ofBE (m'.load dt' 5)) := by
  have htime := h.tfdtToTime_eq hhost.toGregorian
  have htime' := h'.tfdtToTime_eq hhost.toGregorian
  constructor
  · have hsame : e.localtime (tfdtToTime e m dt) = calendarTm m dt := by
      refine Tm.eq_of_seconds (hhost.valid _) h.valid (hhost.sec _) ?_ ?_
      · exact Int.ofNat_le.mpr h.sec
      · rw [hhost.localtime, h.seconds_eq, htime, Int.sub_add_cancel]
    rw [timeToTfdt_eq_store, hsame, h.load_eq]
    exact Mem.load_store_self m' dt' (dateBytes (calendarTm m dt))
  · rw [← h.stampSeconds_lt_iff h', htime, htime']
    omega

theorem regular_host (σ : Type) (offset : Int) : Regular (Host.gregorian σ offset) offset := by
  refine ⟨gregorian_host σ offset, fun t => ?_⟩
  simp only [Host.gregorian]
  omega

/-- The last second of 28 February and the first of 1 March 2005. -/
theorem stamps_faithful_february :
    let e := Env.gregorian 3600
    let m := Mem.ofList [0xd0, 0xb5, 23, 59, 59]
    let m' := Mem.ofList [0xd0, 0xb6, 0, 0, 0]
    (timeToTfdt e (tfdtToTime e m 0) m' 0).load 0 5 = m.load 0 5 ∧
      (tfdtToTime e m 0 < tfdtToTime e m' 0 ↔ ofBE (m.load 0 5) < ofBE (m'.load 0 5)) :=
  stamps_faithful (regular_host Unit 3600) ⟨by decide, by decide, by decide, by decide⟩
    ⟨by decide, by decide, by decide, by decide⟩

end Topfield
