import Topfield.Bytes
import Topfield.Handle

/-!
# Dates

The conversions of `mjd.c` between the device's date, a modified Julian day with a time, and the C
library's. The decimal constants are read as exact rationals and `(int)` truncates towards zero.
-/

namespace Topfield

open Lib

/-! `struct tf_datetime`: `mjd` at 0, `hour` at 2, `minute` at 3, `second` at 4. -/

abbrev sizeofDatetime : Nat := 5

variable {σ : Type} (e : Env σ)

/-- `(int)(n * 365.25)` -/
def daysOfYears (n : Int) : Int := (n * 36525).tdiv 100

/-- `(int)(n * 30.6001)` -/
def daysOfMonths (n : Int) : Int := (n * 306001).tdiv 10000

def tfdtToTm (m : Mem) (dt : Nat) : Tm :=
  let mjd : Int := (getU16 m dt).toNat
  let y := (100 * mjd - 1507820).tdiv 36525
  let mon := (10000 * mjd - 149561000 - 10000 * daysOfYears y).tdiv 306001
  let d := mjd - 14956 - daysOfYears y - daysOfMonths mon
  let k := if mon = 14 ∨ mon = 15 then 1 else 0
  { sec := (m (dt + 4)).toNat
    min := (m (dt + 3)).toNat
    hour := (m (dt + 2)).toNat
    mday := d
    mon := mon - 1 - k * 12 - 1
    year := y + k }

/-- Convert a date and time structure to `time_t`; all ones stand for no date. -/
def tfdtToTime (m : Mem) (dt : Nat) : Int :=
  if getU16 m dt = 0xffff ∧ m (dt + 4) = 0xff ∧ m (dt + 3) = 0xff ∧ m (dt + 2) = 0xff then
    0
  else
    e.mktime (tfdtToTm m dt)

/-- The day number `time_to_tfdt` computes. -/
def tmToMjd (tm : Tm) : Int :=
  let m := tm.mon + 1
  let k := if m = 1 ∨ m = 2 then 1 else 0
  14956 + tm.mday + daysOfYears (tm.year - k) + daysOfMonths (m + 1 + k * 12)

def timeToTfdt (t : Int) (m : Mem) (dt : Nat) : Mem :=
  let tm := e.localtime t
  let m := putU16 m dt (UInt16.ofInt (tmToMjd tm))
  let m := m.set (dt + 2) (UInt8.ofInt tm.hour)
  let m := m.set (dt + 3) (UInt8.ofInt tm.min)
  m.set (dt + 4) (UInt8.ofInt tm.sec)

end Topfield
