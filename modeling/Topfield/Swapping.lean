import Topfield.Bytes

/-!
# Exchanging neighbouring bytes

`byte_swap` is built in two ways: with the library's `swab`, or with a loop of its own. Both exchange the
bytes at `2k` and `2k + 1`, and the `raw` getters read a field as it is after the exchange.
-/

namespace Topfield

open Lib

/-- The loop of the build without `swab`. Its index is an `int`; there is no result if it overflows. -/
def byteSwapLoop (d : Mem) (count i : Nat) : Option Mem :=
  if i < count then
    let t := d i
    let d := d.set i (d (i + 1))
    let d := d.set (i + 1) t
    if i + 2 < 2 ^ 31 then byteSwapLoop d count (i + 2) else none
  else
    some d
termination_by count - i

def byteSwapManual (packet : Mem) (count : Nat) : Option Mem := byteSwapLoop packet count 0

/-- The two builds agree, and the exchange is what the callers take it for. -/
structure SwapsAlike (m : Mem) (count : Nat) : Prop where
  manual : byteSwapManual m count = some (byteSwap m count)
  twice : byteSwap (byteSwap m count) count = m
  above : ∀ i, count ≤ i → byteSwap m count i = m i
  u16 : ∀ a, a % 2 = 0 → a + 2 ≤ count → getU16Raw m a = getU16 (byteSwap m count) a
  u32 : ∀ a, a % 2 = 0 → a + 4 ≤ count → getU32Raw m a = getU32 (byteSwap m count) a

/-- With `i` bytes exchanged the loop goes on to exchange all of them. -/
theorem byteSwapLoop_eq_some (m : Mem) {count i : Nat} (hcount : count % 2 = 0) (hsmall : count < 2 ^ 31)
    (heven : i % 2 = 0) (hi : i ≤ count) : byteSwapLoop (m.swab i) count i = some (m.swab count) := by
  induction hleft : count - i using Nat.strongRecOn generalizing i with
  | _ left ih =>
    rw [byteSwapLoop]
    by_cases hturn : i < count
    · have hnext : i + 2 < 2 ^ 31 := by omega
      simp only [if_pos hturn, if_pos hnext]
      rw [Mem.swab_add_two m heven]
      exact ih (count - (i + 2)) (by omega) (by omega) (by omega) rfl
    · obtain rfl : i = count := by omega
      rw [if_neg hturn]

/-- A count that the index cannot reach has no result. -/
theorem byteSwapLoop_eq_none (d : Mem) {count i : Nat} (hlarge : 2 ^ 31 ≤ count) (hi : i < 2 ^ 31) :
    byteSwapLoop d count i = none := by
  induction hleft : count - i using Nat.strongRecOn generalizing d i with
  | _ left ih =>
    rw [byteSwapLoop, if_pos (hi.trans_le hlarge)]
    by_cases hnext : i + 2 < 2 ^ 31
    · simp only [if_pos hnext]
      exact ih (count - (i + 2)) (by omega) _ hnext rfl
    · exact if_neg hnext

theorem not_swapsAlike {m : Mem} {count : Nat} (hlarge : 2 ^ 31 ≤ count) : ¬ SwapsAlike m count := by
  intro h
  have hnone : byteSwapManual m count = none := byteSwapLoop_eq_none m hlarge (by decide)
  exact absurd (h.manual.symm.trans hnone) (Option.some_ne_none _)

/-- **Byte swapping.** For an even count the two builds of `byte_swap` are one function with the properties
its callers rely on, exactly if an `int` can count so far. -/
theorem swapsAlike_iff (m : Mem) {count : Nat} (heven : count % 2 = 0) : SwapsAlike m count ↔ count < 2 ^ 31 := by
  constructor
  · intro h
    by_contra hlarge
    exact not_swapsAlike (Nat.not_lt.mp hlarge) h
  · intro hsmall
    refine ⟨?_, Mem.swab_swab m heven, fun i hi => Mem.swab_above m hi, fun a ha hin => ?_, fun a ha hin => ?_⟩
    · have hloop := byteSwapLoop_eq_some m heven hsmall (Nat.zero_mod 2) (Nat.zero_le count)
      rwa [Mem.swab_zero] at hloop
    · exact getU16Raw_eq_getU16_swab m ha hin
    · have hsecond : (a + 2) % 2 = 0 := by omega
      rw [getU32Raw, getU32, byteSwap, Mem.swab_even m ha (by omega), Mem.swab_odd m ha (by omega),
        Mem.swab_even m hsecond (by omega), Mem.swab_odd m hsecond (by omega)]

theorem swapsAlike_iff_eight : SwapsAlike (Mem.ofList [0, 1, 2, 3, 4, 5, 6, 7]) 8 ↔ 8 < 2 ^ 31 :=
  swapsAlike_iff _ (by decide)

/-- With two bytes more than an `int` can count, the loop has no result. -/
theorem not_swapsAlike_past_int : ¬ SwapsAlike (fun _ => 0) (2 ^ 31 + 2) :=
  not_swapsAlike (by decide)

end Topfield
