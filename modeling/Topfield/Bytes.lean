import Topfield.Lib.Memory

/-!
# Byte order helpers

The functions of `tf_bytes.c`, on the memory behind their pointer argument. Packets are kept in
big-endian order and have their neighbouring bytes exchanged for the wire; the `raw` getters read a
field before that exchange is undone.
-/

namespace Topfield

open Lib

def getU16 (m : Mem) (a : Nat) : UInt16 :=
  (((m a).toUInt16 <<< 8) &&& 0xff00) ||| ((m (a + 1)).toUInt16 &&& 0x00ff)

def putU16 (m : Mem) (a : Nat) (val : UInt16) : Mem :=
  (m.set a ((val >>> 8) &&& 0xFF).toUInt8).set (a + 1) (val &&& 0xFF).toUInt8

def getU24 (m : Mem) (a : Nat) : UInt32 :=
  ((m a).toUInt32 <<< 16) ||| ((m (a + 1)).toUInt32 <<< 8) ||| (m (a + 2)).toUInt32

def getU32 (m : Mem) (a : Nat) : UInt32 :=
  ((m a).toUInt32 <<< 24) ||| ((m (a + 1)).toUInt32 <<< 16) ||| ((m (a + 2)).toUInt32 <<< 8) |||
    (m (a + 3)).toUInt32

/-- Retrieve a 32-bit integer from the raw buffer, prior to byte swapping. -/
def getU32Raw (m : Mem) (a : Nat) : UInt32 :=
  ((m (a + 1)).toUInt32 <<< 24) ||| ((m a).toUInt32 <<< 16) ||| ((m (a + 3)).toUInt32 <<< 8) |||
    (m (a + 2)).toUInt32

def getU16Raw (m : Mem) (a : Nat) : UInt16 :=
  (((m (a + 1)).toUInt16 <<< 8) &&& 0xff00) ||| ((m a).toUInt16 &&& 0x00ff)

def putU32 (m : Mem) (a : Nat) (val : UInt32) : Mem :=
  (((m.set a ((val >>> 24) &&& 0xFF).toUInt8).set (a + 1) ((val >>> 16) &&& 0xFF).toUInt8).set
    (a + 2) ((val >>> 8) &&& 0xFF).toUInt8).set (a + 3) (val &&& 0xFF).toUInt8

def getU64 (m : Mem) (a : Nat) : UInt64 :=
  let r := (m a).toUInt64
  let r := (r <<< 8) ||| (m (a + 1)).toUInt64
  let r := (r <<< 8) ||| (m (a + 2)).toUInt64
  let r := (r <<< 8) ||| (m (a + 3)).toUInt64
  let r := (r <<< 8) ||| (m (a + 4)).toUInt64
  let r := (r <<< 8) ||| (m (a + 5)).toUInt64
  let r := (r <<< 8) ||| (m (a + 6)).toUInt64
  (r <<< 8) ||| (m (a + 7)).toUInt64

def putU64 (m : Mem) (a : Nat) (val : UInt64) : Mem :=
  (((((((m.set a ((val >>> 56) &&& 0xFF).toUInt8).set (a + 1) ((val >>> 48) &&& 0xFF).toUInt8).set
    (a + 2) ((val >>> 40) &&& 0xFF).toUInt8).set (a + 3) ((val >>> 32) &&& 0xFF).toUInt8).set
    (a + 4) ((val >>> 24) &&& 0xFF).toUInt8).set (a + 5) ((val >>> 16) &&& 0xFF).toUInt8).set
    (a + 6) ((val >>> 8) &&& 0xFF).toUInt8).set (a + 7) (val &&& 0xFF).toUInt8

/-- Byte swap the given number of bytes. The default build leaves this to the library's `swab`,
which exchanges whole pairs only. -/
def byteSwap (m : Mem) (count : Nat) : Mem := m.swab count

/-! ### The getters read big-endian numerals -/

private theorem shiftLeft_or_eq (hi lo : Nat) {i : Nat} (hlo : lo < 2 ^ i) :
    (hi <<< i) ||| lo = hi * 2 ^ i + lo := by
  rw [← Nat.shiftLeft_add_eq_or_of_lt hlo, Nat.shiftLeft_eq]

private theorem shiftLeft_mod_eq (b : UInt8) {i w : Nat} (h : 8 + i ≤ w) :
    b.toNat <<< i % 2 ^ w = b.toNat <<< i := by
  rw [Nat.shiftLeft_eq]
  apply Nat.mod_eq_of_lt
  calc
    b.toNat * 2 ^ i < 2 ^ 8 * 2 ^ i := Nat.mul_lt_mul_of_pos_right b.toNat_lt (Nat.two_pow_pos i)
    _ = 2 ^ (8 + i) := (pow_add 2 8 i).symm
    _ ≤ 2 ^ w := Nat.pow_le_pow_right (by decide) h

private theorem toNat_pair (hi lo : UInt8) :
    (((hi.toUInt16 <<< 8) &&& 0xff00) ||| (lo.toUInt16 &&& 0x00ff)).toNat =
      hi.toNat * 256 + lo.toNat := by
  have hhi := hi.toNat_lt
  have hlo := lo.toNat_lt
  have hshift : hi.toNat <<< 8 % 65536 = hi.toNat <<< 8 := shiftLeft_mod_eq hi (w := 16) (by decide)
  have hmaskHi : hi.toNat <<< 8 &&& 65280 = hi.toNat <<< 8 := by
    rw [show 65280 = 255 <<< 8 from rfl, ← Nat.shiftLeft_and_distrib,
      show (255 : Nat) = 2 ^ 8 - 1 from rfl, Nat.and_two_pow_sub_one_eq_mod, Nat.mod_eq_of_lt hhi]
  have hmaskLo : lo.toNat &&& 255 = lo.toNat := by
    rw [show (255 : Nat) = 2 ^ 8 - 1 from rfl, Nat.and_two_pow_sub_one_eq_mod, Nat.mod_eq_of_lt hlo]
  simp only [UInt16.toNat_or, UInt16.toNat_and, UInt16.toNat_shiftLeft, UInt8.toNat_toUInt16,
    UInt16.toNat_ofNat]
  simp [hshift, hmaskHi, hmaskLo, shiftLeft_or_eq _ _ hlo]

private theorem toNat_quad (b0 b1 b2 b3 : UInt8) :
    ((b0.toUInt32 <<< 24) ||| (b1.toUInt32 <<< 16) ||| (b2.toUInt32 <<< 8) ||| b3.toUInt32).toNat =
      ((b0.toNat * 256 + b1.toNat) * 256 + b2.toNat) * 256 + b3.toNat := by
  have h0 := b0.toNat_lt
  have h1 := b1.toNat_lt
  have h2 := b2.toNat_lt
  have h3 := b3.toNat_lt
  have hw0 : b0.toNat <<< 24 % 4294967296 = _ := shiftLeft_mod_eq b0 (w := 32) (by decide)
  have hw1 : b1.toNat <<< 16 % 4294967296 = _ := shiftLeft_mod_eq b1 (w := 32) (by decide)
  have hw2 : b2.toNat <<< 8 % 4294967296 = _ := shiftLeft_mod_eq b2 (w := 32) (by decide)
  simp only [UInt32.toNat_or, UInt32.toNat_shiftLeft, UInt8.toNat_toUInt32]
  simp only [UInt32.toNat_ofNat, Nat.reducePow, Nat.reduceMod, hw0, hw1, hw2]
  rw [Nat.or_assoc, Nat.or_assoc, shiftLeft_or_eq b2.toNat _ h3,
    shiftLeft_or_eq b1.toNat _ (by omega), shiftLeft_or_eq b0.toNat _ (by omega)]
  omega

/-- One step of `get_u64`: the value so far moves up a byte. -/
private theorem toNat_shift_in {r : UInt64} {n : Nat} (b : UInt8) (hr : r.toNat = n)
    (hn : n < 2 ^ 56) : ((r <<< 8) ||| b.toUInt64).toNat = n * 256 + b.toNat := by
  have hb := b.toNat_lt
  have hw : n <<< 8 % 18446744073709551616 = n <<< 8 := by
    rw [Nat.shiftLeft_eq]
    omega
  simp only [UInt64.toNat_or, UInt64.toNat_shiftLeft, UInt8.toNat_toUInt64, hr]
  simp [hw, shiftLeft_or_eq _ _ hb]

theorem getU16_toNat (m : Mem) (a : Nat) : (getU16 m a).toNat = ofBE (m.load a 2) := by
  rw [getU16, toNat_pair]
  simp [ofBE, Mem.load]

theorem getU16Raw_toNat (m : Mem) (a : Nat) :
    (getU16Raw m a).toNat = ofBE (swapPairs (m.load a 2)) := by
  rw [getU16Raw, toNat_pair]
  simp [ofBE, Mem.load]

theorem getU16Raw_eq_getU16_swab (m : Mem) {n a : Nat} (heven : a % 2 = 0) (h : a + 2 ≤ n) :
    getU16Raw m a = getU16 (m.swab n) a := by
  rw [getU16Raw, getU16, Mem.swab_even m heven (by omega), Mem.swab_odd m heven (by omega)]

theorem getU24_toNat (m : Mem) (a : Nat) : (getU24 m a).toNat = ofBE (m.load a 3) := by
  have hquad := toNat_quad 0 (m a) (m (a + 1)) (m (a + 2))
  have hzero : (0 : UInt8).toUInt32 <<< 24 = 0 := rfl
  rw [hzero, UInt32.zero_or] at hquad
  rw [getU24, hquad]
  simp [ofBE, Mem.load]

theorem getU32_toNat (m : Mem) (a : Nat) : (getU32 m a).toNat = ofBE (m.load a 4) := by
  rw [getU32, toNat_quad]
  simp [ofBE, Mem.load]

theorem getU32Raw_toNat (m : Mem) (a : Nat) :
    (getU32Raw m a).toNat = ofBE (swapPairs (m.load a 4)) := by
  rw [getU32Raw, toNat_quad]
  simp [ofBE, Mem.load]

theorem getU64_toNat (m : Mem) (a : Nat) : (getU64 m a).toNat = ofBE (m.load a 8) := by
  have hb : ∀ i, (m i).toNat < 256 := fun i => (m i).toNat_lt
  have h0 := hb a
  have h1 := hb (a + 1)
  have h2 := hb (a + 2)
  have h3 := hb (a + 3)
  have h4 := hb (a + 4)
  have h5 := hb (a + 5)
  have h6 := hb (a + 6)
  have r0 : (m a).toUInt64.toNat = (m a).toNat := UInt8.toNat_toUInt64 _
  have r1 := toNat_shift_in (m (a + 1)) r0 (by omega)
  have r2 := toNat_shift_in (m (a + 2)) r1 (by omega)
  have r3 := toNat_shift_in (m (a + 3)) r2 (by omega)
  have r4 := toNat_shift_in (m (a + 4)) r3 (by omega)
  have r5 := toNat_shift_in (m (a + 5)) r4 (by omega)
  have r6 := toNat_shift_in (m (a + 6)) r5 (by omega)
  have r7 := toNat_shift_in (m (a + 7)) r6 (by omega)
  simp only [getU64, r7]
  simp [ofBE, Mem.load]

/-! ### The putters store big-endian numerals -/

private theorem mask_toUInt8 (n : Nat) : n &&& 255 = n % 256 := by
  rw [show (255 : Nat) = 2 ^ 8 - 1 from rfl, Nat.and_two_pow_sub_one_eq_mod]

private theorem u16_byte (v : UInt16) : (v &&& 0xFF).toUInt8 = UInt8.ofNat v.toNat := by
  apply UInt8.toNat_inj.mp
  simp [mask_toUInt8]

private theorem u32_byte (v : UInt32) : (v &&& 0xFF).toUInt8 = UInt8.ofNat v.toNat := by
  apply UInt8.toNat_inj.mp
  simp [mask_toUInt8]

private theorem u64_byte (v : UInt64) : (v &&& 0xFF).toUInt8 = UInt8.ofNat v.toNat := by
  apply UInt8.toNat_inj.mp
  simp [mask_toUInt8]

theorem putU16_eq_store (m : Mem) (a : Nat) (v : UInt16) :
    putU16 m a v = m.store a (toBE 2 v.toNat) := by
  simp only [putU16, u16_byte]
  simp [toBE, Mem.store_cons, Nat.shiftRight_eq_div_pow]

theorem putU32_eq_store (m : Mem) (a : Nat) (v : UInt32) :
    putU32 m a v = m.store a (toBE 4 v.toNat) := by
  simp only [putU32, u32_byte]
  simp [toBE, Mem.store_cons, Nat.shiftRight_eq_div_pow]

theorem putU64_eq_store (m : Mem) (a : Nat) (v : UInt64) :
    putU64 m a v = m.store a (toBE 8 v.toNat) := by
  simp only [putU64, u64_byte]
  simp [toBE, Mem.store_cons, Nat.shiftRight_eq_div_pow]

end Topfield
