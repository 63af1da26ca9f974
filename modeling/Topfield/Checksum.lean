import Topfield.Crc16
import Topfield.Lib.Crc

/-!
# What the checksum computes

The table of `crc16.c` holds the remainders of the 256 bytes under the reflected polynomial, so
`crc16_ansi` is the bit-by-bit division of its bytes by `0x8005`, from the lowest bit of each byte on.
-/

namespace Topfield

open Lib

/-- The reflected polynomial: `0x8005` read from its other end. -/
abbrev crc16Poly : BitVec 16 := 0xA001#16

theorem reverse_crc16Poly : crc16Poly.reverse = 0x8005#16 := by
  decide

theorem toList_crc16Table : crc16Table.toList =
    (List.range 256).map fun i => UInt16.ofBitVec (Crc.shifts crc16Poly 8 (BitVec.ofNat 16 i)) := by
  decide +kernel

/-- Every entry of the table is the remainder of its index. -/
theorem crc16Table_eq (i : UInt8) :
    (crc16Table.getD i.toNat 0).toBitVec = Crc.shifts crc16Poly 8 (i.toBitVec.setWidth 16) := by
  have hindex : BitVec.ofNat 16 i.toNat = i.toBitVec.setWidth 16 := by
    apply BitVec.eq_of_toNat_eq
    rw [BitVec.toNat_ofNat, BitVec.toNat_setWidth]
    rfl
  rw [Array.getD_eq_getD_getElem?, ← Array.getElem?_toList, toList_crc16Table, List.getElem?_map,
    List.getElem?_range i.toNat_lt]
  show Crc.shifts crc16Poly 8 (BitVec.ofNat 16 i.toNat) = _
  rw [hindex]

theorem crc16Step_eq (crc : UInt16) (byte : UInt8) :
    (crc16Step crc byte).toBitVec = Crc.divide crc16Poly crc.toBitVec (Crc.byteBits byte) := by
  have hindex : ((crc ^^^ byte.toUInt16) &&& 0xff).toNat = (crc ^^^ byte.toUInt16).toUInt8.toNat := by
    rw [UInt16.toNat_and, UInt16.toNat_toUInt8]
    exact Nat.and_two_pow_sub_one_eq_mod _ 8
  have hword : (crc ^^^ byte.toUInt16).toUInt8.toBitVec.setWidth 16 =
      (crc.toBitVec ^^^ byte.toBitVec.setWidth 16) &&& 0xff#16 := by
    apply BitVec.eq_of_toNat_eq
    rw [BitVec.toNat_and, BitVec.toNat_ofNat, BitVec.toNat_setWidth]
    show (crc ^^^ byte.toUInt16).toUInt8.toNat % _ = (crc ^^^ byte.toUInt16).toNat &&& 0xff
    rw [← hindex, UInt16.toNat_and]
    exact Nat.mod_eq_of_lt (Nat.and_lt_two_pow _ (by decide))
  rw [crc16Step, UInt16.toBitVec_xor, UInt16.toBitVec_shiftRight, hindex, crc16Table_eq, hword,
    Crc.divide_byteBits (by decide)]
  rfl

theorem foldl_crc16Step (crc : UInt16) (bytes : List UInt8) :
    (bytes.foldl crc16Step crc).toBitVec =
      Crc.divide crc16Poly crc.toBitVec (Crc.bitString bytes) := by
  induction bytes generalizing crc with
  | nil => rfl
  | cons byte rest ih =>
    rw [List.foldl_cons, ih, crc16Step_eq, ← Crc.divide_append]
    rfl

theorem crc16Ansi_ofList (crc : UInt16) (bytes : List UInt8) :
    crc16Ansi crc (Mem.ofList bytes) bytes.length = bytes.foldl crc16Step crc := by
  rw [crc16Ansi_eq_foldl, Mem.load_ofList_self]

/-- **The checksum is a division.** From any starting value and over any bytes, `crc16_ansi` yields the
remainder of the reflected division, which is the mirror image of the one by `0x8005`; a string may be
divided in two parts. -/
theorem crc16Ansi_eq_divide (crc : UInt16) :
    (∀ (data : Mem) (size : Nat),
      (crc16Ansi crc data size).toBitVec =
          Crc.divide crc16Poly crc.toBitVec (Crc.bitString (data.load 0 size)) ∧
        (crc16Ansi crc data size).toBitVec.reverse =
          Crc.divideMsb 0x8005#16 crc.toBitVec.reverse (Crc.bitString (data.load 0 size))) ∧
      ∀ a b : List UInt8,
        crc16Ansi (crc16Ansi crc (Mem.ofList a) a.length) (Mem.ofList b) b.length =
          crc16Ansi crc (Mem.ofList (a ++ b)) (a ++ b).length := by
  have hdivide (data : Mem) (size : Nat) : (crc16Ansi crc data size).toBitVec =
      Crc.divide crc16Poly crc.toBitVec (Crc.bitString (data.load 0 size)) := by
    rw [crc16Ansi_eq_foldl, foldl_crc16Step]
  refine ⟨fun data size => ⟨hdivide data size, ?_⟩, fun a b => ?_⟩
  · rw [hdivide, Crc.reverse_divide, reverse_crc16Poly]
  · rw [crc16Ansi_ofList, crc16Ansi_ofList, crc16Ansi_ofList, List.foldl_append]

/-- The check value of this checksum, over the digits from 1 to 9. -/
example : crc16Ansi 0 (Mem.ofList [0x31, 0x32, 0x33, 0x34, 0x35, 0x36, 0x37, 0x38, 0x39]) 9 = 0xBB3D := by
  decide +kernel

/-! ### Errors it notices -/

/-- Two byte strings that differ only within two consecutive bytes have different checksums. -/
theorem foldl_crc16Step_burst (crc : UInt16) (before after : List UInt8) {left right : List UInt8}
    (hlength : left.length = right.length) (hfits : left.length ≤ 2) (hne : left ≠ right) :
    (before ++ left ++ after).foldl crc16Step crc ≠ (before ++ right ++ after).foldl crc16Step crc := by
  intro h
  have hbits := congrArg UInt16.toBitVec h
  simp only [foldl_crc16Step, Crc.bitString_append] at hbits
  refine Crc.divide_burst (by decide) crc.toBitVec (Crc.bitString before) (Crc.bitString after) ?_ ?_ ?_ hbits
  · rw [Crc.length_bitString, Crc.length_bitString, hlength]
  · rw [Crc.length_bitString]
    omega
  · exact fun hbits => hne (Crc.bitString_injective hbits)

end Topfield
