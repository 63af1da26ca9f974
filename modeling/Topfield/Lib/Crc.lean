import Mathlib.Data.List.Basic
import Mathlib.Data.Nat.Bitwise
import Mathlib.Tactic.SplitIfs

/-!
# Cyclic redundancy checks

The division of a bit string by a polynomial over the field of two elements, with the remainder in a
register of any width. A reflected register keeps the highest coefficient in its lowest bit, so a message
of bytes is divided from the low bit of every byte on. A step is linear in the register, and it loses
nothing if the polynomial has its constant term; that is why a burst of errors that fits into the register
is always noticed.
-/

namespace Lib

namespace Crc

variable {w : Nat} {poly : BitVec w}

/-- Divide one more bit of the message, in a reflected register. -/
def divideBit (poly r : BitVec w) (bit : Bool) : BitVec w :=
  if (r.getLsbD 0 ^^ bit) = true then (r >>> 1) ^^^ poly else r >>> 1

/-- The remainder after a message. -/
def divide (poly r : BitVec w) (bits : List Bool) : BitVec w := bits.foldl (divideBit poly) r

/-- Divide one more bit of the message, in a register that is not reflected. -/
def divideBitMsb (poly r : BitVec w) (bit : Bool) : BitVec w :=
  if (r.msb ^^ bit) = true then (r <<< 1) ^^^ poly else r <<< 1

def divideMsb (poly r : BitVec w) (bits : List Bool) : BitVec w := bits.foldl (divideBitMsb poly) r

/-- Move the remainder on by `n` places, with nothing new coming in. -/
def shifts (poly : BitVec w) (n : Nat) (r : BitVec w) : BitVec w := divide poly r (List.replicate n false)

/-- A register with the given bits from its lowest place on; bits past its width are dropped. -/
def pack : List Bool → BitVec w
  | [] => 0
  | bit :: bits => (pack bits <<< 1) ^^^ (BitVec.ofBool bit).setWidth w

/-- The bits of a byte in the order in which they are divided. -/
def byteBits (byte : UInt8) : List Bool := (List.range 8).map byte.toNat.testBit

def bitString (bytes : List UInt8) : List Bool := bytes.flatMap byteBits

theorem divide_append (r : BitVec w) (left right : List Bool) :
    divide poly r (left ++ right) = divide poly (divide poly r left) right :=
  List.foldl_append

theorem bitString_append (left right : List UInt8) :
    bitString (left ++ right) = bitString left ++ bitString right :=
  List.flatMap_append

@[simp] theorem length_byteBits (byte : UInt8) : (byteBits byte).length = 8 := by
  simp [byteBits]

theorem length_bitString (bytes : List UInt8) : (bitString bytes).length = 8 * bytes.length := by
  induction bytes with
  | nil => rfl
  | cons byte rest ih =>
    rw [bitString, List.flatMap_cons, List.length_append, length_byteBits, List.length_cons]
    rw [bitString] at ih
    omega

/-! ### Reflection -/

theorem reverse_xor (r s : BitVec w) : (r ^^^ s).reverse = r.reverse ^^^ s.reverse := by
  ext i hi
  simp only [BitVec.getElem_reverse, BitVec.getElem_xor, BitVec.getMsbD_xor]

theorem reverse_ushiftRight_one (r : BitVec w) : (r >>> 1).reverse = r.reverse <<< 1 := by
  ext i hi
  rw [BitVec.getElem_reverse, BitVec.getMsbD_ushiftRight, BitVec.getElem_shiftLeft]
  by_cases h : i < 1
  · simp [h]
  · simp [h, hi, BitVec.getElem_reverse]

theorem reverse_divideBit (r : BitVec w) (bit : Bool) :
    (divideBit poly r bit).reverse = divideBitMsb poly.reverse r.reverse bit := by
  rw [divideBit, divideBitMsb, BitVec.msb_reverse]
  split_ifs
  · rw [reverse_xor, reverse_ushiftRight_one]
  · exact reverse_ushiftRight_one r

/-- The reflected division is the division, seen in a mirror. -/
theorem reverse_divide (r : BitVec w) (bits : List Bool) :
    (divide poly r bits).reverse = divideMsb poly.reverse r.reverse bits := by
  induction bits generalizing r with
  | nil => rfl
  | cons bit bits ih =>
    show (divide poly (divideBit poly r bit) bits).reverse = _
    rw [ih, reverse_divideBit]
    rfl

/-! ### Linearity -/

theorem divideBit_false_xor (r s : BitVec w) :
    divideBit poly (r ^^^ s) false = divideBit poly r false ^^^ divideBit poly s false := by
  simp only [divideBit, BitVec.getLsbD_xor, BitVec.ushiftRight_xor_distrib, Bool.xor_false]
  cases r.getLsbD 0 <;> cases s.getLsbD 0
  · rfl
  · exact BitVec.xor_assoc _ _ _
  · show r >>> 1 ^^^ s >>> 1 ^^^ poly = r >>> 1 ^^^ poly ^^^ s >>> 1
    rw [BitVec.xor_assoc, BitVec.xor_comm (s >>> 1), BitVec.xor_assoc]
  · show r >>> 1 ^^^ s >>> 1 = r >>> 1 ^^^ poly ^^^ (s >>> 1 ^^^ poly)
    rw [BitVec.xor_comm (s >>> 1) poly, BitVec.xor_assoc, ← BitVec.xor_assoc poly, BitVec.xor_self,
      BitVec.zero_xor]

theorem shifts_succ (n : Nat) (r : BitVec w) :
    shifts poly (n + 1) r = shifts poly n (divideBit poly r false) := rfl

theorem shifts_xor (n : Nat) (r s : BitVec w) :
    shifts poly n (r ^^^ s) = shifts poly n r ^^^ shifts poly n s := by
  induction n generalizing r s with
  | zero => rfl
  | succ n ih => rw [shifts_succ, divideBit_false_xor, ih, ← shifts_succ, ← shifts_succ]

theorem divideBit_eq (r : BitVec w) (bit : Bool) :
    divideBit poly r bit = divideBit poly (r ^^^ (BitVec.ofBool bit).setWidth w) false := by
  rcases Nat.eq_zero_or_pos w with rfl | hw
  · exact Subsingleton.elim _ _
  · have hlow : ((BitVec.ofBool bit).setWidth w).getLsbD 0 = bit := by
      simp [hw]
    have hshift : (BitVec.ofBool bit).setWidth w >>> 1 = 0#w := by
      ext i hi
      simp
    rw [divideBit, divideBit, BitVec.getLsbD_xor, hlow, Bool.xor_false,
      BitVec.ushiftRight_xor_distrib, hshift, BitVec.xor_zero]

theorem getLsbD_pack (bits : List Bool) (i : Nat) :
    (pack bits : BitVec w).getLsbD i = (decide (i < w) && bits.getD i false) := by
  induction bits generalizing i with
  | nil => simp [pack]
  | cons bit bits ih =>
    rw [pack, BitVec.getLsbD_xor, BitVec.getLsbD_shiftLeft, BitVec.getLsbD_setWidth,
      BitVec.getLsbD_ofBool]
    cases i with
    | zero => simp
    | succ i =>
      rw [ih]
      by_cases hi : i + 1 < w
      · have hi' : i < w := by omega
        simp [hi, hi']
      · simp [hi]

theorem divideBit_pack (bits : List Bool) (hfits : bits.length < w) :
    divideBit poly (pack bits <<< 1) false = pack bits := by
  have hlow : ((pack bits : BitVec w) <<< 1).getLsbD 0 = false := by
    rw [BitVec.getLsbD_shiftLeft]
    simp
  rw [divideBit, hlow, if_neg (by decide)]
  ext i hi
  rw [BitVec.getElem_ushiftRight, BitVec.getLsbD_shiftLeft, ← BitVec.getLsbD_eq_getElem, Nat.add_comm,
    Nat.add_sub_cancel]
  by_cases htop : i + 1 < w
  · simp [htop]
  · have hnone : bits.getD i false = false := by
      rw [List.getD_eq_default _ _ (by omega)]
    rw [getLsbD_pack, hnone]
    simp

theorem divide_eq_shifts (r : BitVec w) (bits : List Bool) (hfits : bits.length ≤ w) :
    divide poly r bits = shifts poly bits.length (r ^^^ pack bits) := by
  induction bits generalizing r with
  | nil => exact (BitVec.xor_zero (x := r)).symm
  | cons bit bits ih =>
    rw [List.length_cons] at hfits
    calc
      divide poly r (bit :: bits) = divide poly (divideBit poly r bit) bits := rfl
      _ = shifts poly bits.length (divideBit poly r bit ^^^ pack bits) := ih _ (by omega)
      _ = shifts poly bits.length
            (divideBit poly (r ^^^ (BitVec.ofBool bit).setWidth w ^^^ pack bits <<< 1) false) := by
        rw [divideBit_false_xor, ← divideBit_eq, divideBit_pack bits (by omega)]
      _ = shifts poly (bits.length + 1) (r ^^^ pack (bit :: bits)) := by
        rw [shifts_succ, pack, BitVec.xor_assoc, BitVec.xor_comm (pack bits <<< 1)]

/-! ### Nothing is lost -/

theorem divideBit_eq_zero (hpoly : poly.msb = true) {r : BitVec w}
    (h : divideBit poly r false = 0) : r = 0 := by
  have hw : 0 < w := by
    by_contra hzero
    obtain rfl : w = 0 := by omega
    simp [BitVec.eq_nil poly] at hpoly
  rw [divideBit, Bool.xor_false] at h
  cases hlow : r.getLsbD 0 with
  | true =>
    -- the highest bit of the register comes from the polynomial alone
    rw [hlow, if_pos rfl] at h
    have htop : (r >>> 1 ^^^ poly).msb = true := by
      rw [BitVec.msb_xor, hpoly, BitVec.msb_ushiftRight]
      simp
    rw [h] at htop
    simp at htop
  | false =>
    rw [hlow, if_neg (by decide)] at h
    ext i hi
    cases i with
    | zero => simpa [BitVec.getLsbD_eq_getElem hw] using hlow
    | succ i =>
      have hbit := congrArg (fun r => r.getLsbD i) h
      simp only [BitVec.getLsbD_ushiftRight, Nat.add_comm 1 i] at hbit
      rw [BitVec.getLsbD_eq_getElem hi] at hbit
      simpa using hbit

theorem divideBit_injective (hpoly : poly.msb = true) (bit : Bool) :
    Function.Injective fun r : BitVec w => divideBit poly r bit := by
  intro r s h
  simp only [divideBit_eq _ bit] at h
  rw [← BitVec.xor_eq_zero_iff, ← divideBit_false_xor] at h
  have hzero := BitVec.xor_eq_zero_iff.mp (divideBit_eq_zero hpoly h)
  exact (BitVec.xor_left_inj _).mp hzero

theorem divide_injective (hpoly : poly.msb = true) (bits : List Bool) :
    Function.Injective fun r : BitVec w => divide poly r bits := by
  induction bits with
  | nil => exact Function.injective_id
  | cons bit bits ih => exact ih.comp (divideBit_injective hpoly bit)

theorem pack_injective {left right : List Bool} (hlength : left.length = right.length)
    (hfits : left.length ≤ w) (h : (pack left : BitVec w) = pack right) : left = right := by
  apply List.ext_getElem hlength
  intro i hleft hright
  have hbit := congrArg (fun r => r.getLsbD i) h
  have hi : i < w := by omega
  simp only [getLsbD_pack, hi, decide_true, Bool.true_and] at hbit
  rwa [List.getD_eq_getElem _ _ hleft, List.getD_eq_getElem _ _ hright] at hbit

/-- **Bursts.** Two messages that differ only within a stretch that fits into the register have different
remainders. -/
theorem divide_burst (hpoly : poly.msb = true) (r : BitVec w) (before after : List Bool)
    {left right : List Bool} (hlength : left.length = right.length) (hfits : left.length ≤ w)
    (hne : left ≠ right) :
    divide poly r (before ++ left ++ after) ≠ divide poly r (before ++ right ++ after) := by
  intro h
  simp only [divide_append] at h
  have hstretch := divide_injective hpoly after h
  generalize divide poly r before = r' at hstretch
  rw [divide_eq_shifts r' left hfits, divide_eq_shifts r' right (by omega), hlength] at hstretch
  have hpack := (BitVec.xor_right_inj _).mp (divide_injective hpoly _ hstretch)
  exact hne (pack_injective hlength hfits hpack)

/-! ### Byte by byte, from a table -/

theorem pack_byteBits (byte : UInt8) : (pack (byteBits byte) : BitVec w) = byte.toBitVec.setWidth w := by
  apply BitVec.eq_of_getLsbD_eq
  intro i hi
  rw [getLsbD_pack, BitVec.getLsbD_setWidth, byteBits]
  by_cases h : i < 8
  · rw [List.getD_eq_getElem _ _ (by simpa using h), List.getElem_map, List.getElem_range]
    rfl
  · rw [List.getD_eq_default _ _ (by simpa using h), BitVec.getLsbD_of_ge _ _ (by omega)]

theorem byteBits_injective : Function.Injective byteBits := by
  intro left right h
  have hpack : (pack (byteBits left) : BitVec 8) = pack (byteBits right) := by rw [h]
  rw [pack_byteBits, pack_byteBits, BitVec.setWidth_eq, BitVec.setWidth_eq] at hpack
  exact UInt8.toBitVec_inj.mp hpack

theorem bitString_injective : Function.Injective bitString := by
  intro left right h
  induction left generalizing right with
  | nil =>
    cases right with
    | nil => rfl
    | cons byte rest =>
      have hlength := congrArg List.length h
      simp [length_bitString] at hlength
  | cons byte rest ih =>
    cases right with
    | nil =>
      have hlength := congrArg List.length h
      simp [length_bitString] at hlength
    | cons byte' rest' =>
      obtain ⟨hbyte, hrest⟩ := List.append_inj h (by simp)
      rw [byteBits_injective hbyte, ih hrest]

theorem shifts_of_low_clear {n : Nat} {r : BitVec w} (h : ∀ i < n, r.getLsbD i = false) :
    shifts poly n r = r >>> n := by
  induction n generalizing r with
  | zero => simp [shifts, divide]
  | succ n ih =>
    have hstep : divideBit poly r false = r >>> 1 := by
      rw [divideBit, h 0 (Nat.succ_pos n)]
      rfl
    rw [shifts_succ, hstep, ih, ← BitVec.shiftRight_add, Nat.add_comm]
    intro i hi
    rw [BitVec.getLsbD_ushiftRight]
    exact h _ (by omega)

/-- A byte is divided by looking up the low eight bits of the sum and moving the rest of the register. -/
theorem divide_byteBits (hw : 8 ≤ w) (r : BitVec w) (byte : UInt8) :
    divide poly r (byteBits byte) =
      shifts poly 8 ((r ^^^ byte.toBitVec.setWidth w) &&& 0xff#w) ^^^ (r >>> 8) := by
  have hmask (i : Nat) : (0xff#w).getLsbD i = (decide (i < w) && decide (i < 8)) := by
    rw [BitVec.getLsbD_ofNat, show 0xff = 2 ^ 8 - 1 from rfl, Nat.testBit_two_pow_sub_one]
  generalize hsum : r ^^^ byte.toBitVec.setWidth w = sum
  have hsplit : sum = (sum &&& 0xff#w) ^^^ (sum &&& ~~~0xff#w) := by
    ext i hi
    simp only [BitVec.getElem_xor, BitVec.getElem_and, BitVec.getElem_not]
    cases sum[i] <;> cases (0xff#w)[i] <;> rfl
  have hclear : ∀ i < 8, (sum &&& ~~~0xff#w).getLsbD i = false := by
    intro i hi
    rw [BitVec.getLsbD_and, BitVec.getLsbD_not, hmask]
    simp [hi]
  have hhigh : (sum &&& ~~~0xff#w) >>> 8 = r >>> 8 := by
    apply BitVec.eq_of_getLsbD_eq
    intro i _
    rw [BitVec.getLsbD_ushiftRight, BitVec.getLsbD_ushiftRight, BitVec.getLsbD_and, BitVec.getLsbD_not,
      hmask, ← hsum, BitVec.getLsbD_xor, BitVec.getLsbD_setWidth,
      BitVec.getLsbD_of_ge byte.toBitVec _ (by omega)]
    by_cases hi : 8 + i < w
    · simp [hi]
    · rw [BitVec.getLsbD_of_ge r _ (by omega)]
      simp
  calc
    divide poly r (byteBits byte) = shifts poly 8 sum := by
      rw [divide_eq_shifts _ _ (by simpa using hw), pack_byteBits, length_byteBits, hsum]
    _ = shifts poly 8 (sum &&& 0xff#w) ^^^ shifts poly 8 (sum &&& ~~~0xff#w) := by
      rw [← shifts_xor, ← hsplit]
    _ = shifts poly 8 (sum &&& 0xff#w) ^^^ (r >>> 8) := by
      rw [shifts_of_low_clear hclear, hhigh]

end Crc

end Lib
