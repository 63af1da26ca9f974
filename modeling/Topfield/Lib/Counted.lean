import Topfield.Lib.Bytes

/-!
# Counted fields

A field preceded by the number of its bytes, in two big-endian bytes. Fields written one after the other
are read one after the other, whatever follows them.
-/

namespace Lib

def counted (field : List UInt8) : List UInt8 := toBE 2 field.length ++ field

/-- The first counted field and what follows it. -/
def readCounted (bytes : List UInt8) : List UInt8 × List UInt8 :=
  let n := ofBE (bytes.take 2)
  ((bytes.drop 2).take n, (bytes.drop 2).drop n)

theorem readCounted_counted {field : List UInt8} (rest : List UInt8) (h : field.length < 0x10000) :
    readCounted (counted field ++ rest) = (field, rest) := by
  have htwo : (toBE 2 field.length).length = 2 := length_toBE 2 field.length
  have htake : (counted field ++ rest).take 2 = toBE 2 field.length := by
    rw [counted, List.append_assoc, List.take_left' htwo]
  have hdrop : (counted field ++ rest).drop 2 = field ++ rest := by
    rw [counted, List.append_assoc, List.drop_left' htwo]
  have hcount : ofBE (toBE 2 field.length) = field.length := by
    rw [ofBE_toBE]
    exact Nat.mod_eq_of_lt h
  simp only [readCounted, htake, hdrop, hcount, List.take_left, List.drop_left]

/-- The string at the start of a field: its bytes up to the first zero. -/
def stringOf (field : List UInt8) : List UInt8 := field.takeWhile (· ≠ 0)

theorem stringOf_append {bytes : List UInt8} (h : 0 ∉ bytes) (rest : List UInt8) :
    stringOf (bytes ++ 0 :: rest) = bytes := by
  have hall : ∀ b ∈ bytes, (decide (b ≠ 0)) = true := by
    intro b hb
    rw [decide_eq_true_iff]
    rintro rfl
    exact h hb
  rw [stringOf, List.takeWhile_append_of_pos hall, List.takeWhile_cons]
  simp

theorem stringOf_append_zeros {bytes : List UInt8} (k : Nat) (h : 0 ∉ bytes) :
    stringOf (bytes ++ List.replicate (k + 1) 0) = bytes := by
  rw [List.replicate_succ]
  exact stringOf_append h _

end Lib
