import Mathlib.Data.List.Basic
import Mathlib.Data.Nat.Log
import Mathlib.Tactic.Ring
import Mathlib.Tactic.NormNum
import Mathlib.Tactic.SplitIfs

/-!
# Byte strings

Big-endian numerals of a fixed width and the exchange of neighbouring elements, on plain lists. A
numeral is read back modulo its width, and the exchange is its own inverse.
-/

namespace Lib

/-! ### Big-endian numerals -/

/-- The `w` big-endian bytes of `n`; the bits above `8 * w` are dropped. -/
def toBE : Nat → Nat → List UInt8
  | 0, _ => []
  | w + 1, n => UInt8.ofNat (n / 256 ^ w) :: toBE w n

def ofBE (bytes : List UInt8) : Nat := bytes.foldl (fun acc b => acc * 256 + b.toNat) 0

@[simp] theorem length_toBE (w n : Nat) : (toBE w n).length = w := by
  induction w with
  | zero => rfl
  | succ w ih => simp only [toBE, List.length_cons, ih]

theorem foldl_be_append (bytes : List UInt8) (acc : Nat) :
    bytes.foldl (fun acc b => acc * 256 + b.toNat) acc = acc * 256 ^ bytes.length + ofBE bytes := by
  induction bytes generalizing acc with
  | nil => simp [ofBE]
  | cons b rest ih =>
    rw [ofBE, List.foldl_cons, List.foldl_cons, ih, ih, List.length_cons, pow_succ]
    ring

theorem ofBE_cons (b : UInt8) (rest : List UInt8) :
    ofBE (b :: rest) = b.toNat * 256 ^ rest.length + ofBE rest := by
  rw [ofBE, List.foldl_cons, foldl_be_append]
  ring

theorem ofBE_toBE (w n : Nat) : ofBE (toBE w n) = n % 256 ^ w := by
  induction w with
  | zero => simp [toBE, ofBE, Nat.mod_one]
  | succ w ih =>
    have hbyte : (UInt8.ofNat (n / 256 ^ w)).toNat = n / 256 ^ w % 256 := by simp
    rw [toBE, ofBE_cons, length_toBE, ih, hbyte, pow_succ, Nat.mod_mul]
    ring

theorem ofBE_lt (bytes : List UInt8) : ofBE bytes < 256 ^ bytes.length := by
  induction bytes with
  | nil => simp [ofBE]
  | cons b rest ih =>
    have hb : b.toNat + 1 ≤ 256 := b.toNat_lt
    calc
      ofBE (b :: rest) = b.toNat * 256 ^ rest.length + ofBE rest := ofBE_cons b rest
      _ < b.toNat * 256 ^ rest.length + 256 ^ rest.length := Nat.add_lt_add_left ih _
      _ = (b.toNat + 1) * 256 ^ rest.length := (Nat.succ_mul _ _).symm
      _ ≤ 256 * 256 ^ rest.length := Nat.mul_le_mul_right _ hb
      _ = 256 ^ (b :: rest).length := (pow_succ' 256 rest.length).symm

/-- A numeral of width `w` does not see what is above it. -/
theorem toBE_add_mul (w k n : Nat) : toBE w (k * 256 ^ w + n) = toBE w n := by
  induction w generalizing k with
  | zero => rfl
  | succ w ih =>
    have hsplit : k * 256 ^ (w + 1) + n = k * 256 * 256 ^ w + n := by
      rw [pow_succ]
      ring
    have hdigit : (k * 256 * 256 ^ w + n) / 256 ^ w = k * 256 + n / 256 ^ w := by
      rw [Nat.add_comm, Nat.add_mul_div_right _ _ (Nat.pow_pos (by decide)), Nat.add_comm]
    have hbyte : UInt8.ofNat (k * 256 + n / 256 ^ w) = UInt8.ofNat (n / 256 ^ w) := by
      apply UInt8.toNat_inj.mp
      rw [UInt8.toNat_ofNat', UInt8.toNat_ofNat', Nat.mul_comm, Nat.mul_add_mod]
    rw [hsplit, toBE, toBE, hdigit, hbyte, ih]

theorem toBE_ofBE (bytes : List UInt8) : toBE bytes.length (ofBE bytes) = bytes := by
  induction bytes with
  | nil => rfl
  | cons b rest ih =>
    have hdigit : (b.toNat * 256 ^ rest.length + ofBE rest) / 256 ^ rest.length = b.toNat := by
      rw [Nat.add_comm, Nat.add_mul_div_right _ _ (Nat.pow_pos (by decide)),
        Nat.div_eq_of_lt (ofBE_lt rest), Nat.zero_add]
    have hbyte : UInt8.ofNat b.toNat = b := UInt8.ofNat_toNat
    rw [ofBE_cons, List.length_cons, toBE, hdigit, hbyte, toBE_add_mul, ih]

theorem eq_of_ofBE_eq {left right : List UInt8} (hlength : left.length = right.length)
    (h : ofBE left = ofBE right) : left = right := by
  rw [← toBE_ofBE left, h, hlength, toBE_ofBE]

def toLE (w n : Nat) : List UInt8 := (toBE w n).reverse

def ofLE (bytes : List UInt8) : Nat := ofBE bytes.reverse

@[simp] theorem length_toLE (w n : Nat) : (toLE w n).length = w := by
  simp [toLE]

theorem toLE_ofLE (bytes : List UInt8) : toLE bytes.length (ofLE bytes) = bytes := by
  rw [toLE, ofLE, ← List.length_reverse, toBE_ofBE, List.reverse_reverse]

theorem ofLE_lt (bytes : List UInt8) : ofLE bytes < 256 ^ bytes.length := by
  rw [← List.length_reverse]
  exact ofBE_lt bytes.reverse

theorem ofLE_toLE (w n : Nat) : ofLE (toLE w n) = n % 256 ^ w := by
  rw [ofLE, toLE, List.reverse_reverse, ofBE_toBE]

/-! ### Exchanging neighbours -/

variable {α : Type*}

/-- Exchange the elements at `2k` and `2k + 1`; a last element without a partner stays. -/
def swapPairs : List α → List α
  | a :: b :: rest => b :: a :: swapPairs rest
  | rest => rest

@[simp] theorem swapPairs_nil : swapPairs ([] : List α) = [] := rfl

@[simp] theorem swapPairs_cons_cons (a b : α) (rest : List α) :
    swapPairs (a :: b :: rest) = b :: a :: swapPairs rest := rfl

@[simp] theorem length_swapPairs (l : List α) : (swapPairs l).length = l.length := by
  fun_induction swapPairs l with
  | case1 a b rest ih => simp [ih]
  | case2 rest => rfl

@[simp] theorem swapPairs_swapPairs (l : List α) : swapPairs (swapPairs l) = l := by
  fun_induction swapPairs l with
  | case1 a b rest ih => simp [ih]
  | case2 rest h =>
    cases rest with
    | nil => rfl
    | cons a rest => cases rest with
      | nil => rfl
      | cons b rest => exact absurd rfl (h a b rest)

/-- The exchange of an even prefix does not touch what follows it. -/
theorem swapPairs_append (l r : List α) (heven : l.length % 2 = 0) :
    swapPairs (l ++ r) = swapPairs l ++ swapPairs r := by
  fun_induction swapPairs l with
  | case1 a b rest ih =>
    have hrest : rest.length % 2 = 0 := by
      simp only [List.length_cons] at heven
      omega
    simp [ih hrest]
  | case2 rest h =>
    cases rest with
    | nil => rfl
    | cons a rest => cases rest with
      | nil => simp at heven
      | cons b rest => exact absurd rfl (h a b rest)

/-- Where the exchange takes the element at `i` of a list of length `n` from. -/
def partner (n i : Nat) : Nat :=
  if i % 2 = 1 then i - 1 else if i + 1 < n then i + 1 else i

theorem partner_lt {n i : Nat} (hi : i < n) : partner n i < n := by
  unfold partner
  split
  · omega
  · split <;> omega

theorem partner_add_two (n i : Nat) : partner (n + 2) (i + 2) = partner n i + 2 := by
  unfold partner
  split_ifs <;> omega

theorem partner_partner {n i : Nat} (heven : n % 2 = 0) (hi : i < n) : partner n (partner n i) = i := by
  unfold partner
  split_ifs <;> omega

theorem getElem_swapPairs (l : List α) (i : Nat) (hi : i < l.length)
    (hswap : i < (swapPairs l).length) (hpartner : partner l.length i < l.length) :
    (swapPairs l)[i] = l[partner l.length i] := by
  fun_induction swapPairs l generalizing i with
  | case1 a b rest ih =>
    match i, hi with
    | 0, _ => simp [partner]
    | 1, _ => simp [partner]
    | i + 2, hi =>
      have hrest : i < rest.length := by simpa using hi
      simp only [List.length_cons, Nat.add_assoc, partner_add_two, List.getElem_cons_succ]
      exact ih i hrest (by simpa using hrest) (partner_lt hrest)
  | case2 rest h =>
    match rest, i, hi with
    | [a], 0, _ => rfl
    | a :: b :: rest, _, _ => exact absurd rfl (h a b rest)

/-- Append one `filler` to a list of odd length. -/
def padEven (filler : α) (l : List α) : List α :=
  if l.length % 2 = 1 then l ++ [filler] else l

theorem padEven_eq_append (filler : α) (l : List α) :
    padEven filler l = l ++ List.replicate (l.length % 2) filler := by
  unfold padEven
  split
  · rename_i hodd
    rw [hodd, List.replicate_one]
  · have heven : l.length % 2 = 0 := by omega
    rw [heven, List.replicate_zero, List.append_nil]

theorem length_padEven (filler : α) (l : List α) :
    (padEven filler l).length = l.length + l.length % 2 := by
  rw [padEven_eq_append, List.length_append, List.length_replicate]

theorem length_flatten_of_forall {k : Nat} {records : List (List α)}
    (h : ∀ record ∈ records, record.length = k) : records.flatten.length = k * records.length := by
  induction records with
  | nil => rfl
  | cons record rest ih =>
    rw [List.flatten_cons, List.length_append, h record List.mem_cons_self,
      ih fun r hr => h r (List.mem_cons_of_mem _ hr), List.length_cons, Nat.mul_succ, Nat.add_comm]

end Lib
