import Mathlib.Data.Nat.Digits.Lemmas

/-!
# Numbers as text

The digits of a number, and the number a text begins with. A number is read back from its digits, whatever
follows them that is not another digit.
-/

namespace Lib

/-! ### Digits in a base -/

section Number

variable (digit : UInt8 → Option Nat) (base : Nat)

/-- The value of the digits a text begins with, behind digits of value `n`. -/
def scanValue (n : Nat) : List UInt8 → Nat
  | [] => n
  | c :: text =>
    match digit c with
    | some d => scanValue (base * n + d) text
    | none => n

/-- The digits of a number, the highest first, behind some zeros. -/
def paddedDigits (zeros n : Nat) : List Nat :=
  List.replicate zeros 0 ++ if n = 0 then [0] else (Nat.digits base n).reverse

theorem paddedDigits_ne_nil (zeros n : Nat) : paddedDigits base zeros n ≠ [] := by
  intro h
  have hsplit := (List.append_eq_nil_iff.mp h).2
  split_ifs at hsplit with hn
  exact Nat.digits_ne_nil_iff_ne_zero.mpr hn (List.reverse_eq_nil_iff.mp hsplit)

theorem paddedDigits_lt {base : Nat} (hbase : 1 < base) (zeros n : Nat) :
    ∀ d ∈ paddedDigits base zeros n, d < base := by
  intro d hd
  rcases List.mem_append.mp hd with hzero | hd
  · rw [List.eq_of_mem_replicate hzero]
    exact Nat.lt_trans Nat.zero_lt_one hbase
  · split_ifs at hd
    · rw [List.mem_singleton.mp hd]
      exact Nat.lt_trans Nat.zero_lt_one hbase
    · exact Nat.digits_lt_base hbase (List.mem_reverse.mp hd)

theorem length_paddedDigits_le {base n k : Nat} (hbase : 1 < base) (hk : 0 < k) (h : n < base ^ k) :
    (paddedDigits base 0 n).length ≤ k := by
  rw [paddedDigits, List.length_append, List.length_replicate, Nat.zero_add]
  split_ifs
  · exact hk
  · rw [List.length_reverse]
    exact (Nat.digits_length_le_iff hbase n).mpr h

variable {digit base}

theorem scanValue_append {byte : Nat → UInt8} (ds : List Nat) (h : ∀ d ∈ ds, digit (byte d) = some d) (n : Nat)
    {rest : List UInt8} (hstop : ∀ c ∈ rest.head?, digit c = none) :
    scanValue digit base n (ds.map byte ++ rest) = ds.foldl (fun n d => d + base * n) n := by
  induction ds generalizing n with
  | nil =>
    cases rest with
    | nil => rfl
    | cons c rest =>
      have hc := hstop c rfl
      simp only [List.map_nil, List.nil_append, scanValue, hc, List.foldl_nil]
  | cons d ds ih =>
    have hd := h d List.mem_cons_self
    simp only [List.map_cons, List.cons_append, scanValue, hd, List.foldl_cons]
    rw [ih (fun d hd => h d (List.mem_cons_of_mem _ hd)), Nat.add_comm]

theorem foldl_replicate_zero (zeros : Nat) (ds : List Nat) :
    (List.replicate zeros 0 ++ ds).foldl (fun n d => d + base * n) 0 = ds.foldl (fun n d => d + base * n) 0 := by
  induction zeros with
  | zero => rfl
  | succ zeros ih =>
    rw [List.replicate_succ, List.cons_append, List.foldl_cons, Nat.mul_zero]
    exact ih

/-- The digits of a number are read back as its value. -/
theorem scanValue_paddedDigits {byte : Nat → UInt8} (hbase : 1 < base) (h : ∀ d < base, digit (byte d) = some d)
    (zeros n : Nat) {rest : List UInt8} (hstop : ∀ c ∈ rest.head?, digit c = none) :
    scanValue digit base 0 ((paddedDigits base zeros n).map byte ++ rest) = n := by
  have hvalue : (paddedDigits base zeros n).foldl (fun n d => d + base * n) 0 = n := by
    rw [paddedDigits, foldl_replicate_zero]
    split_ifs with hn
    · rw [hn]
      rfl
    · rw [List.foldl_reverse]
      exact (Nat.ofDigits_eq_foldr base _).symm.trans (Nat.ofDigits_digits base n)
  rw [scanValue_append _ (fun d hd => h d (paddedDigits_lt hbase zeros n d hd)) 0 hstop, hvalue]

end Number

/-! ### Decimal numbers -/

def digitByte (d : Nat) : UInt8 := UInt8.ofNat (0x30 + d)

/-- The digits of a number, the highest first. -/
def decimal (n : Nat) : List UInt8 := (paddedDigits 10 0 n).map digitByte

/-- A signed number, as `%d` prints it. -/
def signedDecimal (n : Int) : List UInt8 :=
  if n < 0 then 0x2D :: decimal n.natAbs else decimal n.natAbs

def IsDigit (c : UInt8) : Prop := 0x30 ≤ c ∧ c ≤ 0x39

instance (c : UInt8) : Decidable (IsDigit c) := inferInstanceAs (Decidable (_ ∧ _))

/-- Space, or one of the control characters that count as one. -/
def IsSpace (c : UInt8) : Prop := c = 0x20 ∨ (0x09 ≤ c ∧ c ≤ 0x0D)

instance (c : UInt8) : Decidable (IsSpace c) := inferInstanceAs (Decidable (_ ∨ _))

def decimalDigit (c : UInt8) : Option Nat := if IsDigit c then some (c.toNat - 0x30) else none

/-- The value of the digits a text begins with. -/
abbrev decimalValue (text : List UInt8) : Nat := scanValue decimalDigit 10 0 text

/-- White space and a sign are allowed in front of the digits. -/
def atoi (text : List UInt8) : Int :=
  match text.dropWhile fun c => decide (IsSpace c) with
  | [] => 0
  | c :: rest =>
    if c = 0x2D then
      -(decimalValue rest : Int)
    else if c = 0x2B then
      decimalValue rest
    else
      decimalValue (c :: rest)

theorem digitByte_toNat {d : Nat} (h : d < 10) : (digitByte d).toNat = 0x30 + d := by
  rw [digitByte, UInt8.toNat_ofNat']
  omega

theorem isDigit_digitByte {d : Nat} (h : d < 10) : IsDigit (digitByte d) := by
  have hvalue := digitByte_toNat h
  constructor
  · rw [UInt8.le_iff_toNat_le, hvalue]
    exact Nat.le_add_right _ _
  · rw [UInt8.le_iff_toNat_le, hvalue]
    show 0x30 + d ≤ 0x39
    omega

theorem atoi_cons {c : UInt8} (h : IsDigit c) (text : List UInt8) :
    atoi (c :: text) = decimalValue (c :: text) := by
  obtain ⟨hlow, hhigh⟩ := h
  rw [UInt8.le_iff_toNat_le] at hlow hhigh
  have hne (v : UInt8) (hv : v.toNat < 0x30) : c ≠ v := by
    rintro rfl
    exact absurd hlow (Nat.not_le.mpr hv)
  have hspace : ¬ IsSpace c := by
    rintro (hblank | ⟨-, hcontrol⟩)
    · exact hne 0x20 (by decide) hblank
    · exact absurd (Nat.le_trans hlow (UInt8.le_iff_toNat_le.mp hcontrol)) (by decide)
  rw [atoi, List.dropWhile_cons_of_neg (by simpa using hspace)]
  simp only [if_neg (hne 0x2D (by decide)), if_neg (hne 0x2B (by decide))]

theorem decimalDigit_digitByte : ∀ d < 10, decimalDigit (digitByte d) = some d := by decide

theorem decimalValue_decimal (n : Nat) {rest : List UInt8} (h : ∀ c ∈ rest.head?, ¬ IsDigit c) :
    decimalValue (decimal n ++ rest) = n :=
  scanValue_paddedDigits (by decide) decimalDigit_digitByte 0 n fun c hc => if_neg (h c hc)

theorem decimal_eq_cons (n : Nat) : ∃ c text, IsDigit c ∧ decimal n = c :: text := by
  obtain ⟨d, ds, hds⟩ := List.exists_cons_of_ne_nil (paddedDigits_ne_nil 10 0 n)
  have hd : d < 10 := paddedDigits_lt (by decide) 0 n d (hds ▸ List.mem_cons_self)
  exact ⟨digitByte d, ds.map digitByte, isDigit_digitByte hd, by rw [decimal, hds, List.map_cons]⟩

/-- A number is read back from what `%d` prints of it. -/
theorem atoi_signedDecimal (n : Int) {rest : List UInt8} (h : ∀ c ∈ rest.head?, ¬ IsDigit c) :
    atoi (signedDecimal n ++ rest) = n := by
  have hvalue := decimalValue_decimal n.natAbs h
  unfold signedDecimal
  split_ifs with hsign
  · have hminus : atoi (0x2D :: (decimal n.natAbs ++ rest)) = -(decimalValue (decimal n.natAbs ++ rest) : Int) :=
      rfl
    rw [List.cons_append, hminus, hvalue]
    omega
  · obtain ⟨c, text, hdigit, htext⟩ := decimal_eq_cons n.natAbs
    rw [htext, List.cons_append] at hvalue ⊢
    rw [atoi_cons hdigit, hvalue]
    omega

theorem signedDecimal_injective : Function.Injective signedDecimal := by
  intro m n hmn
  have hread (k : Int) : atoi (signedDecimal k ++ []) = k := atoi_signedDecimal k (by simp)
  rw [← hread m, hmn, hread n]

theorem length_decimal_le {n k : Nat} (hk : 0 < k) (h : n < 10 ^ k) : (decimal n).length ≤ k := by
  rw [decimal, List.length_map]
  exact length_paddedDigits_le (by decide) hk h

end Lib
