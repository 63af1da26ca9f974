import Topfield.Lib.Memory

/-!
# Strings in memory

A string is the bytes up to the first zero, and `strcpy` copies these and the zero. How far it reads and
writes is decided by where that zero is; its laws are for a zero among the first `n` bytes. `strrchr` looks
for the last of a byte in a string.
-/

namespace Lib

namespace Mem

/-- Copy the bytes at `s` to `d` up to the first zero byte and with it, looking at `fuel` bytes at most. -/
def strcpy (dest : Mem) (d : Nat) (src : Mem) (s : Nat) : Nat → Mem
  | 0 => dest
  | fuel + 1 =>
    if src s = 0 then dest.set d 0 else strcpy (dest.set d (src s)) (d + 1) src (s + 1) fuel

/-- A string at `s` ends within `n` bytes. -/
def Terminated (m : Mem) (s n : Nat) : Prop := ∃ k < n, m (s + k) = 0

instance (m : Mem) (s n : Nat) : Decidable (Terminated m s n) :=
  inferInstanceAs (Decidable (∃ k < n, m (s + k) = 0))

variable {src src' : Mem} {s n fuel : Nat}

theorem not_terminated_zero (m : Mem) (s : Nat) : ¬ Terminated m s 0 := by
  rintro ⟨k, hk, -⟩
  exact Nat.not_lt_zero k hk

theorem Terminated.tail (h : Terminated src s (n + 1)) (hs : src s ≠ 0) : Terminated src (s + 1) n := by
  obtain ⟨k, hk, hzero⟩ := h
  cases k with
  | zero => exact absurd hzero hs
  | succ k =>
    refine ⟨k, by omega, ?_⟩
    rwa [Nat.add_assoc, Nat.add_comm 1]

theorem strcpy_below (dest : Mem) {d i : Nat} (src : Mem) (s fuel : Nat) (h : i < d) :
    strcpy dest d src s fuel i = dest i := by
  induction fuel generalizing dest d s with
  | zero => rfl
  | succ fuel ih =>
    unfold strcpy
    split
    · exact set_of_ne dest 0 (by omega)
    · rw [ih _ _ (by omega : i < d + 1), set_of_ne dest _ (by omega)]

theorem strcpy_above (dest : Mem) {d i : Nat} (hterm : Terminated src s n) (hfuel : n ≤ fuel)
    (h : d + n ≤ i) : strcpy dest d src s fuel i = dest i := by
  induction n generalizing dest d s fuel with
  | zero => exact absurd hterm (not_terminated_zero src s)
  | succ n ih =>
    obtain ⟨fuel, rfl⟩ : ∃ f, fuel = f + 1 := ⟨fuel - 1, by omega⟩
    unfold strcpy
    split
    · exact set_of_ne dest 0 (by omega)
    · rename_i hs
      rw [ih _ (hterm.tail hs) (by omega) (by omega : d + 1 + n ≤ i), set_of_ne dest _ (by omega)]

theorem terminated_strcpy (dest : Mem) (d : Nat) (hterm : Terminated src s n) (hfuel : n ≤ fuel) :
    Terminated (strcpy dest d src s fuel) d n := by
  induction n generalizing dest d s fuel with
  | zero => exact absurd hterm (not_terminated_zero src s)
  | succ n ih =>
    obtain ⟨fuel, rfl⟩ : ∃ f, fuel = f + 1 := ⟨fuel - 1, by omega⟩
    unfold strcpy
    split
    · exact ⟨0, by omega, set_self dest d 0⟩
    · rename_i hs
      obtain ⟨k, hk, hzero⟩ := ih (dest.set d (src s)) (d + 1) (hterm.tail hs) (Nat.le_of_succ_le_succ hfuel)
      refine ⟨k + 1, by omega, ?_⟩
      rwa [Nat.add_comm k, ← Nat.add_assoc]

/-- Only the bytes up to the end of the string are looked at. -/
theorem strcpy_congr (dest : Mem) (d : Nat) (hterm : Terminated src s n) (hfuel : n ≤ fuel)
    (hsame : ∀ k < n, src' (s + k) = src (s + k)) :
    strcpy dest d src' s fuel = strcpy dest d src s fuel := by
  induction n generalizing dest d s fuel with
  | zero => exact absurd hterm (not_terminated_zero src s)
  | succ n ih =>
    obtain ⟨fuel, rfl⟩ : ∃ f, fuel = f + 1 := ⟨fuel - 1, by omega⟩
    have hhead : src' s = src s := hsame 0 (by omega)
    unfold strcpy
    rw [hhead]
    split
    · rfl
    · rename_i hs
      refine ih _ _ (hterm.tail hs) (by omega) fun k hk => ?_
      have h := hsame (k + 1) (by omega)
      rwa [Nat.add_comm k, ← Nat.add_assoc] at h

theorem strcpy_past (dest : Mem) (d : Nat) (hterm : ¬ Terminated src s n) (hfuel : n < fuel) :
    strcpy dest d src s fuel (d + n) = src (s + n) := by
  induction n generalizing dest d s fuel with
  | zero =>
    obtain ⟨fuel, rfl⟩ : ∃ f, fuel = f + 1 := ⟨fuel - 1, by omega⟩
    show strcpy dest d src s (fuel + 1) d = src s
    unfold strcpy
    split
    · rename_i hs
      rw [set_self, hs]
    · rw [strcpy_below _ _ _ _ (Nat.lt_add_one d), set_self]
  | succ n ih =>
    obtain ⟨fuel, rfl⟩ : ∃ f, fuel = f + 1 := ⟨fuel - 1, by omega⟩
    have hs : src s ≠ 0 := fun hs => hterm ⟨0, by omega, hs⟩
    have htail : ¬ Terminated src (s + 1) n := by
      rintro ⟨k, hk, hzero⟩
      refine hterm ⟨k + 1, by omega, ?_⟩
      rwa [Nat.add_comm k, ← Nat.add_assoc]
    unfold strcpy
    rw [if_neg hs]
    have h := ih (dest.set d (src s)) (d + 1) htail (Nat.lt_of_succ_lt_succ hfuel)
    rwa [Nat.add_assoc, Nat.add_comm 1, Nat.add_assoc, Nat.add_comm 1] at h

end Mem

/-! ### The last of an element -/

variable {α : Type} [DecidableEq α] {c : α} {s : List α}

/-- Where in `s` the last `c` is. -/
def strrchr : List α → α → Option Nat
  | [], _ => none
  | b :: s, c =>
    match strrchr s c with
    | some i => some (i + 1)
    | none => if b = c then some 0 else none

theorem strrchr_of_notMem (h : c ∉ s) : strrchr s c = none := by
  induction s with
  | nil => rfl
  | cons b s ih =>
    have hs : c ∉ s := fun hmem => h (List.mem_cons_of_mem b hmem)
    have hb : b ≠ c := fun hbc => h (hbc ▸ List.mem_cons_self)
    rw [strrchr, ih hs]
    exact if_neg hb

theorem strrchr_append (before : List α) {after : List α} (h : c ∉ after) :
    strrchr (before ++ c :: after) c = some before.length := by
  induction before with
  | nil =>
    rw [List.nil_append, strrchr, strrchr_of_notMem h]
    exact if_pos rfl
  | cons b before ih =>
    rw [List.cons_append, strrchr, ih]
    rfl

theorem exists_last_of_mem (h : c ∈ s) : ∃ before after, s = before ++ c :: after ∧ c ∉ after := by
  induction s with
  | nil => exact absurd h List.not_mem_nil
  | cons b s ih =>
    by_cases hs : c ∈ s
    · obtain ⟨before, after, rfl, hafter⟩ := ih hs
      exact ⟨b :: before, after, rfl, hafter⟩
    · obtain rfl : c = b := (List.mem_cons.mp h).resolve_right hs
      exact ⟨[], s, rfl, hs⟩

end Lib
