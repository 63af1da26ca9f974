import Mathlib.Logic.Function.Basic
import Topfield.Lib.Bytes

/-!
# Byte memory

Memory as seen from the start of one buffer: a byte at every index, the bytes past the buffer's end
being whatever lies behind it. A store replaces a range of bytes, a load lists a range, and the laws
below say which loads a store changes.
-/

namespace Lib

/-- The bytes from the start of a buffer on. -/
abbrev Mem := Nat → UInt8

namespace Mem

def set (m : Mem) (a : Nat) (v : UInt8) : Mem := Function.update m a v

/-- Copy a byte string to address `a`. -/
def store (m : Mem) (a : Nat) (bytes : List UInt8) : Mem :=
  fun i => if a ≤ i ∧ i < a + bytes.length then bytes.getD (i - a) 0 else m i

/-- The `n` bytes at address `a`. -/
def load (m : Mem) (a : Nat) : Nat → List UInt8
  | 0 => []
  | n + 1 => m a :: load m (a + 1) n

/-- The memory behind a pointer moved up by `a` bytes. -/
def offset (m : Mem) (a : Nat) : Mem := fun i => m (a + i)

/-- A byte string at the start of zeroed memory. -/
def ofList (bytes : List UInt8) : Mem := fun i => bytes.getD i 0

/-- Exchange the neighbouring bytes among the first `n`. -/
def swab (m : Mem) (n : Nat) : Mem := fun i => if i < n then m (partner n i) else m i

/-! ### Single bytes -/

@[simp] theorem set_self (m : Mem) (a : Nat) (v : UInt8) : m.set a v a = v := by
  simp [set]

theorem set_of_ne (m : Mem) {a i : Nat} (v : UInt8) (h : i ≠ a) : m.set a v i = m i := by
  simp [set, h]

theorem store_inside (m : Mem) {a i : Nat} {bytes : List UInt8} (hlow : a ≤ i)
    (hhigh : i - a < bytes.length) : m.store a bytes i = bytes[i - a] := by
  have hrange : a ≤ i ∧ i < a + bytes.length := by omega
  simp [store, hrange, hhigh]

theorem store_below (m : Mem) {a i : Nat} {bytes : List UInt8} (h : i < a) :
    m.store a bytes i = m i :=
  if_neg (by omega)

theorem store_above (m : Mem) {a i : Nat} {bytes : List UInt8} (h : a + bytes.length ≤ i) :
    m.store a bytes i = m i :=
  if_neg (by omega)

/-- The same store leaves two memories alike where they were, and where it stores. -/
theorem store_congr {m m' : Mem} {a i : Nat} {bytes : List UInt8}
    (h : m i = m' i ∨ a ≤ i ∧ i < a + bytes.length) : m.store a bytes i = m'.store a bytes i := by
  unfold store
  split
  · rfl
  · rename_i hout
    exact h.resolve_right hout

theorem store_congr_below {m m' : Mem} {a i : Nat} {bytes : List UInt8} (hi : i < a + bytes.length)
    (h : i < a → m i = m' i) : m.store a bytes i = m'.store a bytes i := by
  by_cases ha : i < a
  · exact store_congr (.inl (h ha))
  · exact store_congr (.inr ⟨by omega, hi⟩)

theorem set_eq_store (m : Mem) (a : Nat) (v : UInt8) : m.set a v = m.store a [v] := by
  funext i
  by_cases h : i = a
  · subst h
    simp [store]
  · rw [set_of_ne m v h, store, if_neg]
    simp only [List.length_singleton]
    omega

@[simp] theorem store_nil (m : Mem) (a : Nat) : m.store a [] = m := by
  funext i
  exact if_neg (by simp only [List.length_nil]; omega)

theorem store_append (m : Mem) (a : Nat) (left right : List UInt8) :
    (m.store a left).store (a + left.length) right = m.store a (left ++ right) := by
  funext i
  by_cases hleft : i < a + left.length
  · rw [store_below _ hleft]
    by_cases ha : a ≤ i
    · rw [store_inside m ha (by omega), store_inside m ha (by simp only [List.length_append]; omega),
        List.getElem_append_left]
    · rw [store_below m (by omega), store_below m (by omega)]
  · by_cases hright : i < a + left.length + right.length
    · rw [store_inside _ (by omega) (by omega),
        store_inside m (by omega) (by simp only [List.length_append]; omega),
        List.getElem_append_right (by omega)]
      congr 1
      omega
    · rw [store_above _ (by omega), store_above m (by omega),
        store_above m (by simp only [List.length_append]; omega)]

theorem store_cons (m : Mem) (a : Nat) (v : UInt8) (rest : List UInt8) :
    m.store a (v :: rest) = (m.set a v).store (a + 1) rest := by
  rw [set_eq_store]
  exact (store_append m a [v] rest).symm

/-! ### Loads -/

@[simp] theorem length_load (m : Mem) (a n : Nat) : (m.load a n).length = n := by
  induction n generalizing a with
  | zero => rfl
  | succ n ih => simp only [load, List.length_cons, ih]

@[simp] theorem getElem_load (m : Mem) (a n i : Nat) (hi : i < (m.load a n).length) :
    (m.load a n)[i] = m (a + i) := by
  induction n generalizing a i with
  | zero => simp [load] at hi
  | succ n ih =>
    cases i with
    | zero => simp [load]
    | succ i =>
      simp only [load, List.getElem_cons_succ, ih]
      congr 1
      omega

theorem load_eq_iff (m : Mem) (a : Nat) (bytes : List UInt8) :
    m.load a bytes.length = bytes ↔ ∀ (i : Nat) (hi : i < bytes.length), m (a + i) = bytes[i] := by
  constructor
  · intro h i hi
    rw [← getElem_load m a bytes.length i (by simpa using hi)]
    exact List.getElem_of_eq h (by simpa using hi)
  · intro h
    apply List.ext_getElem (by simp)
    intro i hi hi'
    rw [getElem_load, h i hi']

theorem load_congr {m m' : Mem} {a a' n : Nat} (h : ∀ i < n, m (a + i) = m' (a' + i)) :
    m.load a n = m'.load a' n := by
  apply List.ext_getElem (by simp)
  intro i hi _
  rw [getElem_load, getElem_load, h i (by simpa using hi)]

theorem load_ne {m m' : Mem} {a n i : Nat} (hlow : a ≤ i) (hhigh : i < a + n) (hne : m i ≠ m' i) :
    m.load a n ≠ m'.load a n := by
  intro h
  have hi : i - a < n := by omega
  have hbyte : (m.load a n)[i - a]? = (m'.load a n)[i - a]? := by rw [h]
  rw [List.getElem?_eq_getElem (by simpa using hi), List.getElem?_eq_getElem (by simpa using hi),
    getElem_load, getElem_load, Nat.add_sub_cancel' hlow] at hbyte
  exact hne (Option.some.inj hbyte)

theorem load_add (m : Mem) (a n k : Nat) : m.load a (n + k) = m.load a n ++ m.load (a + n) k := by
  induction n generalizing a with
  | zero => simp [load]
  | succ n ih =>
    rw [Nat.succ_add, load, load, List.cons_append, ih]
    congr 3
    omega

theorem load_succ (m : Mem) (a n : Nat) : m.load a (n + 1) = m a :: m.load (a + 1) n := rfl

@[simp] theorem load_zero (m : Mem) (a : Nat) : m.load a 0 = [] := rfl

theorem load_offset (m : Mem) (a b n : Nat) : (m.offset a).load b n = m.load (a + b) n :=
  load_congr fun i _ => by simp only [offset, Nat.add_assoc]

theorem load_split {m : Mem} {a n : Nat} {left right : List UInt8}
    (h : m.load a n = left ++ right) :
    m.load a left.length = left ∧ m.load (a + left.length) right.length = right := by
  have hn : n = left.length + right.length := by
    rw [← length_load m a n, h, List.length_append]
  rw [hn, load_add] at h
  exact List.append_inj h (by simp)

theorem load_prefix {m : Mem} {a n : Nat} {left right : List UInt8}
    (h : m.load a n = left ++ right) : m.load a left.length = left :=
  (load_split h).1

theorem load_flatten {m : Mem} {a k : Nat} {records : List (List UInt8)}
    (hlength : ∀ record ∈ records, record.length = k)
    (h : m.load a (k * records.length) = records.flatten) (i : Nat) (hi : i < records.length) :
    m.load (a + k * i) k = records[i] := by
  induction records generalizing a i with
  | nil => exact absurd hi (by simp)
  | cons record rest ih =>
    have hk : record.length = k := hlength record List.mem_cons_self
    have hrest := fun r hr => hlength r (List.mem_cons_of_mem record hr)
    obtain ⟨hfirst, htail⟩ := load_split (h.trans List.flatten_cons)
    rw [hk] at hfirst
    rw [hk, length_flatten_of_forall hrest] at htail
    cases i with
    | zero => exact hfirst
    | succ i =>
      have hnext := ih hrest htail i (Nat.lt_of_succ_lt_succ hi)
      rw [List.getElem_cons_succ, ← hnext, Nat.mul_succ]
      congr 1
      omega

/-! ### Loads after stores -/

@[simp] theorem load_store_self (m : Mem) (a : Nat) (bytes : List UInt8) :
    (m.store a bytes).load a bytes.length = bytes := by
  rw [load_eq_iff]
  intro i hi
  rw [store_inside m (by omega) (by omega)]
  congr 1
  omega

theorem load_store_disjoint (m : Mem) {a b n : Nat} {bytes : List UInt8}
    (h : b + n ≤ a ∨ a + bytes.length ≤ b) : (m.store a bytes).load b n = m.load b n := by
  apply load_congr
  intro i hi
  rcases h with h | h
  · exact store_below m (by omega)
  · exact store_above m (by omega)

theorem load_store_end (m : Mem) (a n : Nat) (bytes : List UInt8) :
    (m.store (a + n) bytes).load a (n + bytes.length) = m.load a n ++ bytes := by
  rw [load_add, load_store_disjoint m (.inl le_rfl), load_store_self]

theorem load_ofList (bytes rest : List UInt8) :
    (ofList (bytes ++ rest)).load 0 bytes.length = bytes := by
  rw [load_eq_iff]
  intro i hi
  simp [ofList, List.getElem?_append_left hi, hi]

theorem load_ofList_self (bytes : List UInt8) : (ofList bytes).load 0 bytes.length = bytes := by
  have h := load_ofList bytes []
  rwa [List.append_nil] at h

/-- A store makes one memory another if it stores what that holds there, and they agree elsewhere. -/
theorem store_eq_of_load {m m' : Mem} {a : Nat} {bytes : List UInt8}
    (hin : m'.load a bytes.length = bytes)
    (hout : ∀ i, i < a ∨ a + bytes.length ≤ i → m i = m' i) : m.store a bytes = m' := by
  funext i
  by_cases hlow : a ≤ i
  · by_cases hhigh : i - a < bytes.length
    · have hbyte := (load_eq_iff m' a bytes).mp hin (i - a) hhigh
      rw [Nat.add_sub_cancel' hlow] at hbyte
      rw [store_inside m hlow hhigh, hbyte]
    · rw [store_above m (by omega), hout i (.inr (by omega))]
  · rw [store_below m (by omega), hout i (.inl (by omega))]

/-! ### Exchanged neighbours -/

theorem load_swab (m : Mem) (n : Nat) : (m.swab n).load 0 n = swapPairs (m.load 0 n) := by
  apply List.ext_getElem (by simp)
  intro i hi _
  have hin : i < n := by simpa using hi
  have hpartner : partner (m.load 0 n).length i < (m.load 0 n).length :=
    partner_lt (by simpa using hin)
  rw [getElem_load, getElem_swapPairs _ _ (by simpa using hin) (by simpa using hin) hpartner]
  simp [swab, hin]

/-- Exchanging the bytes of an even number twice puts them back. -/
theorem swab_swab (m : Mem) {n : Nat} (heven : n % 2 = 0) : (m.swab n).swab n = m := by
  funext i
  by_cases hi : i < n
  · rw [swab, if_pos hi, swab, if_pos (partner_lt hi), partner_partner heven hi]
  · rw [swab, if_neg hi, swab, if_neg hi]

theorem swab_above (m : Mem) {n i : Nat} (h : n ≤ i) : m.swab n i = m i :=
  if_neg (by omega)

theorem swab_even {n i : Nat} (m : Mem) (heven : i % 2 = 0) (h : i + 1 < n) : m.swab n i = m (i + 1) := by
  rw [swab, if_pos (by omega), partner, if_neg (by omega), if_pos h]

theorem swab_odd {n i : Nat} (m : Mem) (heven : i % 2 = 0) (h : i + 1 < n) : m.swab n (i + 1) = m i := by
  rw [swab, if_pos h, partner, if_pos (by omega), Nat.add_sub_cancel]

@[simp] theorem swab_zero (m : Mem) : m.swab 0 = m := by
  funext i
  exact swab_above m (Nat.zero_le i)

theorem swab_add_two (m : Mem) {i : Nat} (heven : i % 2 = 0) :
    ((m.swab i).set i (m.swab i (i + 1))).set (i + 1) (m.swab i i) = m.swab (i + 2) := by
  have hfirst : m.swab i i = m i := swab_above m (Nat.le_refl i)
  have hsecond : m.swab i (i + 1) = m (i + 1) := swab_above m (Nat.le_succ i)
  rw [hfirst, hsecond]
  funext k
  by_cases hodd : k = i + 1
  · subst hodd
    rw [set_self, swab_odd m heven (Nat.lt_succ_self _)]
  rw [set_of_ne _ _ hodd]
  by_cases hpair : k = i
  · subst hpair
    rw [set_self, swab_even m heven (Nat.lt_succ_self _)]
  rw [set_of_ne _ _ hpair]
  by_cases hbelow : k < i
  · have hpartner : partner i k = partner (i + 2) k := by
      unfold partner
      split_ifs <;> omega
    rw [swab, swab, if_pos hbelow, if_pos (by omega), hpartner]
  · rw [swab_above m (by omega), swab_above m (by omega)]

end Mem

end Lib
