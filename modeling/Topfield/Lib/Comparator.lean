import Mathlib.Data.List.Basic
import Mathlib.Tactic.SplitIfs

/-!
# Comparators

A comparator gives a negative number, zero or a positive one. A sort may assume that it is consistent on the
elements to be sorted, which it is if its sign is that of a transitive order on them. Comparators are made from
others by comparing a first key and, where that is equal, a second one.
-/

namespace Lib

universe u

variable {α : Type u}

/-- Antisymmetric in sign and transitive on the elements of a list. -/
structure Consistent (cmp : α → α → Int) (l : List α) : Prop where
  antisymm : ∀ a ∈ l, ∀ b ∈ l, cmp a b < 0 ↔ 0 < cmp b a
  trans : ∀ a ∈ l, ∀ b ∈ l, ∀ c ∈ l, cmp a b ≤ 0 → cmp b c ≤ 0 → cmp a c ≤ 0

/-- The sign of the comparator is that of the order, on the elements of a list. -/
structure Agrees (cmp : α → α → Int) (le : α → α → Prop) (l : List α) : Prop where
  nonpos : ∀ a ∈ l, ∀ b ∈ l, cmp a b ≤ 0 ↔ le a b
  nonneg : ∀ a ∈ l, ∀ b ∈ l, 0 ≤ cmp a b ↔ le b a

/-- A sort by comparators, which needs a consistent one. -/
def Sorts (sort : (α → α → Int) → List α → List α) : Prop :=
  ∀ cmp l, Consistent cmp l → (sort cmp l).Perm l ∧ (sort cmp l).Pairwise fun a b => cmp a b ≤ 0

/-- Compare by the first key, and by the second one where the first is equal. -/
def thenBy (first second : α → α → Int) (a b : α) : Int :=
  let ret := first a b
  if ret = 0 then second a b else ret

/-- Order by the first key, and by the second one where the first is equal. -/
def lexLe (first second : α → α → Prop) (a b : α) : Prop := first a b ∧ (first b a → second a b)

variable {cmp first second : α → α → Int} {le le' : α → α → Prop} {l : List α}

theorem lexLe_trans (hle : ∀ a b c, le a b → le b c → le a c) (hle' : ∀ a b c, le' a b → le' b c → le' a c)
    (a b c : α) (hab : lexLe le le' a b) (hbc : lexLe le le' b c) : lexLe le le' a c :=
  ⟨hle a b c hab.1 hbc.1, fun hca => hle' a b c (hab.2 (hle b c a hbc.1 hca)) (hbc.2 (hle c a b hca hab.1))⟩

namespace Agrees

theorem consistent (h : Agrees cmp le l) (hle : ∀ a b c, le a b → le b c → le a c) : Consistent cmp l := by
  constructor
  · intro a ha b hb
    rw [← Int.not_le, h.nonneg a ha b hb, ← Int.not_le, h.nonpos b hb a ha]
  · intro a ha b hb c hc hab hbc
    exact (h.nonpos a ha c hc).mpr (hle a b c ((h.nonpos a ha b hb).mp hab) ((h.nonpos b hb c hc).mp hbc))

theorem neg (h : Agrees cmp le l) : Agrees (fun a b => -cmp a b) (fun a b => le b a) l := by
  constructor
  · intro a ha b hb
    rw [← h.nonneg a ha b hb]
    omega
  · intro a ha b hb
    rw [← h.nonpos a ha b hb]
    omega

/-- Two keys are compared in the order of both exactly if the second agrees where the first is equal. -/
theorem thenBy_iff (h : Agrees first le l) :
    Agrees (thenBy first second) (lexLe le le') l ↔
      ∀ a ∈ l, ∀ b ∈ l, first a b = 0 → (second a b ≤ 0 ↔ le' a b) ∧ (0 ≤ second a b ↔ le' b a) := by
  have hequal (a : α) (ha : a ∈ l) (b : α) (hb : b ∈ l) (hzero : first a b = 0) : le a b ∧ le b a :=
    ⟨(h.nonpos a ha b hb).mp (by omega), (h.nonneg a ha b hb).mp (by omega)⟩
  constructor
  · intro hboth a ha b hb hzero
    obtain ⟨hab, hba⟩ := hequal a ha b hb hzero
    have hnonpos := hboth.nonpos a ha b hb
    have hnonneg := hboth.nonneg a ha b hb
    rw [thenBy, if_pos hzero] at hnonpos hnonneg
    rw [hnonpos, hnonneg]
    exact ⟨⟨fun hle => hle.2 hba, fun hle => ⟨hab, fun _ => hle⟩⟩,
      ⟨fun hle => hle.2 hab, fun hle => ⟨hba, fun _ => hle⟩⟩⟩
  · intro hsecond
    constructor
    · intro a ha b hb
      have hnonpos := h.nonpos a ha b hb
      have hnonneg := h.nonneg a ha b hb
      rw [thenBy, lexLe, ← hnonpos, ← hnonneg]
      split_ifs with hzero
      · rw [(hsecond a ha b hb hzero).1]
        exact ⟨fun hle => ⟨by omega, fun _ => hle⟩, fun hle => hle.2 (by omega)⟩
      · exact ⟨fun hle => ⟨hle, fun hge => absurd (Int.le_antisymm hle hge) hzero⟩, fun hle => hle.1⟩
    · intro a ha b hb
      have hnonpos := h.nonpos a ha b hb
      have hnonneg := h.nonneg a ha b hb
      rw [thenBy, lexLe, ← hnonpos, ← hnonneg]
      split_ifs with hzero
      · rw [(hsecond a ha b hb hzero).2]
        exact ⟨fun hle => ⟨by omega, fun _ => hle⟩, fun hle => hle.2 (by omega)⟩
      · exact ⟨fun hge => ⟨hge, fun hle => absurd (Int.le_antisymm hle hge) hzero⟩, fun hge => hge.1⟩

end Agrees

theorem Sorts.sorted {sort : (α → α → Int) → List α → List α} (hsort : Sorts sort) (h : Agrees cmp le l)
    (hle : ∀ a b c, le a b → le b c → le a c) : (sort cmp l).Perm l ∧ (sort cmp l).Pairwise le := by
  obtain ⟨hperm, hpairwise⟩ := hsort cmp l (h.consistent hle)
  refine ⟨hperm, hpairwise.imp_of_mem fun {a b} ha hb hab => ?_⟩
  exact (h.nonpos a (hperm.mem_iff.mp ha) b (hperm.mem_iff.mp hb)).mp hab

/-- Merge sort is a sort by comparators. -/
theorem sorts_mergeSort : Sorts fun (cmp : α → α → Int) l => l.mergeSort fun a b => decide (cmp a b ≤ 0) := by
  intro cmp l h
  refine ⟨List.mergeSort_perm l _, ?_⟩
  -- the laws of the comparator hold on the elements of the list only
  have hattach : (l.attach.mergeSort fun a b => decide (cmp a.1 b.1 ≤ 0)).map Subtype.val =
      l.mergeSort fun a b => decide (cmp a b ≤ 0) := by
    have hsort := congrArg (fun l => l.mergeSort fun a b => decide (cmp a b ≤ 0)) (List.attach_map_subtype_val l)
    refine Eq.trans ?_ hsort
    exact List.map_mergeSort fun a _ b _ => rfl
  have hsorted := @List.pairwise_mergeSort { a // a ∈ l } (fun a b => decide (cmp a.1 b.1 ≤ 0))
    (fun a b c hab hbc => by
      rw [decide_eq_true_iff] at hab hbc ⊢
      exact h.trans a.1 a.2 b.1 b.2 c.1 c.2 hab hbc)
    (fun a b => by
      have hanti := h.antisymm b.1 b.2 a.1 a.2
      rw [Bool.or_eq_true, decide_eq_true_iff, decide_eq_true_iff]
      omega) l.attach
  show (l.mergeSort fun a b => decide (cmp a b ≤ 0)).Pairwise _
  rw [← hattach, List.pairwise_map]
  exact hsorted.imp of_decide_eq_true

end Lib
