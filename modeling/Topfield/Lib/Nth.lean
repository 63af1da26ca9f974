import Mathlib.Data.List.Basic

/-!
# The n-th match

The element of a list that is found by counting those with a property, from zero.
-/

namespace Lib

universe u v

variable {α : Type u} {β : Type v}

/-- The element at an index among those with a property. -/
def nthMatch (p : α → Bool) (index : Int) : List α → Option α
  | [] => none
  | x :: l => if p x then (if index = 0 then some x else nthMatch p (index - 1) l) else nthMatch p index l

theorem nthMatch_of_neg (p : α → Bool) {index : Int} (h : index < 0) (l : List α) : nthMatch p index l = none := by
  induction l generalizing index with
  | nil => rfl
  | cons x l ih =>
    have hindex : index ≠ 0 := by omega
    rw [nthMatch, if_neg hindex, ih h, ih (by omega), ite_self]

/-- What is found is the element at that place of the list of those with the property. -/
theorem nthMatch_eq (p : α → Bool) (n : Nat) (l : List α) : nthMatch p n l = (l.filter p)[n]? := by
  induction l generalizing n with
  | nil => rfl
  | cons x l ih =>
    rw [nthMatch, List.filter_cons]
    split_ifs with hp hn
    · rw [show n = 0 by omega]
      rfl
    · obtain ⟨m, rfl⟩ := Nat.exists_eq_succ_of_ne_zero (by omega : n ≠ 0)
      rw [Nat.succ_eq_add_one, show ((m + 1 : Nat) : Int) - 1 = m by omega, ih, List.getElem?_cons_succ]
    · exact ih n

theorem nthMatch_append (p : α → Bool) (index : Int) (l l' : List α) :
    nthMatch p index (l ++ l') = (nthMatch p index l).or (nthMatch p (index - (l.countP p : Nat)) l') := by
  induction l generalizing index with
  | nil => rw [List.nil_append, nthMatch, Option.none_or, List.countP_nil, Int.natCast_zero, Int.sub_zero]
  | cons x l ih =>
    rw [List.cons_append, nthMatch, nthMatch, List.countP_cons]
    split_ifs with hp hindex
    · rfl
    · rw [ih, Int.sub_sub, Int.natCast_add, Int.natCast_one, Int.add_comm]
    · rw [ih, Nat.add_zero]

theorem nthMatch_congr {p q : α → Bool} {l : List α} (h : ∀ x ∈ l, p x = q x) (index : Int) :
    nthMatch p index l = nthMatch q index l := by
  induction l generalizing index with
  | nil => rfl
  | cons x l ih =>
    have htail := ih fun y hy => h y (List.mem_cons_of_mem _ hy)
    rw [nthMatch, nthMatch, h x List.mem_cons_self, htail, htail]

theorem nthMatch_map (f : α → β) (p : β → Bool) (index : Int) (l : List α) :
    nthMatch p index (l.map f) = (nthMatch (p ∘ f) index l).map f := by
  induction l generalizing index with
  | nil => rfl
  | cons x l ih =>
    rw [List.map_cons, nthMatch, nthMatch, Function.comp_apply, ih, ih]
    split_ifs <;> rfl

end Lib
