import Mathlib.Data.Nat.Count

/-!
# Executions

Runs of a system whose steps can be refused, as the states it is in and the actions it takes, one after the
other, so that one can speak of what was so at a moment and what happened in between.
-/

namespace Lib

universe u v

variable {S : Type u} {A : Type v} {step : S → A → Option S} {start : S}

/-- An execution of `length` actions. What `state` and `action` say of later moments means nothing. -/
structure Execution (step : S → A → Option S) (start : S) where
  length : Nat
  state : Nat → S
  action : Nat → A
  state_zero : state 0 = start
  next : ∀ i < length, step (state i) (action i) = some (state (i + 1))

namespace Execution

/-- What holds at the start and is kept from every moment to the next one holds at every moment. -/
theorem induction (run : Execution step start) (P : Nat → Prop) (hstart : P 0)
    (hnext : ∀ i < run.length, P i → P (i + 1)) : ∀ i ≤ run.length, P i := by
  intro i
  induction i with
  | zero => exact fun _ => hstart
  | succ i ih => exact fun hi => hnext i hi (ih (Nat.le_of_succ_le hi))

theorem invariant (run : Execution step start) (Inv : S → Prop) (hstart : Inv start)
    (hstep : ∀ s a s', Inv s → step s a = some s' → Inv s') : ∀ i ≤ run.length, Inv (run.state i) := by
  refine run.induction _ (by rw [run.state_zero]; exact hstart) fun i hi hinv => ?_
  exact hstep _ _ _ hinv (run.next i hi)

/-- What holds at a moment and is kept from then on holds at every later moment. -/
theorem induction_from (run : Execution step start) (P : Nat → Prop) {i : Nat} (hi : P i)
    (hnext : ∀ k, i ≤ k → k < run.length → P k → P (k + 1)) : ∀ k, i ≤ k → k ≤ run.length → P k := by
  intro k hik
  induction k, hik using Nat.le_induction with
  | base => exact fun _ => hi
  | succ k hik ih => exact fun hk => hnext k hik hk (ih (Nat.le_of_succ_le hk))

/-! ### Counting actions -/

section Count

variable (run : Execution step start) (kind : A → Prop) [DecidablePred kind]

/-- How many actions of a kind there are from moment `i` to moment `k`. -/
def count (i k : Nat) : Nat := Nat.count (fun j => i ≤ j ∧ kind (run.action j)) k

theorem count_self (i : Nat) : run.count kind i i = 0 := by
  rw [count, Nat.count_iff_forall_not]
  rintro j hj ⟨hij, -⟩
  omega

theorem count_succ {i k : Nat} (h : i ≤ k) :
    run.count kind i (k + 1) = run.count kind i k + if kind (run.action k) then 1 else 0 := by
  simp only [count, Nat.count_succ, h, true_and]

/-- If from a moment on every action of a kind lowers a measure that no action raises, there are only so many of
them. -/
theorem count_add_le (measure : S → Nat) {i k : Nat} (hik : i ≤ k) (hk : k ≤ run.length)
    (hstep : ∀ j, i ≤ j → j < k →
      measure (run.state (j + 1)) + (if kind (run.action j) then 1 else 0) ≤ measure (run.state j)) :
    run.count kind i k + measure (run.state k) ≤ measure (run.state i) := by
  have hcount : ∀ j, i ≤ j → j ≤ run.length → j ≤ k →
      run.count kind i j + measure (run.state j) ≤ measure (run.state i) := by
    refine run.induction_from _ ?_ ?_
    · intro _
      rw [count_self, Nat.zero_add]
    · intro j hij _ ih hjk
      have hnext := hstep j hij hjk
      have hbefore := ih (Nat.le_of_lt hjk)
      rw [run.count_succ kind hij]
      omega
  exact hcount k hik hk (Nat.le_refl k)

end Count

/-- The execution of a list of actions, none of which is refused. -/
def ofActions (actions : List A) (idle : A)
    (h : ∀ i < actions.length, step ((actions.take i).foldl (fun s a => (step s a).getD s) start)
        (actions.getD i idle) = some ((actions.take (i + 1)).foldl (fun s a => (step s a).getD s) start)) :
    Execution step start where
  length := actions.length
  state i := (actions.take i).foldl (fun s a => (step s a).getD s) start
  action i := actions.getD i idle
  state_zero := rfl
  next := h

end Execution

end Lib
