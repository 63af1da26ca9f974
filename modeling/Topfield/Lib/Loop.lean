import Mathlib.Logic.Function.Iterate

/-!
# Loops

A loop goes on by `next` until `stop` gives a result. The first turn that stops it decides the result. It
takes a fuel because there may be no such turn; a measure that every turn lowers shows that there is one.
-/

namespace Lib

universe u v

variable {S : Type u} {R : Type v} {stop : S → Option R} {next : S → S} {s : S} {r : R} {n : Nat}

/-- A loop of `fuel` turns at most. -/
def loop (stop : S → Option R) (next : S → S) : Nat → S → Option R
  | 0, _ => none
  | fuel + 1, s =>
    match stop s with
    | some r => some r
    | none => loop stop next fuel (next s)

/-- Turn `n` is the first one that stops the loop, with the result `r`. -/
structure StopsAt (stop : S → Option R) (next : S → S) (s : S) (n : Nat) (r : R) : Prop where
  before : ∀ i < n, stop (next^[i] s) = none
  result : stop (next^[n] s) = some r

theorem stopsAt_zero_iff : StopsAt stop next s 0 r ↔ stop s = some r :=
  ⟨fun h => h.result, fun h => ⟨fun i hi => absurd hi (Nat.not_lt_zero i), h⟩⟩

theorem stopsAt_succ_iff :
    StopsAt stop next s (n + 1) r ↔ stop s = none ∧ StopsAt stop next (next s) n r := by
  constructor
  · intro h
    exact ⟨h.before 0 (Nat.succ_pos n), fun i hi => h.before (i + 1) (Nat.succ_lt_succ hi), h.result⟩
  · rintro ⟨hfirst, hbefore, hresult⟩
    refine ⟨fun i hi => ?_, hresult⟩
    cases i with
    | zero => exact hfirst
    | succ i => exact hbefore i (Nat.lt_of_succ_lt_succ hi)

/-- The result of a loop is that of the first turn that stops it. -/
theorem loop_eq_some_iff {fuel : Nat} :
    loop stop next fuel s = some r ↔ ∃ n < fuel, StopsAt stop next s n r := by
  induction fuel generalizing s with
  | zero =>
    refine iff_of_false (fun h => nomatch h) ?_
    rintro ⟨n, hn, -⟩
    exact Nat.not_lt_zero n hn
  | succ fuel ih =>
    rw [loop]
    cases hstop : stop s with
    | some r' =>
      constructor
      · intro h
        exact ⟨0, Nat.succ_pos fuel, stopsAt_zero_iff.mpr (hstop.trans h)⟩
      · rintro ⟨n, -, h⟩
        cases n with
        | zero => exact hstop.symm.trans h.result
        | succ n => exact absurd (hstop.symm.trans (stopsAt_succ_iff.mp h).1) (by simp)
    | none =>
      simp only
      rw [ih]
      constructor
      · rintro ⟨n, hn, h⟩
        exact ⟨n + 1, Nat.succ_lt_succ hn, stopsAt_succ_iff.mpr ⟨hstop, h⟩⟩
      · rintro ⟨n, hn, h⟩
        cases n with
        | zero => exact absurd (hstop.symm.trans h.result) (by simp)
        | succ n => exact ⟨n, Nat.lt_of_succ_lt_succ hn, (stopsAt_succ_iff.mp h).2⟩

/-- What every turn keeps holds when the loop is stopped. -/
theorem loop_invariant {Inv : S → Prop} {Post : R → Prop} {fuel : Nat} (hnext : ∀ s, Inv s → Inv (next s))
    (hstop : ∀ s r, Inv s → stop s = some r → Post r) (h : Inv s) (hloop : loop stop next fuel s = some r) :
    Post r := by
  obtain ⟨n, -, hstops⟩ := loop_eq_some_iff.mp hloop
  exact hstop _ r (Function.Iterate.rec Inv h hnext n) hstops.result

/-- With an invariant that every turn keeps and a measure that it lowers, the end is reached. -/
theorem exists_iterate {Inv End : S → Prop} (μ : S → Nat)
    (hstep : ∀ s, Inv s → ¬ End s → Inv (next s) ∧ μ (next s) < μ s) (h : Inv s) :
    ∃ n ≤ μ s, End (next^[n] s) := by
  induction hm : μ s using Nat.strongRecOn generalizing s with
  | _ m ih =>
    by_cases hend : End s
    · exact ⟨0, Nat.zero_le _, hend⟩
    · obtain ⟨hnext, hlower⟩ := hstep s h hend
      obtain ⟨n, hn, hreached⟩ := ih (μ (next s)) (by omega) hnext rfl
      exact ⟨n + 1, by omega, hreached⟩

end Lib
