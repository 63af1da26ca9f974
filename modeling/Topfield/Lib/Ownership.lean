import Topfield.Lib.Execution

/-!
# Locks

A lock has one owner or none. Processes claim it, each by its own steps, and the data behind it is changed by
those only that claim it. If every step treats the lock so, then in a whole run whoever claims it owns it, and
what an owner has made of the data stays as it is while it claims the lock.
-/

namespace Lib

universe u v w x

variable {S : Type u} {A : Type v} {P : Type w} {step : S → P × A → Option S} {start : S}

/-- How the steps of a system treat a lock. `Allowed` is what the processes themselves are trusted with. -/
structure LockDiscipline (step : S → P × A → Option S) (Allowed : S → P × A → Prop) (owner : S → Option P)
    (Claims : S → P → Prop) : Prop where
  /-- the lock is not taken from its owner -/
  keeps : ∀ {s s' p q a}, step s (p, a) = some s' → q ≠ p → owner s = some q → owner s' = some q
  /-- nor does one process claim it for another -/
  others : ∀ {s s' p q a}, step s (p, a) = some s' → q ≠ p → Claims s' q → Claims s q
  /-- a process that claims it has just taken it, or has not let go of it -/
  takes : ∀ {s s' p a}, Allowed s (p, a) → step s (p, a) = some s' → (Claims s p → owner s = some p) →
    Claims s' p → owner s' = some p

namespace LockDiscipline

variable {Allowed : S → P × A → Prop} {owner : S → Option P} {Claims : S → P → Prop}
  (discipline : LockDiscipline step Allowed owner Claims) (run : Execution step start)
  (hallowed : ∀ i < run.length, Allowed (run.state i) (run.action i))

include discipline hallowed

/-- A process that claims the lock owns it. -/
theorem owner_of_claims (hstart : ∀ p, ¬ Claims start p) {i : Nat} (hi : i ≤ run.length) {p : P}
    (h : Claims (run.state i) p) : owner (run.state i) = some p := by
  refine run.induction (fun i => ∀ p, Claims (run.state i) p → owner (run.state i) = some p) ?_ ?_ i hi p h
  · rw [run.state_zero]
    exact fun p h => absurd h (hstart p)
  · intro i hi ih p h
    have hstep := run.next i hi
    by_cases hp : p = (run.action i).1
    · subst hp
      exact discipline.takes (hallowed i hi) hstep (ih _) h
    · exact discipline.keeps hstep hp (ih p (discipline.others hstep hp h))

/-- No two processes claim it. -/
theorem claims_unique (hstart : ∀ p, ¬ Claims start p) {i : Nat} (hi : i ≤ run.length) {p q : P}
    (hp : Claims (run.state i) p) (hq : Claims (run.state i) q) : p = q := by
  have hpowner := discipline.owner_of_claims run hallowed hstart hi hp
  have hqowner := discipline.owner_of_claims run hallowed hstart hi hq
  rw [hpowner] at hqowner
  exact Option.some.inj hqowner

end LockDiscipline

/-- How the steps treat the data behind the lock. -/
structure Guards {D : Type x} (step : S → P × A → Option S) (Allowed : S → P × A → Prop) (Claims : S → P → Prop)
    (data : S → D) (Finished : S → P → Prop) (Valid : P → D → Prop) : Prop where
  claims : ∀ {s p}, Finished s p → Claims s p
  others : ∀ {s s' p q a}, step s (p, a) = some s' → q ≠ p → Finished s' q → Finished s q
  /-- it is changed by those only that claim the lock -/
  changes : ∀ {s s' p a}, step s (p, a) = some s' → data s' ≠ data s → Claims s p
  makes : ∀ {s s' p a}, Allowed s (p, a) → step s (p, a) = some s' → (Finished s p → Valid p (data s)) →
    Finished s' p → Valid p (data s')

/-- While a process that has finished with the data claims the lock, the data is what it has made of it. -/
theorem Guards.valid_of_finished {Allowed : S → P × A → Prop} {owner : S → Option P} {Claims : S → P → Prop}
    {D : Type x} {data : S → D} {Finished : S → P → Prop} {Valid : P → D → Prop}
    (guards : Guards step Allowed Claims data Finished Valid)
    (discipline : LockDiscipline step Allowed owner Claims)
    (run : Execution step start) (hallowed : ∀ i < run.length, Allowed (run.state i) (run.action i))
    (hstart : ∀ p, ¬ Claims start p) {i : Nat} (hi : i ≤ run.length) {p : P} (h : Finished (run.state i) p) :
    Valid p (data (run.state i)) := by
  refine run.induction (fun i => ∀ p, Finished (run.state i) p → Valid p (data (run.state i))) ?_ ?_ i hi p h
  · rw [run.state_zero]
    exact fun p h => absurd (guards.claims h) (hstart p)
  · intro i hi ih p h
    have hstep := run.next i hi
    by_cases hp : p = (run.action i).1
    · subst hp
      exact guards.makes (hallowed i hi) hstep (ih _) h
    · have hfinished := guards.others hstep hp h
      have hsame : data (run.state (i + 1)) = data (run.state i) := by
        by_contra hchanged
        exact hp (discipline.claims_unique run hallowed hstart (Nat.le_of_lt hi) (guards.claims hfinished)
          (guards.changes hstep hchanged))
      rw [hsame]
      exact ih p hfinished

end Lib
