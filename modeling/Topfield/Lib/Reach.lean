/-!
# Reachable states

The states a system gets to from a start by steps that are allowed. An invariant that every allowed
step keeps holds in all of them, and allowing more steps reaches more of them.
-/

namespace Lib

universe u v

variable {S : Type u} {A : Type v} {step : S → A → S} {allowed allowed' : S → A → Prop} {start s : S}

/-- Reachable from `start` by allowed steps. -/
inductive Reach (step : S → A → S) (allowed : S → A → Prop) (start : S) : S → Prop
  | start : Reach step allowed start start
  | next {s : S} (a : A) : Reach step allowed start s → allowed s a → Reach step allowed start (step s a)

theorem Reach.invariant {Inv : S → Prop} (h : Reach step allowed start s) (hstart : Inv start)
    (hstep : ∀ s a, Inv s → allowed s a → Inv (step s a)) : Inv s := by
  induction h with
  | start => exact hstart
  | next a _ hallowed ih => exact hstep _ a ih hallowed

theorem Reach.mono (h : Reach step allowed start s) (hallowed : ∀ s a, allowed s a → allowed' s a) :
    Reach step allowed' start s := by
  induction h with
  | start => exact .start
  | next a _ ha ih => exact .next a ih (hallowed _ a ha)

end Lib
