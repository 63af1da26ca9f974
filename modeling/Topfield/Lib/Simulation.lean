import Topfield.Lib.Transport

/-!
# Simulation

Two systems that answer every call alike, from states that are related and stay so, look the same to every
client, even to one that decides on each call by the answers it has got so far. Two transports are like that if
they take a buffer as a whole in the same cases, and if what they read into one comes to the same.
-/

namespace Lib

universe u v w

variable {S S' : Type u} {C : Type v} {O : Type w}

/-- A client calls on until it has seen enough. -/
abbrev Client (C : Type v) (O : Type w) := List O → Option C

/-- What a client has seen after `n` calls at most, and the state that it leaves. -/
def Client.run (client : Client C O) (step : S → C → O × S) : Nat → List O → S → List O × S
  | 0, seen, s => (seen, s)
  | n + 1, seen, s =>
    match client seen with
    | none => (seen, s)
    | some c => client.run step n (seen ++ [(step s c).1]) (step s c).2

/-- Every call is answered alike, and related states are left. -/
def Simulation (R : S → S' → Prop) (step : S → C → O × S) (step' : S' → C → O × S') : Prop :=
  ∀ s s' c, R s s' → (step s c).1 = (step' s' c).1 ∧ R (step s c).2 (step' s' c).2

theorem Simulation.run {R : S → S' → Prop} {step : S → C → O × S} {step' : S' → C → O × S'}
    (h : Simulation R step step') (client : Client C O) (n : Nat) (seen : List O) {s : S} {s' : S'}
    (hs : R s s') : (client.run step n seen s).1 = (client.run step' n seen s').1 ∧
      R (client.run step n seen s).2 (client.run step' n seen s').2 := by
  induction n generalizing seen s s' with
  | zero => exact ⟨rfl, hs⟩
  | succ n ih =>
    simp only [Client.run]
    cases client seen with
    | none => exact ⟨rfl, hs⟩
    | some c =>
      obtain ⟨hanswer, hnext⟩ := h s s' c hs
      simp only
      rw [← hanswer]
      exact ih _ hnext

/-! ### Transports -/

variable {σ σ' : Type}

/-- Two transports whose writes of up to `size` bytes succeed together, and whose reads are alike. -/
structure Transport.Simulates (t : Transport σ) (t' : Transport σ') (size : Nat)
    (Alike : Int × Mem → Int × Mem → Prop) (R : σ → σ' → Prop) : Prop where
  write : ∀ {s s'} ep timeout (bytes : List UInt8), R s s' → 0 < bytes.length → bytes.length ≤ size →
    ((t.write s ep timeout bytes).1 = bytes.length ↔ (t'.write s' ep timeout bytes).1 = bytes.length) ∧
      R (t.write s ep timeout bytes).2 (t'.write s' ep timeout bytes).2
  read : ∀ {s s'} ep timeout, R s s' →
    Alike (t.read s ep timeout size).1 (t'.read s' ep timeout size).1 ∧
      R (t.read s ep timeout size).2 (t'.read s' ep timeout size).2

end Lib
