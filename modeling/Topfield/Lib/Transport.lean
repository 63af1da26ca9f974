import Topfield.Lib.Memory

/-!
# Transports

The far end of a connection as a program meets it: a state, what a write of some bytes returns and
what a read returns and leaves in the buffer it was given. Every transport has a logged version, which
behaves the same and records what went over the wire.
-/

namespace Lib

/-- What is behind a connection. A write reports how many bytes were taken and a read how many were
stored, both possibly negative, and a read also yields the buffer's content after it. -/
structure Transport (σ : Type) where
  write : σ → (ep : UInt8) → (timeout : Int) → (bytes : List UInt8) → Int × σ
  read : σ → (ep : UInt8) → (timeout : Int) → (size : Nat) → (Int × Mem) × σ

/-- One transfer on the wire. -/
inductive Event
  | wrote (bytes : List UInt8) (ret : Int)
  | read (ret : Int) (content : Mem)

namespace Event

/-- A write that was taken as a whole. -/
def Delivers : Event → List UInt8 → Prop
  | wrote bytes ret, sent => bytes = sent ∧ ret = bytes.length
  | read _ _, _ => False

/-- A write that was not taken as a whole. -/
def SendFailed : Event → Prop
  | wrote bytes ret => ret ≠ bytes.length
  | read _ _ => False

def IsRead : Event → Prop
  | wrote _ _ => False
  | read _ _ => True

def written : Event → Option (List UInt8)
  | wrote bytes _ => some bytes
  | read _ _ => none

instance (ev : Event) (sent : List UInt8) : Decidable (ev.Delivers sent) := by
  cases ev
  · exact inferInstanceAs (Decidable (_ ∧ _))
  · exact inferInstanceAs (Decidable False)

instance (ev : Event) : Decidable ev.SendFailed := by
  cases ev
  · exact inferInstanceAs (Decidable (_ ≠ _))
  · exact inferInstanceAs (Decidable False)

instance (ev : Event) : Decidable ev.IsRead := by
  cases ev
  · exact inferInstanceAs (Decidable False)
  · exact inferInstanceAs (Decidable True)

end Event

/-! ### Logs -/

/-- The number of times `sent` was delivered. -/
def deliveries (sent : List UInt8) (log : List Event) : Nat := log.countP fun ev => ev.Delivers sent

def reads (log : List Event) : Nat := log.countP fun ev => ev.IsRead

def transfers (log : List Event) : List (List UInt8) := log.filterMap Event.written

/-- `P` holds of the log at every moment something is read. -/
def AtReads (P : List Event → Prop) (log : List Event) : Prop :=
  ∀ before ev after, log = before ++ ev :: after → ev.IsRead → P before

@[simp] theorem deliveries_append (sent : List UInt8) (log more : List Event) :
    deliveries sent (log ++ more) = deliveries sent log + deliveries sent more :=
  List.countP_append

@[simp] theorem reads_append (log more : List Event) : reads (log ++ more) = reads log + reads more :=
  List.countP_append

@[simp] theorem transfers_append (log more : List Event) :
    transfers (log ++ more) = transfers log ++ transfers more :=
  List.filterMap_append

theorem atReads_nil (P : List Event → Prop) : AtReads P [] := by
  intro before ev after h
  simp at h

theorem atReads_concat {P : List Event → Prop} {log : List Event} {last : Event}
    (h : AtReads P log) (hlast : last.IsRead → P log) : AtReads P (log ++ [last]) := by
  intro before ev after heq hread
  rcases List.eq_nil_or_concat after with rfl | ⟨rest, ev', rfl⟩
  · obtain ⟨rfl, hev⟩ := List.append_inj' heq rfl
    obtain rfl : last = ev := by simpa using hev
    exact hlast hread
  · rw [List.concat_eq_append, ← List.cons_append, ← List.append_assoc] at heq
    obtain ⟨rfl, -⟩ := List.append_inj' heq rfl
    exact h before ev rest rfl hread

namespace Transport

variable {σ : Type}

/-- The same transport with the list of its transfers, the oldest first, beside its state. -/
def logged (t : Transport σ) : Transport (σ × List Event) where
  write s ep timeout bytes :=
    let w := t.write s.1 ep timeout bytes
    (w.1, w.2, s.2 ++ [.wrote bytes w.1])
  read s ep timeout size :=
    let r := t.read s.1 ep timeout size
    (r.1, r.2, s.2 ++ [.read r.1.1 r.1.2])

end Transport

end Lib
