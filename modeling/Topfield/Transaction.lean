import Topfield.Exchange

/-!
# Transactions on the wire

A listing and a put are transactions: once the device has accepted the request that opens one, it has to
come to an end that both sides know of, or be cancelled. All of that can be told from the log.
-/

namespace Topfield

open Lib

variable {σ : Type}

/-- `tf_get_response` accepts the reply, as one of the given packets. -/
def AcceptedAs (nocrc : Int) (cmds : List UInt32) (ev : Event) : Prop :=
  ∃ reply, acceptedReply nocrc ev = some reply ∧ packetCmd reply ∈ cmds

/-- The command of a reply, also of one that is not accepted but has a header. -/
def replyCmd (nocrc : Int) (ev : Event) : Option UInt32 :=
  match acceptedReply nocrc ev, ev with
  | some reply, _ => some (packetCmd reply)
  | none, .read ret content => if ret < packetHeadSize then none else some (getU32Raw content 4)
  | none, .wrote _ _ => none

/-- A reply that has a header, with a command that does not accept the opening request. A timeout and a
reply without a header say nothing: the device may have accepted it. -/
def Refuses (nocrc : Int) (cmds : List UInt32) (ev : Event) : Prop :=
  ∃ cmd, replyCmd nocrc ev = some cmd ∧ cmd ∉ cmds

/-- A packet with the given command that was taken as a whole. -/
def Sends (cmd : UInt32) : Event → Prop
  | .wrote bytes ret => wireCmd bytes = cmd ∧ ret = bytes.length
  | .read _ _ => False

/-- The device has not accepted the opening request: every reply refuses it. -/
def Refused (nocrc : Int) (cmds : List UInt32) (log : List Event) : Prop :=
  ∀ ev ∈ log, ev.IsRead → Refuses nocrc cmds ev

/-- The transaction is closed after a call, unless one of the sends of the call failed. -/
def Settled (closed : List Event → Prop) (before after : TfHandle (σ × List Event)) : Prop :=
  ∃ new, after.usb.2 = before.usb.2 ++ new ∧ ((∃ ev ∈ new, ev.SendFailed) ∨ closed after.usb.2)

variable {nocrc : Int} {cmds : List UInt32} {ev : Event} {reply : Mem} {log : List Event}

theorem AcceptedAs.mono {cmds' : List UInt32} (h : AcceptedAs nocrc cmds ev) (hsubset : cmds ⊆ cmds') :
    AcceptedAs nocrc cmds' ev := by
  obtain ⟨reply, hreply, hcmd⟩ := h
  exact ⟨reply, hreply, hsubset hcmd⟩

/-! ### Closed logs -/

theorem Unsent.settled {closed : List Event → Prop} {before tf after : TfHandle (σ × List Event)} {req : Mem}
    {opening : List Event} (h : Unsent tf req after.usb.2) (hdev : tf.dev = true)
    (hlog : tf.usb.2 = before.usb.2 ++ opening) : Settled closed before after := by
  cases h with
  | noconn hnone _ => exact absurd (hdev.symm.trans hnone) (by decide)
  | failed hn hafter =>
    rw [hlog, List.append_assoc] at hafter
    exact ⟨_, hafter, .inl ⟨_, List.mem_append_right _ (List.mem_singleton_self _), hn⟩⟩

end Topfield
