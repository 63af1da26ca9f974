import Topfield.Steps

/-!
# Exchanges

Most operations send a request and wait for one response. Whether there is an answer is decided by the
device alone, and what the host makes of it by `tf_get_response`.
-/

namespace Topfield

open Lib

variable {σ : Type}

/-- The reply that a read left in the buffer, if `tf_get_response` accepts it. -/
def acceptedReply (nocrc : Int) : Event → Option Mem
  | .wrote _ _ => none
  | .read ret content =>
    if (checkResponse nocrc ret content).1 = tfErrNone then some (checkResponse nocrc ret content).2
    else none

/-- What the read after a request finds, and the state of the device after it, if the request is
delivered. -/
def answer (e : Env σ) (tf : TfHandle σ) (req : Mem) : Option (Event × σ) :=
  let w := e.write tf.usb 0x01 tf.timeout (tfSendBytes req)
  if tf.dev = true ∧ w.1 = (tfSendBytes req).length then
    let r := e.read w.2 0x82 tf.timeout sizeofPacket
    some (.read r.1.1 r.1.2, r.2)
  else none

theorem acceptedReply_of_ok {nocrc ret : Int} {content : Mem}
    (h : (checkResponse nocrc ret content).1 = tfErrNone) :
    acceptedReply nocrc (.read ret content) = some (checkResponse nocrc ret content).2 :=
  if_pos h

theorem acceptedReply_of_error {nocrc ret : Int} {content : Mem}
    (h : (checkResponse nocrc ret content).1 ≠ tfErrNone) :
    acceptedReply nocrc (.read ret content) = none :=
  if_neg h

/-- The connection after a request whose send failed: nothing was sent without a device. -/
inductive Unsent (tf : TfHandle (σ × List Event)) (req : Mem) (log : List Event) : Prop
  | noconn (hdev : tf.dev = false) (hlog : log = tf.usb.2)
  | failed {n : Int} (hn : n ≠ (tfSendBytes req).length)
      (hlog : log = tf.usb.2 ++ [.wrote (tfSendBytes req) n])

def answeredLog (tf : TfHandle (σ × List Event)) (req : Mem) (ev : Event) : List Event :=
  tf.usb.2 ++ [.wrote (tfSendBytes req) (tfSendBytes req).length, ev]

theorem transfers_answeredLog {tf : TfHandle (σ × List Event)} {req : Mem} {ev : Event} (hread : ev.IsRead) :
    transfers (answeredLog tf req ev) = transfers tf.usb.2 ++ [tfSendBytes req] := by
  cases ev with
  | wrote bytes ret => exact absurd hread id
  | read ret content => rw [answeredLog, transfers_append]; rfl

theorem Unsent.transfers_eq {tf : TfHandle (σ × List Event)} {req : Mem} {log : List Event}
    (h : Unsent tf req log) :
    transfers log = transfers tf.usb.2 ∨ transfers log = transfers tf.usb.2 ++ [tfSendBytes req] := by
  cases h with
  | noconn hdev hlog => exact .inl (congrArg transfers hlog)
  | failed hn hlog =>
    rw [hlog, transfers_append]
    exact .inr rfl

/-- A request and its reply: the send fails, or the response does, or a reply is accepted. -/
inductive Exchange (e : Env σ) (tf : TfHandle (σ × List Event)) (req : Mem)
    (sent : Call (σ × List Event)) (got : CallOut (σ × List Event) Mem) : Prop
  | unsent (hsent : sent.ret < 0) (hanswer : answer e.logged tf req = none)
      (hlog : Unsent tf req sent.tf.usb.2)
  | rejected {ev : Event} (hsent : sent.ret = 0) (hret : got.ret < 0)
      (hanswer : answer e.logged tf req = some (ev, got.tf.usb)) (hread : ev.IsRead)
      (hreply : acceptedReply tf.nocrc ev = none) (hlog : got.tf.usb.2 = answeredLog tf req ev)
  | accepted {ev : Event} (hsent : sent.ret = 0) (hret : got.ret = 0)
      (hanswer : answer e.logged tf req = some (ev, got.tf.usb)) (hread : ev.IsRead)
      (hreply : acceptedReply tf.nocrc ev = some got.out) (hlog : got.tf.usb.2 = answeredLog tf req ev)

theorem exchange (e : Env σ) (tf : TfHandle (σ × List Event)) (req reply : Mem) :
    Exchange e tf req (tfSend e.logged tf req)
      (tfGetResponse e.logged (tfSend e.logged tf req).tf reply) := by
  generalize hsent : tfSend e.logged tf req = sent
  generalize hgot : tfGetResponse e.logged sent.tf reply = got
  have hanswer : answer e.logged tf req =
      let w := e.logged.write tf.usb 0x01 tf.timeout (tfSendBytes req)
      if tf.dev = true ∧ w.1 = (tfSendBytes req).length then
        let r := e.logged.read w.2 0x82 tf.timeout sizeofPacket
        some (.read r.1.1 r.1.2, r.2)
      else none := rfl
  by_cases hdev : tf.dev = true
  · rcases hwrite : e.write tf.usb.1 0x01 tf.timeout (tfSendBytes req) with ⟨n, s⟩
    have hlogged : e.logged.write tf.usb 0x01 tf.timeout (tfSendBytes req) =
        (n, s, tf.usb.2 ++ [.wrote (tfSendBytes req) n]) := by
      show (_, _, _) = _
      rw [hwrite]
    rw [tfSend_logged e req hdev hwrite] at hsent
    simp only [hlogged, hdev, true_and] at hanswer
    by_cases hn : n = (tfSendBytes req).length
    · rcases hread : e.read s 0x82 tf.timeout sizeofPacket with ⟨⟨ret, content⟩, s'⟩
      rw [if_pos hn] at hsent hanswer
      have hread' : e.logged.read (s, tf.usb.2 ++ [.wrote (tfSendBytes req) n]) 0x82 tf.timeout sizeofPacket =
          ((ret, content), s', tf.usb.2 ++ [.wrote (tfSendBytes req) n] ++ [.read ret content]) := by
        show (_, _, _) = _
        rw [hread]
      rw [hread', hn] at hanswer
      have hdev' : sent.tf.dev = true := by
        rw [← hsent]
        exact hdev
      have hread'' : e.read sent.tf.usb.1 0x82 sent.tf.timeout sizeofPacket = ((ret, content), s') := by
        rw [← hsent]
        exact hread
      rw [tfGetResponse_logged e reply hdev' hread''] at hgot
      subst hsent hgot hn
      have hlog : tf.usb.2 ++ [.wrote (tfSendBytes req) (tfSendBytes req).length] ++ [.read ret content] =
          answeredLog tf req (.read ret content) := List.append_assoc _ _ _
      by_cases hok : (checkResponse tf.nocrc ret content).1 = tfErrNone
      · exact .accepted rfl hok hanswer trivial (acceptedReply_of_ok hok) hlog
      · exact .rejected rfl (lt_of_le_of_ne (checkResponse_nonpos tf.nocrc ret content) hok) hanswer trivial
          (acceptedReply_of_error hok) hlog
    · rw [if_neg hn] at hsent hanswer
      subst hsent
      exact .unsent tfErrIo_neg hanswer (.failed hn rfl)
  · simp only [Bool.not_eq_true] at hdev
    rw [tfSend_noconn e.logged req hdev] at hsent
    rw [if_neg (by simp [hdev])] at hanswer
    subst hsent
    exact .unsent tfErrNoconn_neg hanswer (.noconn hdev rfl)

theorem answer_dev {e : Env σ} {tf : TfHandle σ} {req : Mem} {found : Event × σ}
    (h : answer e tf req = some found) : tf.dev = true := by
  by_contra hdev
  rw [answer, if_neg fun h => hdev h.1] at h
  exact absurd h (Option.some_ne_none found).symm

end Topfield
