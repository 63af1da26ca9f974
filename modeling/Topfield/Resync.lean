import Topfield.Peer

/-!
# Initialisation against a slow device

A device that answers every CANCEL and READY with one SUCCESS, in order but perhaps late, so that a read
may time out although its reply is on the way. `tf_init` retries without taking a late reply out of the
way: the reply that ends it is then the one to an earlier attempt, and the others stay in flight.
-/

namespace Topfield

open Lib

/-- The replies in flight, those to commands of the past before those to commands counted as `own`, and
the numbers of reads and of sends the host has tried. -/
structure Delayed where
  past : Nat
  own : Nat
  reads : Nat
  sends : Nat

def answered (cmd : UInt32) : Bool := cmd = tfMsgCancel ∨ cmd = tfMsgReady

/-- The reads that `late` picks by their number come before the reply does, and the sends that `fails`
picks do not reach the device. -/
def answering (late fails : Nat → Bool) (stale : Delayed → Mem) : Peer Delayed where
  receive s bytes :=
    if fails s.sends then
      (-1, { s with sends := s.sends + 1 })
    else
      (bytes.length, { s with
        own := s.own + if answered (wireCmd bytes) then 1 else 0
        sends := s.sends + 1 })
  reply s :=
    if late s.reads ∨ s.past + s.own = 0 then
      (none, { s with reads := s.reads + 1 })
    else if s.past = 0 then
      (some (.header tfMsgSuccess), { s with own := s.own - 1, reads := s.reads + 1 })
    else
      (some (.header tfMsgSuccess), { s with past := s.past - 1, reads := s.reads + 1 })
  stale := stale

/-! ### Retrying -/

/-- Commands with the given send numbers, one after the other until a reply comes in time; `r` is the
number of the next read and the result that of the successful one. -/
def firstReplied (late fails : Nat → Bool) : List Nat → Nat → Option Nat
  | [], _ => none
  | i :: rest, r =>
    if fails i then firstReplied late fails rest r
    else if late r then firstReplied late fails rest (r + 1)
    else some r

/-- How many of the commands are delivered. -/
def delivered (fails : Nat → Bool) (commands : List Nat) : Nat := commands.countP fun i => !fails i

variable {late fails : Nat → Bool}

theorem firstReplied_some {commands : List Nat} {k r : Nat}
    (h : firstReplied late fails commands k = some r) :
    k ≤ r ∧ r < k + delivered fails commands ∧ late r = false ∧ ∀ i, k ≤ i → i < r → late i = true := by
  induction commands generalizing k with
  | nil => simp [firstReplied] at h
  | cons i rest ih =>
    rw [firstReplied] at h
    by_cases hfails : fails i = true
    · rw [if_pos hfails] at h
      rw [delivered, List.countP_cons_of_neg (by simp [hfails])]
      exact ih h
    · rw [if_neg hfails] at h
      rw [delivered, List.countP_cons_of_pos (by simpa using hfails), ← delivered]
      by_cases hlate : late k = true
      · rw [if_pos hlate] at h
        obtain ⟨hle, hlt, hr, hall⟩ := ih h
        refine ⟨by omega, by omega, hr, fun i hki hir => ?_⟩
        rcases Nat.eq_or_lt_of_le hki with rfl | hlt'
        · exact hlate
        · exact hall i hlt' hir
      · rw [if_neg hlate] at h
        obtain rfl := Option.some.inj h
        exact ⟨le_rfl, by omega, by simpa using hlate, fun i hki hik => absurd hik (by omega)⟩

theorem firstReplied_none {commands : List Nat} {k : Nat}
    (h : firstReplied late fails commands k = none) :
    ∀ i, i < delivered fails commands → late (k + i) = true := by
  induction commands generalizing k with
  | nil =>
    intro i hi
    exact absurd hi (Nat.not_lt_zero i)
  | cons j rest ih =>
    rw [firstReplied] at h
    by_cases hfails : fails j = true
    · rw [if_pos hfails] at h
      rw [delivered, List.countP_cons_of_neg (by simp [hfails])]
      exact ih h
    · rw [if_neg hfails] at h
      rw [delivered, List.countP_cons_of_pos (by simpa using hfails), ← delivered]
      by_cases hlate : late k = true
      · rw [if_pos hlate] at h
        intro i hi
        cases i with
        | zero => exact hlate
        | succ i =>
          have hnext := ih h i (by omega)
          rwa [Nat.add_right_comm] at hnext
      · rw [if_neg hlate] at h
        exact absurd h (by simp)

/-! ### The attempts of tf_init -/

/-- While it retries: every read so far came too early, so each delivered command has its reply in
flight, and `rest` are the commands to come. -/
structure Retrying (late fails : Nat → Bool) (past k : Nat) (commands : List Nat) (sends : Nat)
    (rest : List Nat) (tf : TfHandle (Delayed × List Event)) : Prop where
  dev : tf.dev = true
  past : tf.usb.1.past = past
  own : tf.usb.1.own + k = tf.usb.1.reads
  sends : tf.usb.1.sends = sends
  remaining : firstReplied late fails commands k = firstReplied late fails rest tf.usb.1.reads

/-- After a reply came in time: the read was number `r`, and all replies but one are in flight. -/
def Replied (late fails : Nat → Bool) (past k : Nat) (commands : List Nat)
    (tf : TfHandle (Delayed × List Event)) : Prop :=
  ∃ r, firstReplied late fails commands k = some r ∧
    tf.usb.1.own + k = r + if past = 0 then 0 else 1

variable {past k sends : Nat} {commands rest : List Nat} {tf : TfHandle (Delayed × List Event)}

/-- What one command does: it fails and the retrying goes on, or its reply came in time. -/
def Attempted (late fails : Nat → Bool) (past k : Nat) (commands : List Nat) (sends : Nat)
    (rest : List Nat) (call : Call (Delayed × List Event)) : Prop :=
  call.ret ≠ 0 ∧ Retrying late fails past k commands sends rest call.tf ∨
    call.ret = 0 ∧ Replied late fails past k commands call.tf

theorem answering_reply_late {s : Delayed} {fails : Nat → Bool} {stale : Delayed → Mem}
    (hlate : late s.reads = true) :
    (answering late fails stale).reply s = (none, { s with reads := s.reads + 1 }) :=
  if_pos (.inl hlate)

/-- A reply in time is the oldest one in flight. -/
theorem answering_reply (fails : Nat → Bool) (stale : Delayed → Mem) {s : Delayed}
    (htime : late s.reads = false) (hown : 0 < s.own) :
    ∃ s', (answering late fails stale).reply s = (some (.header tfMsgSuccess), s') ∧
      s'.own = if s.past = 0 then s.own - 1 else s.own := by
  have hflight : ¬ (late s.reads = true ∨ s.past + s.own = 0) := by
    rintro (hlate | hempty)
    · simp [htime] at hlate
    · omega
  simp only [answering, if_neg hflight]
  by_cases hpast : s.past = 0
  · simp only [if_pos hpast]
    exact ⟨_, rfl, rfl⟩
  · simp only [if_neg hpast]
    exact ⟨_, rfl, rfl⟩

theorem tfCmd_retrying (stale : Delayed → Mem) (host : Host Delayed) {r : Request} (req : Mem)
    (hfits : r.Fits) (hanswered : answered r.cmd = true)
    (h : Retrying late fails past k commands sends (sends :: rest) tf) :
    Attempted late fails past k commands (sends + 1) rest
      (tfCmd ((answering late fails stale).env host).logged tf (r.build req)) := by
  obtain ⟨hdev, rfl, hown, rfl, hremaining⟩ := h
  rw [firstReplied] at hremaining
  have hcmd : answered (wireCmd (tfSendBytes (r.build req))) = true := by
    rw [wireCmd_build hfits, hanswered]
  by_cases hfails : fails tf.usb.1.sends = true
  · have hreceive : (answering late fails stale).receive tf.usb.1 (tfSendBytes (r.build req)) =
        (-1, { tf.usb.1 with sends := tf.usb.1.sends + 1 }) := if_pos hfails
    have hsend := tfSend_peer _ host (r.build req) hdev rfl hreceive
    rw [if_neg (by omega)] at hsend
    rw [if_pos hfails] at hremaining
    rw [tfCmd_of_send_error hsend tfErrIo_neg.ne]
    exact .inl ⟨tfErrIo_neg.ne, hdev, rfl, hown, rfl, hremaining⟩
  · have hreceive : (answering late fails stale).receive tf.usb.1 (tfSendBytes (r.build req)) =
        (((tfSendBytes (r.build req)).length : Int),
          ⟨tf.usb.1.past, tf.usb.1.own + 1, tf.usb.1.reads, tf.usb.1.sends + 1⟩) := by
      simp only [answering, if_neg hfails, hcmd, if_true]
    obtain ⟨sent, log, hsend, hsent, hdev', husb⟩ :
        ∃ sent log, tfSend ((answering late fails stale).env host).logged tf (r.build req) = sent ∧
          sent.ret = 0 ∧ sent.tf.dev = true ∧ sent.tf.usb =
            (⟨tf.usb.1.past, tf.usb.1.own + 1, tf.usb.1.reads, tf.usb.1.sends + 1⟩, log) := by
      refine ⟨_, _, tfSend_peer _ host (r.build req) hdev rfl hreceive, if_pos rfl, hdev, rfl⟩
    rw [if_neg hfails] at hremaining
    by_cases hlate : late tf.usb.1.reads = true
    · rw [if_pos hlate] at hremaining
      obtain ⟨ret, content, out, hget⟩ := tfGetResponse_peer_none _ host
        (((answering late fails stale).env host).logged.stack sent.tf.usb) hdev' husb
        (answering_reply_late hlate)
      rw [tfCmd_of_response_error hsend hsent hget tfErrIo_neg.ne]
      refine .inl ⟨tfErrIo_neg.ne, hdev', rfl, ?_, rfl, hremaining⟩
      show tf.usb.1.own + 1 + k = tf.usb.1.reads + 1
      omega
    · rw [if_neg hlate] at hremaining
      obtain ⟨s', hreply, hown'⟩ := answering_reply fails stale
        (s := ⟨tf.usb.1.past, tf.usb.1.own + 1, tf.usb.1.reads, tf.usb.1.sends + 1⟩)
        (by simpa using hlate) (Nat.succ_pos _)
      obtain ⟨ret, content, out, hget, hreceived⟩ := tfGetResponse_peer _ host
        (((answering late fails stale).env host).logged.stack sent.tf.usb) hdev' husb hreply
      rw [tfCmd_of_success hsend hsent hget rfl hreceived.cmd]
      refine .inr ⟨rfl, tf.usb.1.reads, hremaining, ?_⟩
      show s'.own + k = _
      rw [hown']
      simp only
      split <;> omega

theorem tfCmdCancel_retrying (stale : Delayed → Mem) (host : Host Delayed)
    (h : Retrying late fails past k commands sends (sends :: rest) tf) :
    Attempted late fails past k commands (sends + 1) rest
      (tfCmdCancel ((answering late fails stale).env host).logged tf) :=
  tfCmd_retrying stale host _ (r := .cancel) (by decide) rfl h

theorem tfCmdReady_retrying (stale : Delayed → Mem) (host : Host Delayed)
    (h : Retrying late fails past k commands sends (sends :: rest) tf) :
    Attempted late fails past k commands (sends + 1) rest
      (tfCmdReady ((answering late fails stale).env host).logged tf) :=
  tfCmd_retrying stale host _ (r := .ready) (by decide) rfl h

theorem tfSend_retrying (stale : Delayed → Mem) (host : Host Delayed) (req : Mem)
    (hanswered : answered (wireCmd (tfSendBytes req)) = false)
    (h : Retrying late fails past k commands sends rest tf) :
    Retrying late fails past k commands (sends + 1) rest
      (tfSend ((answering late fails stale).env host).logged tf req).tf := by
  obtain ⟨hdev, hpast, hown, rfl, hremaining⟩ := h
  by_cases hfails : fails tf.usb.1.sends = true
  · have hreceive : (answering late fails stale).receive tf.usb.1 (tfSendBytes req) =
        (-1, { tf.usb.1 with sends := tf.usb.1.sends + 1 }) := if_pos hfails
    rw [tfSend_peer _ host req hdev rfl hreceive]
    exact ⟨hdev, hpast, hown, rfl, hremaining⟩
  · have hreceive : (answering late fails stale).receive tf.usb.1 (tfSendBytes req) =
        (((tfSendBytes req).length : Int), { tf.usb.1 with sends := tf.usb.1.sends + 1 }) := by
      simp only [answering, if_neg hfails, hanswered]
      rfl
    rw [tfSend_peer _ host req hdev rfl hreceive]
    exact ⟨hdev, hpast, hown, rfl, hremaining⟩

theorem tfInit_retrying (stale : Delayed → Mem) (host : Host Delayed) {j : Nat}
    (h : Retrying late fails past k commands j [j, j + 1, j + 4, j + 5] tf) :
    (tfInit ((answering late fails stale).env host).logged tf).ret ≠ 0 ∧
        firstReplied late fails commands k = none ∨
      (tfInit ((answering late fails stale).env host).logged tf).ret = 0 ∧
        Replied late fails past k commands (tfInit ((answering late fails stale).env host).logged tf).tf := by
  simp only [tfInit]
  have hfirst := tfCmdCancel_retrying stale host h
  generalize tfCmdCancel ((answering late fails stale).env host).logged tf = first at hfirst ⊢
  rcases hfirst with ⟨hret, h⟩ | ⟨hret, h⟩
  · rw [if_neg hret]
    have hsecond := tfCmdCancel_retrying stale host h
    generalize tfCmdCancel ((answering late fails stale).env host).logged first.tf = second at hsecond ⊢
    rcases hsecond with ⟨hret, h⟩ | ⟨hret, h⟩
    · rw [if_neg hret]
      have h := tfSend_retrying stale host
        ((Request.fail 2).build (((answering late fails stale).env host).logged.stack second.tf.usb))
        (by rw [wireCmd_build (by decide)]; decide) h
      rw [← tfSendFail] at h
      generalize tfSendFail ((answering late fails stale).env host).logged second.tf 2 = failed at h ⊢
      have h := tfSend_retrying stale host (Mem.ofList successPacket)
        (by rw [tfSendBytes_success, wireCmd_success]; decide) h
      rw [← tfSendSuccess] at h
      generalize tfSendSuccess ((answering late fails stale).env host).logged failed.tf = succeeded at h ⊢
      have hready := tfCmdReady_retrying stale host h
      generalize tfCmdReady ((answering late fails stale).env host).logged succeeded.tf = ready at hready ⊢
      rcases hready with ⟨hret, h⟩ | ⟨hret, h⟩
      · rw [if_neg hret]
        have hlast := tfCmdCancel_retrying stale host h
        generalize tfCmdCancel ((answering late fails stale).env host).logged ready.tf = last at hlast ⊢
        rcases hlast with ⟨hret, h⟩ | ⟨hret, h⟩
        · rw [if_neg hret]
          exact .inl ⟨(by decide : (-1 : Int) ≠ 0), h.remaining⟩
        · rw [if_pos hret]
          exact .inr ⟨rfl, h⟩
      · rw [if_pos hret]
        exact .inr ⟨rfl, h⟩
    · rw [if_pos hret]
      exact .inr ⟨rfl, h⟩
  · rw [if_pos hret]
    exact .inr ⟨rfl, h⟩

theorem retrying_start (late fails : Nat → Bool) {tf : TfHandle Delayed} (commands : List Nat)
    (hdev : tf.dev = true) (hown : tf.usb.own = 0) :
    Retrying late fails tf.usb.past tf.usb.reads commands tf.usb.sends commands tf.logging := by
  refine ⟨hdev, rfl, ?_, rfl, rfl⟩
  show tf.usb.own + tf.usb.reads = tf.usb.reads
  rw [hown, Nat.zero_add]

/-- **Initialisation.** When `tf_init` returns 0 the replies to its commands have all been read, exactly
if nothing was in flight before and the first read came in time, or none of its reads came in time. -/
theorem tfInit_resynchronises_iff (late fails : Nat → Bool) (stale : Delayed → Mem) (host : Host Delayed)
    (tf : TfHandle Delayed) (hdev : tf.dev = true) (hown : tf.usb.own = 0) :
    let call := tfInit ((answering late fails stale).env host).logged tf.logging
    let commands := [tf.usb.sends, tf.usb.sends + 1, tf.usb.sends + 4, tf.usb.sends + 5]
    (call.ret = 0 → call.tf.usb.1.own = 0) ↔
      (tf.usb.past = 0 ∧ late tf.usb.reads = false) ∨
        ∀ i, i < delivered fails commands → late (tf.usb.reads + i) = true := by
  intro call commands
  have hcall := tfInit_retrying stale host (retrying_start late fails commands hdev hown)
  rcases hcall with ⟨hret, hnone⟩ | ⟨hret, r, hsome, hflight⟩
  · exact iff_of_true (fun hzero => absurd hzero hret) (.inr (firstReplied_none hnone))
  · obtain ⟨hle, hlt, htime, hearlier⟩ := firstReplied_some hsome
    have hiff : call.tf.usb.1.own = 0 ↔ tf.usb.past = 0 ∧ r = tf.usb.reads := by
      have hflight' : call.tf.usb.1.own + tf.usb.reads = r + if tf.usb.past = 0 then 0 else 1 := hflight
      split at hflight' <;> omega
    constructor
    · intro h
      obtain ⟨hpast, rfl⟩ := hiff.mp (h hret)
      exact .inl ⟨hpast, htime⟩
    · rintro (⟨hpast, hfirst⟩ | hall) _
      · refine hiff.mpr ⟨hpast, ?_⟩
        by_contra hne
        have hlate := hearlier tf.usb.reads le_rfl (by omega)
        simp [hfirst] at hlate
      · have hlate := hall (r - tf.usb.reads) (by omega)
        rw [Nat.add_sub_cancel' hle, htime] at hlate
        exact absurd hlate (by decide)

theorem tfInit_resynchronises_iff_on_time :
    let tf := TfHandle.opened (Delayed.mk 0 0 0 0) fun _ => 0
    let call := tfInit ((answering (fun _ => false) (fun _ => false) fun _ _ => 0).env
      (Host.blank Delayed)).logged tf.logging
    let commands := [tf.usb.sends, tf.usb.sends + 1, tf.usb.sends + 4, tf.usb.sends + 5]
    (call.ret = 0 → call.tf.usb.1.own = 0) ↔
      (tf.usb.past = 0 ∧ false = false) ∨
        ∀ i, i < delivered (fun _ => false) commands → false = true :=
  tfInit_resynchronises_iff (fun _ => false) _ _ _ _ rfl rfl

/-- The first reply is late and taken for the answer to the second CANCEL, whose own stays in flight. -/
theorem not_tfInit_resynchronises :
    let tf := TfHandle.opened (Delayed.mk 0 0 0 0) fun _ => 0
    let call := tfInit ((answering (fun r => r = 0) (fun _ => false) fun _ _ => 0).env
      (Host.blank Delayed)).logged tf.logging
    ¬ (call.ret = 0 → call.tf.usb.1.own = 0) := by
  intro tf call h
  have hcall := tfInit_retrying (fun _ _ => 0) (Host.blank Delayed)
    (retrying_start (fun r => r = 0) (fun _ => false) [0, 1, 4, 5] (rfl : tf.dev = true) rfl)
  rcases hcall with ⟨_, hnone⟩ | ⟨hret, r, hsome, hflight⟩
  · exact absurd hnone (by decide)
  · obtain rfl : 1 = r := Option.some.inj hsome
    have hown : call.tf.usb.1.own = 1 := hflight
    have hzero := h hret
    omega

end Topfield
