import Topfield.Exchange
import Topfield.Frame
import Topfield.Peer

/-!
# Failures as results

A FAIL packet carries a 32-bit code, and `tf_cmd`, `tf_cmd_put` and `tf_cmd_get` return its negation as
an `int`. That is negative for the codes from 1 to 2^31, zero for 0 and positive above, so a refusal can
look like success.
-/

namespace Topfield

open Lib

variable {σ : Type}

def accepted (nocrc : Int) (log : List Event) : List Mem := log.filterMap (acceptedReply nocrc)

/-- A call that waits for the packets `expected` reports success only for these, and every FAIL as an
error. -/
structure FailReported (nocrc : Int) (expected : List UInt32) (ret : Int) (log : List Event) : Prop where
  success : ret = 0 → (accepted nocrc log).map packetCmd = expected
  failure : ∀ reply ∈ accepted nocrc log, packetCmd reply = tfMsgFail → ret < 0

/-- The reply to a request, if the request is delivered and the reply accepted. -/
def firstReply (e : Env σ) (tf : TfHandle σ) (req : Mem) : Option Mem :=
  (answer e tf req).bind fun found => acceptedReply tf.nocrc found.1

/-- If the reply to the request is a FAIL, its code is one whose negation is a negative `int`. -/
def CodeNegative (e : Env σ) (tf : TfHandle σ) (req : Mem) : Prop :=
  ∀ reply, firstReply e tf req = some reply → packetCmd reply = tfMsgFail →
    1 ≤ (getU32 reply 8).toNat ∧ (getU32 reply 8).toNat ≤ 2 ^ 31

theorem failCode_neg_iff (reply : Mem) :
    failCode reply < 0 ↔ 1 ≤ (getU32 reply 8).toNat ∧ (getU32 reply 8).toNat ≤ 2 ^ 31 := by
  have hlt := (getU32 reply 8).toNat_lt
  have hneg : (-getU32 reply 8).toBitVec.toNat = (2 ^ 32 - (getU32 reply 8).toNat) % 2 ^ 32 := by
    rw [UInt32.toBitVec_neg, BitVec.toNat_neg]
    rfl
  rw [failCode, toInt32, BitVec.toInt_eq_toNat_cond, hneg]
  split <;> omega

theorem failCode_injective {reply reply' : Mem} (h : failCode reply = failCode reply') :
    getU32 reply 8 = getU32 reply' 8 := by
  have hbits := BitVec.toInt_inj.mp h
  exact UInt32.neg_inj.mp (UInt32.toBitVec_inj.mp hbits)

theorem failCode_eq_zero_iff (reply : Mem) : failCode reply = 0 ↔ getU32 reply 8 = 0 := by
  have hzero : getU32 (fun _ => 0) 8 = 0 := rfl
  have hcode : failCode (fun _ => 0) = 0 := rfl
  constructor
  · intro h
    exact (failCode_injective (h.trans hcode.symm)).trans hzero
  · intro h
    rw [failCode, h]
    rfl

/-! ### One exchange -/

/-- The reply to a request is what `tf_get_response` leaves in its buffer, if both halves succeed. -/
theorem firstReply_eq_ite (e : Env σ) (tf : TfHandle σ) (req reply : Mem) :
    firstReply e tf req =
      if (tfSend e tf req).ret = 0 ∧ (tfGetResponse e (tfSend e tf req).tf reply).ret = 0 then
        some (tfGetResponse e (tfSend e tf req).tf reply).out
      else none := by
  cases hdev : tf.dev with
  | false =>
    rw [tfSend_noconn e req hdev]
    simp [firstReply, answer, hdev]
  | true =>
    by_cases hsent : (e.write tf.usb 0x01 tf.timeout (tfSendBytes req)).1 = (tfSendBytes req).length
    · simp [firstReply, answer, tfSend, tfGetResponse, hdev, hsent, ← tfSendBytes_length, acceptedReply]
    · simp [firstReply, answer, tfSend, hdev, hsent, ← tfSendBytes_length]

theorem firstReply_logging (e : Env σ) (tf : TfHandle σ) (req : Mem) :
    firstReply e.logged tf.logging req = firstReply e tf req := by
  by_cases h : tf.dev = true ∧ (e.write tf.usb 0x01 tf.timeout (tfSendBytes req)).1 = (tfSendBytes req).length
  · have hlogged : answer e.logged tf.logging req = some _ := if_pos h
    have hanswer : answer e tf req = some _ := if_pos h
    rw [firstReply, firstReply, hlogged, hanswer]
    rfl
  · have hlogged : answer e.logged tf.logging req = none := if_neg h
    have hanswer : answer e tf req = none := if_neg h
    rw [firstReply, firstReply, hlogged, hanswer]
    rfl

theorem firstReply_of_unsent {e : Env σ} {tf : TfHandle σ} {req : Mem} (h : answer e tf req = none) :
    firstReply e tf req = none := by
  rw [firstReply, h, Option.bind_none]

theorem firstReply_of_answer {e : Env σ} {tf : TfHandle σ} {req : Mem} {ev : Event} {s : σ}
    {found : Option Mem} (h : answer e tf req = some (ev, s)) (hreply : acceptedReply tf.nocrc ev = found) :
    firstReply e tf req = found := by
  rw [firstReply, h, Option.bind_some, hreply]

theorem accepted_answeredLog {tf : TfHandle (σ × List Event)} {req reply : Mem} {ev : Event} {nocrc : Int}
    (hreply : acceptedReply nocrc ev = some reply) :
    accepted nocrc (answeredLog tf req ev) = accepted nocrc tf.usb.2 ++ [reply] := by
  rw [answeredLog, accepted, List.filterMap_append]
  show _ ++ List.filterMap _ [ev] = _
  rw [List.filterMap_cons_some hreply]
  rfl

theorem accepted_of_empty {tf : TfHandle (σ × List Event)} {req reply : Mem} {ev : Event} {nocrc : Int}
    {log : List Event} (hempty : tf.usb.2 = []) (hlog : log = answeredLog tf req ev)
    (hreply : acceptedReply nocrc ev = some reply) : accepted nocrc log = [reply] := by
  rw [hlog, accepted_answeredLog hreply, hempty]
  rfl

/-! ### The three commands -/

theorem failReported_of_neg {nocrc ret : Int} {expected : List UInt32} {log : List Event} (h : ret < 0) :
    FailReported nocrc expected ret log :=
  ⟨fun hzero => absurd hzero (ne_of_lt h), fun _ _ _ => h⟩

theorem failReported_of_expected {nocrc ret : Int} {expected : List UInt32} {log : List Event}
    (h : (accepted nocrc log).map packetCmd = expected) (hfail : tfMsgFail ∉ expected) :
    FailReported nocrc expected ret log := by
  refine ⟨fun _ => h, fun reply hreply hcmd => absurd ?_ hfail⟩
  rw [← h, ← hcmd]
  exact List.mem_map_of_mem hreply

theorem codeNegative_logging (e : Env σ) (tf : TfHandle σ) (req : Mem) :
    CodeNegative e.logged tf.logging req ↔ CodeNegative e tf req := by
  rw [CodeNegative, CodeNegative, firstReply_logging]

theorem codeNegative_of_none {e : Env σ} {tf : TfHandle σ} {req : Mem}
    (h : firstReply e tf req = none) : CodeNegative e tf req := by
  intro reply hreply
  simp [h] at hreply

theorem codeNegative_of_cmd {e : Env σ} {tf : TfHandle σ} {req reply : Mem}
    (h : firstReply e tf req = some reply) (hcmd : packetCmd reply ≠ tfMsgFail) :
    CodeNegative e tf req := by
  intro reply' hreply'
  obtain rfl := Option.some.inj (h.symm.trans hreply')
  exact fun hfail => absurd hfail hcmd

theorem failReported_failCode {e : Env σ} {tf : TfHandle σ} {req reply : Mem} {nocrc : Int}
    {expected : List UInt32} {log : List Event} (hfirst : firstReply e tf req = some reply)
    (hlog : accepted nocrc log = [reply]) (hcmd : packetCmd reply = tfMsgFail)
    : FailReported nocrc expected (failCode reply) log ↔ CodeNegative e tf req := by
  have hiff := failCode_neg_iff reply
  constructor
  · intro h reply' hreply' _
    obtain rfl := Option.some.inj (hfirst.symm.trans hreply')
    exact hiff.mp (h.failure reply (by rw [hlog]; exact List.mem_singleton_self reply) hcmd)
  · intro h
    exact failReported_of_neg (hiff.mpr (h reply hfirst hcmd))

theorem tfCmd_failReported_iff (e : Env σ) (tf : TfHandle (σ × List Event)) (req : Mem)
    (hempty : tf.usb.2 = []) :
    FailReported tf.nocrc [tfMsgSuccess] (tfCmd e.logged tf req).ret (tfCmd e.logged tf req).tf.usb.2 ↔
      CodeNegative e.logged tf req := by
  have hexchange := exchange e tf req (e.logged.stack (tfSend e.logged tf req).tf.usb)
  simp only [tfCmd]
  generalize tfSend e.logged tf req = sent at *
  generalize tfGetResponse e.logged sent.tf _ = got at *
  cases hexchange with
  | unsent hsent hanswer _ =>
    rw [if_neg (ne_of_lt hsent)]
    exact iff_of_true (failReported_of_neg hsent) (codeNegative_of_none (firstReply_of_unsent hanswer))
  | rejected hsent hret hanswer _ hreply _ =>
    rw [if_pos hsent, if_neg (ne_of_lt hret)]
    exact iff_of_true (failReported_of_neg hret)
      (codeNegative_of_none (firstReply_of_answer hanswer hreply))
  | accepted hsent hret hanswer _ hreply hlog =>
    have hfirst := firstReply_of_answer hanswer hreply
    have hlog := accepted_of_empty hempty hlog hreply
    rw [if_pos hsent, if_pos hret]
    by_cases hfail : packetCmd got.out = tfMsgFail
    · rw [if_pos hfail]
      exact failReported_failCode hfirst hlog hfail
    · rw [if_neg hfail]
      refine iff_of_true ?_ (codeNegative_of_cmd hfirst hfail)
      by_cases hsuccess : packetCmd got.out = tfMsgSuccess
      · rw [if_neg (not_not_intro hsuccess)]
        refine failReported_of_expected ?_ (by decide)
        rw [hlog, ← hsuccess]
        rfl
      · rw [if_pos hsuccess]
        exact failReported_of_neg tfErrUnexpected_neg

theorem tfCmdGet_failReported_iff (e : Env σ) (tf : TfHandle (σ × List Event)) (path : CString)
    (offset : UInt64) (dirent : TfDirent) (hempty : tf.usb.2 = []) :
    FailReported tf.nocrc [tfMsgHddFileStart] (tfCmdGet e.logged tf path offset dirent).ret
        (tfCmdGet e.logged tf path offset dirent).tf.usb.2 ↔
      CodeNegative e.logged tf ((Request.fileGet path offset).build (e.logged.stack tf.usb)) := by
  simp only [tfCmdGet]
  generalize (Request.fileGet path offset).build (e.logged.stack tf.usb) = req
  have hexchange := exchange e tf req (e.logged.stack (tfSend e.logged tf req).tf.usb)
  generalize tfSend e.logged tf req = sent at *
  generalize tfGetResponse e.logged sent.tf _ = got at *
  cases hexchange with
  | unsent hsent hanswer _ =>
    rw [if_neg (ne_of_lt hsent)]
    exact iff_of_true (failReported_of_neg hsent) (codeNegative_of_none (firstReply_of_unsent hanswer))
  | rejected hsent hret hanswer _ hreply _ =>
    rw [if_pos hsent, if_neg (ne_of_lt hret)]
    exact iff_of_true (failReported_of_neg hret)
      (codeNegative_of_none (firstReply_of_answer hanswer hreply))
  | accepted hsent hret hanswer _ hreply hlog =>
    have hfirst := firstReply_of_answer hanswer hreply
    have hlog := accepted_of_empty hempty hlog hreply
    rw [if_pos hsent, if_pos hret]
    by_cases hstart : packetCmd got.out = tfMsgHddFileStart
    · rw [if_pos hstart]
      refine iff_of_true ?_ (codeNegative_of_cmd hfirst (by rw [hstart]; decide))
      refine failReported_of_expected ?_ (by decide)
      rw [hlog, ← hstart]
      rfl
    · rw [if_neg hstart]
      by_cases hfail : packetCmd got.out = tfMsgFail
      · rw [if_pos hfail]
        exact failReported_failCode hfirst hlog hfail
      · rw [if_neg hfail]
        exact iff_of_true (failReported_of_neg tfErrUnexpected_neg)
          (codeNegative_of_cmd hfirst hfail)

/-- What follows a first SUCCESS in `tf_cmd_put`: any refusal of FILE_START is an error. -/
theorem fileStart_failReported {e : Env σ} {tf : TfHandle (σ × List Event)} {first : Mem}
    (req reply : Mem) (hlog : accepted tf.nocrc tf.usb.2 = [first])
    (hfirst : packetCmd first = tfMsgSuccess) :
    let started := tfSend e.logged tf req
    let answer := tfGetResponse e.logged started.tf reply
    let call := if started.ret = 0 then
        if answer.ret = 0 ∧ packetCmd answer.out ≠ tfMsgSuccess then ⟨tfErrUnexpected, answer.tf⟩
        else answer.toCall
      else started
    FailReported tf.nocrc [tfMsgSuccess, tfMsgSuccess] call.ret call.tf.usb.2 := by
  have hexchange := exchange e tf req reply
  simp only
  generalize tfSend e.logged tf req = started at *
  generalize tfGetResponse e.logged started.tf _ = answer at *
  cases hexchange with
  | unsent hsent _ _ =>
    rw [if_neg (ne_of_lt hsent)]
    exact failReported_of_neg hsent
  | rejected hsent hret _ _ _ _ =>
    rw [if_pos hsent, if_neg fun h => ne_of_lt hret h.1]
    exact failReported_of_neg hret
  | accepted hsent hret _ _ hreply hlog' =>
    replace hlog' := (congrArg (accepted tf.nocrc) hlog').trans (accepted_answeredLog hreply)
    rw [hlog] at hlog'
    rw [if_pos hsent]
    by_cases hsuccess : packetCmd answer.out = tfMsgSuccess
    · rw [if_neg fun h => h.2 hsuccess]
      refine failReported_of_expected ?_ (by decide)
      rw [hlog']
      show [packetCmd first, packetCmd answer.out] = _
      rw [hfirst, hsuccess]
    · rw [if_pos ⟨hret, hsuccess⟩]
      exact failReported_of_neg tfErrUnexpected_neg

theorem tfCmdPut_failReported_iff (e : Env σ) (tf : TfHandle (σ × List Event)) (path : CString)
    (size : UInt64) (stamp : Int) (offset : UInt64) (hempty : tf.usb.2 = []) :
    FailReported tf.nocrc [tfMsgSuccess, tfMsgSuccess] (tfCmdPut e.logged tf path size stamp offset).ret
        (tfCmdPut e.logged tf path size stamp offset).tf.usb.2 ↔
      CodeNegative e.logged tf ((Request.filePut path offset).build (e.logged.stack tf.usb)) := by
  simp only [tfCmdPut]
  generalize (Request.filePut path offset).build (e.logged.stack tf.usb) = req
  have hexchange := exchange e tf req (e.logged.stack (tfSend e.logged tf req).tf.usb)
  have hnocrc := (exchange_frame e.logged tf req (e.logged.stack (tfSend e.logged tf req).tf.usb)).nocrc
  generalize tfSend e.logged tf req = sent at *
  generalize tfGetResponse e.logged sent.tf _ = got at *
  cases hexchange with
  | unsent hsent hanswer _ =>
    rw [if_neg (ne_of_lt hsent)]
    exact iff_of_true (failReported_of_neg hsent) (codeNegative_of_none (firstReply_of_unsent hanswer))
  | rejected hsent hret hanswer _ hreply _ =>
    rw [if_pos hsent, if_neg (ne_of_lt hret)]
    exact iff_of_true (failReported_of_neg hret)
      (codeNegative_of_none (firstReply_of_answer hanswer hreply))
  | accepted hsent hret hanswer _ hreply hlog =>
    have hfirst := firstReply_of_answer hanswer hreply
    have hlog := accepted_of_empty hempty hlog hreply
    rw [if_pos hsent, if_pos hret]
    by_cases hsuccess : packetCmd got.out = tfMsgSuccess
    · rw [if_pos hsuccess]
      refine iff_of_true ?_ (codeNegative_of_cmd hfirst (by rw [hsuccess]; decide))
      rw [← hnocrc] at hlog ⊢
      exact fileStart_failReported _ _ hlog hsuccess
    · rw [if_neg hsuccess]
      by_cases hfail : packetCmd got.out = tfMsgFail
      · rw [if_pos hfail]
        exact failReported_failCode hfirst hlog hfail
      · rw [if_neg hfail]
        exact iff_of_true (failReported_of_neg tfErrUnexpected_neg)
          (codeNegative_of_cmd hfirst hfail)

/-- **FAIL replies.** Each of the three commands returns 0 only for the replies it waits for, and a
negative value for every FAIL, exactly if a FAIL that answers its request has a code from 1 to 2^31. -/
theorem failReported_iff (e : Env σ) (tf : TfHandle σ) :
    (∀ req, FailReported tf.nocrc [tfMsgSuccess] (tfCmd e.logged tf.logging req).ret
        (tfCmd e.logged tf.logging req).tf.usb.2 ↔ CodeNegative e tf req) ∧
      (∀ path size stamp offset, FailReported tf.nocrc [tfMsgSuccess, tfMsgSuccess]
        (tfCmdPut e.logged tf.logging path size stamp offset).ret
        (tfCmdPut e.logged tf.logging path size stamp offset).tf.usb.2 ↔
          CodeNegative e tf ((Request.filePut path offset).build (e.stack tf.usb))) ∧
      (∀ path offset dirent, FailReported tf.nocrc [tfMsgHddFileStart]
        (tfCmdGet e.logged tf.logging path offset dirent).ret
        (tfCmdGet e.logged tf.logging path offset dirent).tf.usb.2 ↔
          CodeNegative e tf ((Request.fileGet path offset).build (e.stack tf.usb))) :=
  ⟨fun req => (tfCmd_failReported_iff e tf.logging req rfl).trans (codeNegative_logging e tf req),
    fun path size stamp offset =>
      (tfCmdPut_failReported_iff e tf.logging path size stamp offset rfl).trans (codeNegative_logging e tf _),
    fun path offset dirent =>
      (tfCmdGet_failReported_iff e tf.logging path offset dirent rfl).trans (codeNegative_logging e tf _)⟩

def failPacket (code : UInt32) : Packet where
  cmd := tfMsgFail
  payload := toBE 4 code.toNat
  fits := by
    rw [length_toBE]
    exact Nat.le_of_ble_eq_true rfl

/-- A device that answers everything with one packet. -/
def replying (packet : Packet) : Peer Unit where
  receive _ bytes := (bytes.length, ())
  reply _ := (some packet, ())
  stale _ := fun _ => 0

theorem firstReply_replying (packet : Packet) (host : Host Unit) (tf : TfHandle Unit) (req : Mem)
    (hdev : tf.dev = true) :
    ∃ reply, firstReply ((replying packet).env host) tf req = some reply ∧
      Received reply packet.cmd packet.payload := by
  obtain ⟨herror, hreceived⟩ := checkResponse_some tf.nocrc (fun _ => 0) packet
  exact ⟨_, firstReply_of_answer (if_pos ⟨hdev, rfl⟩) (acceptedReply_of_ok herror), hreceived⟩

theorem firstReply_failPacket (code : UInt32) (host : Host Unit) (tf : TfHandle Unit) (req : Mem)
    (hdev : tf.dev = true) :
    ∃ reply, firstReply ((replying (failPacket code)).env host) tf req = some reply ∧ packetCmd reply = tfMsgFail ∧
      getU32 reply 8 = code := by
  obtain ⟨reply, hfirst, hreceived⟩ := firstReply_replying (failPacket code) host tf req hdev
  refine ⟨reply, hfirst, hreceived.cmd, ?_⟩
  have hdata := hreceived.data
  have hlength : (failPacket code).payload.length = 4 := length_toBE 4 code.toNat
  rw [hlength] at hdata
  apply UInt32.toNat_inj.mp
  rw [getU32_toNat]
  exact (congrArg ofBE hdata).trans ((ofBE_toBE 4 code.toNat).trans (Nat.mod_eq_of_lt code.toNat_lt))

theorem not_failReported_zero (host : Host Unit) (tf : TfHandle Unit) (req : Mem)
    (hdev : tf.dev = true) :
    ¬ FailReported tf.nocrc [tfMsgSuccess] (tfCmd ((replying (failPacket 0)).env host).logged tf.logging req).ret
      (tfCmd ((replying (failPacket 0)).env host).logged tf.logging req).tf.usb.2 := by
  intro h
  obtain ⟨reply, hfirst, hcmd, hcode⟩ := firstReply_failPacket 0 host tf req hdev
  have hnegative : CodeNegative ((replying (failPacket 0)).env host) tf req :=
    (codeNegative_logging _ tf req).mp ((tfCmd_failReported_iff _ tf.logging req rfl).mp h)
  have hbound := (hnegative reply hfirst hcmd).1
  rw [hcode] at hbound
  exact absurd hbound (by decide)

/-- A deletion that is refused with code 0 returns 0. -/
theorem not_failReported_code_zero :
    let path : CString := ⟨[0x2F, 0x61], by decide⟩
    let call := tfCmdDelete ((replying (failPacket 0)).env (Host.blank Unit)).logged
      (TfHandle.opened () fun _ => 0).logging path
    ¬ FailReported 0 [tfMsgSuccess] call.ret call.tf.usb.2 := by
  intro path call
  have h := not_failReported_zero (Host.blank Unit) (TfHandle.opened () fun _ => 0)
    ((Request.delete path).build fun _ => 0) rfl
  exact h

end Topfield
