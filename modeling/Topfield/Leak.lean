import Topfield.Failure
import Topfield.Overlap
import Topfield.Session
import Topfield.Validation

/-!
# What the stack leaves in a transfer

The bytes that a call transmits depend on its arguments and on the device, and in two places on what the
stack held before: in the two bytes that pad a packet whose length is a multiple of 64, and in the part of
the name field of a FILE_START that a short path leaves.
-/

namespace Topfield

open Lib

variable {σ : Type}

/-! ### Two runs of a call -/

def Env.withStack (e : Env σ) (stack : σ → Mem) : Env σ := { e with stack }

@[simp] theorem Env.stack_withStack (e : Env σ) (stack : σ → Mem) : (e.withStack stack).stack = stack := rfl

@[simp] theorem tfSend_withStack (e : Env σ) (stack : σ → Mem) :
    tfSend (e.withStack stack) = tfSend e := rfl

@[simp] theorem tfGetResponse_withStack (e : Env σ) (stack : σ → Mem) :
    tfGetResponse (e.withStack stack) = tfGetResponse e := rfl

@[simp] theorem tfSendSuccess_withStack (e : Env σ) (stack : σ → Mem) :
    tfSendSuccess (e.withStack stack) = tfSendSuccess e := rfl

theorem tfSend_congr (e : Env σ) (tf : TfHandle σ) {req req' : Mem} (h : tfSendBytes req = tfSendBytes req') :
    tfSend e tf req = tfSend e tf req' := by
  have hlength : tfSendLen req = tfSendLen req' := by
    rw [← tfSendBytes_length, ← tfSendBytes_length, h]
  simp only [tfSend, h, hlength]

/-- What the reply's buffer held is in the result only if there is no device. -/
theorem tfGetResponse_reply (e : Env σ) (tf : TfHandle σ) (reply reply' : Mem) (hdev : tf.dev = true) :
    tfGetResponse e tf reply = tfGetResponse e tf reply' := by
  simp only [tfGetResponse, hdev, if_true]

theorem tfGetResponse_toCall (e : Env σ) (tf : TfHandle σ) (reply reply' : Mem) :
    (tfGetResponse e tf reply).toCall = (tfGetResponse e tf reply').toCall := by
  cases hdev : tf.dev with
  | false => rw [tfGetResponse_noconn e reply hdev, tfGetResponse_noconn e reply' hdev]
  | true => rw [tfGetResponse_reply e tf reply reply' hdev]

theorem firstReply_congr (e : Env σ) (tf : TfHandle σ) {req req' : Mem}
    (h : tfSendBytes req = tfSendBytes req') : firstReply e tf req = firstReply e tf req' := by
  simp only [firstReply, answer, h]

theorem dev_of_sent (e : Env σ) (tf : TfHandle σ) (req : Mem) (h : (tfSend e tf req).ret = 0) :
    (tfSend e tf req).tf.dev = true := by
  rw [(tfSend_frame e tf req).dev]
  by_contra hdev
  rw [Bool.not_eq_true] at hdev
  rw [tfSend_noconn e req hdev] at h
  exact tfErrNoconn_neg.ne h

section TwoRuns

variable (e : Env σ) {stack stack' : σ → Mem} (hstack : ∀ u, SameBehind (stack u) (stack' u))
  (tf : TfHandle σ)

include hstack

/-- A request is sent the same way from either stack if it is covered or cannot be sent. -/
theorem tfSend_request {r : Request} (hcovered : tf.dev = true → r.Covered) :
    tfSend e tf (r.build (stack tf.usb)) = tfSend e tf (r.build (stack' tf.usb)) := by
  cases hdev : tf.dev with
  | false => rw [tfSend_noconn e _ hdev, tfSend_noconn e _ hdev]
  | true => exact tfSend_congr e tf (transfer_of_covered (hstack tf.usb) (hcovered hdev))

theorem tfSend_build {r : Request} (hcovered : tf.dev = true → r.Covered) :
    tfSend (e.withStack stack) tf (r.build ((e.withStack stack).stack tf.usb)) =
        tfSend (e.withStack stack') tf (r.build ((e.withStack stack').stack tf.usb)) ∧
      ((tfSend (e.withStack stack') tf (r.build ((e.withStack stack').stack tf.usb))).ret = 0 →
        (tfSend (e.withStack stack') tf (r.build ((e.withStack stack').stack tf.usb))).tf.dev = true) :=
  ⟨tfSend_request e hstack tf hcovered, dev_of_sent e tf (r.build (stack' tf.usb))⟩

omit hstack in
theorem tfGetResponse_build (hdev : tf.dev = true) :
    tfGetResponse (e.withStack stack) tf ((e.withStack stack).stack tf.usb) =
      tfGetResponse (e.withStack stack') tf ((e.withStack stack').stack tf.usb) :=
  tfGetResponse_reply e tf (stack tf.usb) (stack' tf.usb) hdev

theorem runRequest_withStack {r : Request} (hcovered : tf.dev = true → r.Covered) :
    runRequest (e.withStack stack) tf r = runRequest (e.withStack stack') tf r := by
  obtain ⟨hsend, hdev⟩ := tfSend_build e hstack tf hcovered
  simp only [runRequest, tfCmd]
  rw [hsend]
  generalize tfSend (e.withStack stack') tf _ = sent at *
  by_cases hok : sent.ret = 0
  · rw [if_pos hok, if_pos hok, tfGetResponse_build e sent.tf (hdev hok)]
  · rw [if_neg hok, if_neg hok]

theorem tfCmdCancel_withStack : tfCmdCancel (e.withStack stack) = tfCmdCancel (e.withStack stack') := by
  funext tf
  exact runRequest_withStack e hstack tf fun _ => by decide

theorem tfCmdReady_withStack : tfCmdReady (e.withStack stack) = tfCmdReady (e.withStack stack') := by
  funext tf
  exact runRequest_withStack e hstack tf fun _ => by decide

theorem tfSendFail_withStack : tfSendFail (e.withStack stack) = tfSendFail (e.withStack stack') := by
  funext tf reason
  exact tfSend_request e hstack tf fun _ => covered_fail reason

theorem tfInit_withStack : tfInit (e.withStack stack) tf = tfInit (e.withStack stack') tf := by
  simp only [tfInit]
  rw [tfCmdCancel_withStack e hstack, tfSendFail_withStack e hstack, tfCmdReady_withStack e hstack]
  rfl

theorem tfCmdSize_withStack (result : TfSizeResult) :
    tfCmdSize (e.withStack stack) tf result = tfCmdSize (e.withStack stack') tf result := by
  obtain ⟨hsend, hdev⟩ := tfSend_build e hstack tf (r := .hddSize) fun _ => by decide
  simp only [tfCmdSize]
  rw [hsend]
  generalize tfSend (e.withStack stack') tf _ = sent at *
  by_cases hok : sent.ret = 0
  · rw [if_pos hok, if_pos hok, tfGetResponse_build e sent.tf (hdev hok)]
  · rw [if_neg hok, if_neg hok]

omit hstack in
theorem getDirents_withStack (result : TfDirEntries) (hdev : tf.dev = true) :
    getDirents (e.withStack stack) tf result = getDirents (e.withStack stack') tf result := by
  simp only [getDirents]
  rw [tfGetResponse_build e tf hdev]
  rfl

theorem tfCmdDirFirst_withStack {path : CString} (result : TfDirEntries)
    (hcovered : tf.dev = true → (Request.dir path).Covered) :
    tfCmdDirFirst (e.withStack stack) tf path result = tfCmdDirFirst (e.withStack stack') tf path result := by
  obtain ⟨hsend, hdev⟩ := tfSend_build e hstack tf hcovered
  simp only [tfCmdDirFirst]
  rw [hsend]
  generalize tfSend (e.withStack stack') tf _ = sent at *
  by_cases hok : sent.ret = 0
  · rw [if_pos hok, if_pos hok]
    exact getDirents_withStack e sent.tf result (hdev hok)
  · rw [if_neg hok, if_neg hok]

omit hstack in
theorem tfCmdDirNext_withStack (result : TfDirEntries) :
    tfCmdDirNext (e.withStack stack) tf result = tfCmdDirNext (e.withStack stack') tf result := by
  have hsent := dev_of_sent e tf (Mem.ofList successPacket)
  simp only [tfCmdDirNext]
  rw [tfSendSuccess_withStack, tfSendSuccess_withStack, tfSendSuccess]
  generalize tfSend e tf (Mem.ofList successPacket) = sent at *
  by_cases hok : sent.ret = 0
  · rw [if_pos hok, if_pos hok]
    exact getDirents_withStack e sent.tf result (hsent hok)
  · rw [if_neg hok, if_neg hok]

theorem tfCmdGet_withStack {path : CString} {offset : UInt64} (dirent : TfDirent)
    (hcovered : tf.dev = true → (Request.fileGet path offset).Covered) :
    tfCmdGet (e.withStack stack) tf path offset dirent =
      tfCmdGet (e.withStack stack') tf path offset dirent := by
  obtain ⟨hsend, hdev⟩ := tfSend_build e hstack tf hcovered
  simp only [tfCmdGet]
  rw [hsend]
  generalize tfSend (e.withStack stack') tf _ = sent at *
  by_cases hok : sent.ret = 0
  · rw [if_pos hok, if_pos hok, tfGetResponse_build e sent.tf (hdev hok)]
    rfl
  · rw [if_neg hok, if_neg hok]

theorem tfCmdPutData_withStack {offset : UInt64} {buffer : List UInt8}
    (hcovered : tf.dev = true → (Request.fileData offset buffer).Covered) :
    tfCmdPutData (e.withStack stack) tf offset buffer =
      tfCmdPutData (e.withStack stack') tf offset buffer := by
  obtain ⟨hsend, hdev⟩ := tfSend_build e hstack tf hcovered
  simp only [tfCmdPutData]
  rw [hsend]
  generalize tfSend (e.withStack stack') tf _ = sent at *
  by_cases hok : sent.ret = 0
  · rw [if_pos hok, if_pos hok,
      tfGetResponse_build e { sent.tf with timeout := sent.tf.timeout * 2 } (hdev hok)]
  · rw [if_neg hok, if_neg hok]

theorem tfCmdPutDone_withStack :
    tfCmdPutDone (e.withStack stack) tf = tfCmdPutDone (e.withStack stack') tf := by
  obtain ⟨hsend, hdev⟩ := tfSend_build e hstack tf (r := .fileEnd) fun _ => by decide
  simp only [tfCmdPutDone]
  rw [hsend, tfCmdCancel_withStack e hstack]
  generalize tfSend (e.withStack stack') tf _ = sent at *
  by_cases hok : sent.ret = 0
  · rw [if_pos hok, if_pos hok, tfGetResponse_build e sent.tf (hdev hok)]
  · rw [if_neg hok, if_neg hok]

theorem getCancelRounds_withStack (ret : Int) (n : Nat) :
    getCancelRounds (e.withStack stack) tf ret n = getCancelRounds (e.withStack stack') tf ret n := by
  induction n generalizing tf ret with
  | zero => rfl
  | succ n ih =>
    simp only [getCancelRounds]
    rw [tfCmdCancel_withStack e hstack, tfSendFail_withStack e hstack, tfGetResponse_withStack,
      tfGetResponse_withStack, Env.stack_withStack, Env.stack_withStack]
    generalize tfCmdCancel (e.withStack stack') (tfSendFail (e.withStack stack') tf tfErrCrc).tf = cancelled
    rw [tfGetResponse_toCall e cancelled.tf (stack cancelled.tf.usb) (stack' cancelled.tf.usb)]
    split_ifs
    · rfl
    · rfl
    · exact ih _ _

theorem tfCmdGetCancel_withStack :
    tfCmdGetCancel (e.withStack stack) tf = tfCmdGetCancel (e.withStack stack') tf := by
  simp only [tfCmdGetCancel]
  rw [tfGetResponse_withStack, tfGetResponse_withStack, Env.stack_withStack, Env.stack_withStack,
    tfGetResponse_toCall e { tf with pending := 0 } (stack tf.usb) (stack' tf.usb)]
  exact getCancelRounds_withStack e hstack _ 0 5

/-- Two runs of a put differ at most in the name field of the FILE_START. -/
theorem tfCmdPut_withStack {path : CString} (size : UInt64) (stamp : Int) {offset : UInt64}
    (hcovered : tf.dev = true → (Request.filePut path offset).Covered)
    (hname : ∀ reply, firstReply e tf ((Request.filePut path offset).build (stack' tf.usb)) = some reply →
      packetCmd reply = tfMsgSuccess → 94 ≤ path.strlen) :
    tfCmdPut (e.withStack stack) tf path size stamp offset =
      tfCmdPut (e.withStack stack') tf path size stamp offset := by
  have hsend := tfSend_request e hstack tf hcovered
  have hbehind := sameBehind_build (hstack tf.usb) (Request.filePut path offset)
  have hsent := dev_of_sent e tf ((Request.filePut path offset).build (stack' tf.usb))
  have hfirst := firstReply_eq_ite e tf ((Request.filePut path offset).build (stack' tf.usb))
    (stack' (tfSend e tf ((Request.filePut path offset).build (stack' tf.usb))).tf.usb)
  simp only [tfCmdPut]
  rw [tfSend_withStack, tfSend_withStack, tfGetResponse_withStack, tfGetResponse_withStack,
    Env.stack_withStack, Env.stack_withStack]
  generalize (Request.filePut path offset).build (stack tf.usb) = req at *
  generalize (Request.filePut path offset).build (stack' tf.usb) = req' at *
  rw [hsend]
  generalize tfSend e tf req' = sent at *
  by_cases hok : sent.ret = 0
  · rw [if_pos hok, if_pos hok,
      tfGetResponse_reply e sent.tf (stack sent.tf.usb) (stack' sent.tf.usb) (hsent hok)]
    generalize tfGetResponse e sent.tf (stack' sent.tf.usb) = got at *
    by_cases hgot : got.ret = 0
    · rw [if_pos ⟨hok, hgot⟩] at hfirst
      rw [if_pos hgot, if_pos hgot]
      by_cases hsuccess : packetCmd got.out = tfMsgSuccess
      · have hlong := hname got.out hfirst hsuccess
        have htypefile : putTypefile (e.withStack stack) path size stamp (stack got.tf.usb) =
            putTypefile (e.withStack stack') path size stamp (stack' got.tf.usb) :=
          putTypefile_congr e size stamp _ _ hlong
        rw [if_pos hsuccess, if_pos hsuccess, htypefile,
          tfSend_congr e got.tf (transfer_of_covered hbehind (covered_fileStart _))]
      · rw [if_neg hsuccess, if_neg hsuccess]
    · rw [if_neg hgot, if_neg hgot]
  · rw [if_neg hok, if_neg hok]

end TwoRuns

/-! ### The first transfer of a call -/

theorem fileStart_log (e : Env σ) (tf : TfHandle (σ × List Event)) (req reply : Mem) :
    let started := tfSend e.logged tf req
    let answer := tfGetResponse e.logged started.tf reply
    started.tf.usb.2 <+: (if started.ret = 0 then
        if answer.ret = 0 ∧ packetCmd answer.out ≠ tfMsgSuccess then ⟨tfErrUnexpected, answer.tf⟩
        else answer.toCall
      else started).tf.usb.2 := by
  have hanswer := tfGetResponse_log e (tfSend e.logged tf req).tf reply
  exact log_ite (log_ite hanswer hanswer) List.prefix_rfl

namespace PublicCall

def request : PublicCall → Option Request
  | .delete path => some (.delete path)
  | .rename src dest => some (.rename src dest)
  | .mkdir path => some (.mkdir path)
  | .dirFirst path _ => some (.dir path)
  | .get path offset _ => some (.fileGet path offset)
  | .put path _ _ offset => some (.filePut path offset)
  | .putData offset buffer => some (.fileData offset buffer)
  | .sendFail reason => some (.fail reason)
  | _ => none

/-- What a call hands to `usb_bulk_write`, transfer by transfer. -/
def sent (e : Env σ) (tf : TfHandle σ) (c : PublicCall) : List (List UInt8) :=
  transfers (c.run e.logged tf.logging).tf.usb.2

/-- What a call transmits is the same for any contents of its buffers. -/
def Oblivious (e : Env σ) (tf : TfHandle σ) (c : PublicCall) : Prop :=
  ∀ stack stack' : σ → Mem, (∀ u, SameBehind (e.stack u) (stack u)) →
    (∀ u, SameBehind (e.stack u) (stack' u)) →
    c.sent (e.withStack stack) tf = c.sent (e.withStack stack') tf

/-- The request of the call is covered, and if it is a put that the device accepts, its path fills the
name field. -/
structure Covered (e : Env σ) (tf : TfHandle σ) (c : PublicCall) : Prop where
  request : ∀ r, c.request = some r → r.Covered
  name : ∀ path size stamp offset, c = .put path size stamp offset →
    ∀ reply, firstReply e tf ((Request.filePut path offset).build (e.stack tf.usb)) = some reply →
      packetCmd reply = tfMsgSuccess → 94 ≤ path.strlen

end PublicCall

theorem PublicCall.sent_request (e : Env σ) {tf : TfHandle σ} {c : PublicCall} {r : Request}
    (hrequest : c.request = some r) (hdev : tf.dev = true) :
    ∃ rest, c.sent e tf = tfSendBytes (r.build (e.stack tf.usb)) :: rest := by
  obtain ⟨n, hsent⟩ := tfSend_logging e (r.build (e.stack tf.usb)) hdev
  have hfirst : (tfSend e.logged tf.logging (r.build (e.stack tf.usb))).tf.usb.2 <+:
      (c.run e.logged tf.logging).tf.usb.2 := by
    have hgot := tfGetResponse_log e (tfSend e.logged tf.logging (r.build (e.stack tf.usb))).tf
      (e.logged.stack (tfSend e.logged tf.logging (r.build (e.stack tf.usb))).tf.usb)
    cases c with
    | delete path =>
      obtain rfl := Option.some.inj hrequest
      exact tfCmd_sent_log e tf.logging _
    | rename src dest =>
      obtain rfl := Option.some.inj hrequest
      exact tfCmd_sent_log e tf.logging _
    | mkdir path =>
      obtain rfl := Option.some.inj hrequest
      exact tfCmd_sent_log e tf.logging _
    | dirFirst path result =>
      obtain rfl := Option.some.inj hrequest
      exact log_ite_out (getDirents_log e _ result) List.prefix_rfl
    | get path offset dirent =>
      obtain rfl := Option.some.inj hrequest
      exact log_ite_out (log_ite_out (log_ite_out hgot (log_ite_out hgot hgot)) hgot) List.prefix_rfl
    | put path size stamp offset =>
      obtain rfl := Option.some.inj hrequest
      refine log_ite (log_ite (log_ite ?_ (log_ite hgot hgot)) hgot) List.prefix_rfl
      exact (hgot.trans (tfSend_log e _ _)).trans (fileStart_log e _ _ _)
    | putData offset buffer =>
      obtain rfl := Option.some.inj hrequest
      have hdata := tfGetResponse_log e
        { (tfSend e.logged tf.logging ((Request.fileData offset buffer).build (e.stack tf.usb))).tf with
          timeout := (tfSend e.logged tf.logging ((Request.fileData offset buffer).build
            (e.stack tf.usb))).tf.timeout * 2 }
        (e.logged.stack (tfSend e.logged tf.logging ((Request.fileData offset buffer).build
          (e.stack tf.usb))).tf.usb)
      exact log_ite (log_ite (log_ite hdata hdata) hdata) List.prefix_rfl
    | sendFail reason =>
      obtain rfl := Option.some.inj hrequest
      exact List.prefix_rfl
    | _ => exact absurd hrequest (Option.some_ne_none r).symm
  obtain ⟨more, hmore⟩ := hfirst
  refine ⟨transfers more, ?_⟩
  rw [PublicCall.sent, ← hmore, transfers_append, hsent]
  rfl

/-- A put that the device accepts transmits its FILE_START next. -/
theorem sent_put_accepted (e : Env σ) {tf : TfHandle σ} {path : CString} (size : UInt64) (stamp : Int)
    {offset : UInt64} {reply : Mem}
    (hfirst : firstReply e tf ((Request.filePut path offset).build (e.stack tf.usb)) = some reply)
    (hsuccess : packetCmd reply = tfMsgSuccess) :
    ∃ bytes u req rest, (PublicCall.put path size stamp offset).sent e tf =
      bytes :: tfSendBytes ((Request.fileStart (putTypefile e path size stamp (e.stack u))).build req) ::
        rest := by
  have hstack : e.logged.stack tf.logging.usb = e.stack tf.usb := rfl
  simp only [PublicCall.sent, PublicCall.run, tfCmdPut]
  rw [hstack]
  generalize (Request.filePut path offset).build (e.stack tf.usb) = req at *
  rw [← firstReply_logging] at hfirst
  have hexchange := exchange e tf.logging req (e.logged.stack (tfSend e.logged tf.logging req).tf.usb)
  have hframe := (exchange_frame e.logged tf.logging req
    (e.logged.stack (tfSend e.logged tf.logging req).tf.usb)).dev
  generalize tfSend e.logged tf.logging req = sent at *
  generalize tfGetResponse e.logged sent.tf _ = got at *
  cases hexchange with
  | unsent hsent hanswer _ =>
    exact absurd (hfirst.symm.trans (firstReply_of_unsent hanswer)) (Option.some_ne_none reply)
  | rejected hsent hret hanswer _ hreply _ =>
    exact absurd (hfirst.symm.trans (firstReply_of_answer hanswer hreply)) (Option.some_ne_none reply)
  | @accepted ev hsent hret hanswer hread hreply hlog =>
    obtain rfl := Option.some.inj (hfirst.symm.trans (firstReply_of_answer hanswer hreply))
    rw [if_pos hsent, if_pos hret, if_pos hsuccess]
    have hdev : got.tf.dev = true := hframe.trans (answer_dev hanswer)
    have hstart := fileStart_log e got.tf ((Request.fileStart (putTypefile e path size stamp
      (e.stack got.tf.usb.1))).build req) got.out
    obtain ⟨more, hmore⟩ := hstart
    refine ⟨tfSendBytes req, got.tf.usb.1, req, transfers more, ?_⟩
    refine (congrArg transfers hmore.symm).trans ?_
    have htransfers : transfers (answeredLog tf.logging req ev) = [tfSendBytes req] :=
      transfers_answeredLog hread
    rw [transfers_append, tfSend_logged e _ hdev rfl, hlog, transfers_append, htransfers]
    rfl

/-! ### Two contents of the buffers -/

def Env.filled (e : Env σ) (b : UInt8) : σ → Mem := fun u i => if i < sizeofPacket then b else e.stack u i

theorem sameBehind_filled (e : Env σ) (b : UInt8) (u : σ) : SameBehind (e.stack u) (e.filled b u) :=
  fun _ hi => (if_neg (Nat.not_lt.mpr hi)).symm

theorem filled_inside (e : Env σ) (b : UInt8) (u : σ) {i : Nat} (hi : i < sizeofPacket) :
    e.filled b u i = b :=
  if_pos hi

theorem dev_of_firstReply {e : Env σ} {tf : TfHandle σ} {req reply : Mem}
    (h : firstReply e tf req = some reply) : tf.dev = true := by
  by_contra hdev
  rw [firstReply, answer, if_neg fun h => hdev h.1] at h
  exact absurd h (Option.some_ne_none reply).symm

theorem request_covered {e : Env σ} {tf : TfHandle σ} {c : PublicCall} (hdev : tf.dev = true)
    (hsame : c.sent (e.withStack (e.filled 0)) tf = c.sent (e.withStack (e.filled 1)) tf) {r : Request}
    (hr : c.request = some r) : r.Covered := by
  by_contra hnot
  obtain ⟨rest, hzeros⟩ := PublicCall.sent_request (e.withStack (e.filled 0)) hr hdev
  obtain ⟨rest', hones⟩ := PublicCall.sent_request (e.withStack (e.filled 1)) hr hdev
  rw [hzeros, hones, List.cons.injEq] at hsame
  have hbyte := transfer_of_uncovered hnot hsame.1
  have hinside : writtenLength packetHeadSize r.puts < sizeofPacket := by
    have hlong : ¬ 0xFFFF < writtenLength packetHeadSize r.puts := fun hlong => hnot (.inl hlong)
    simp only [sizeofPacket]
    omega
  rw [Env.stack_withStack, Env.stack_withStack, filled_inside e 0 _ hinside,
    filled_inside e 1 _ hinside] at hbyte
  exact absurd hbyte (by decide)

theorem name_covered {e : Env σ} {tf : TfHandle σ} {path : CString} {size : UInt64} {stamp : Int}
    {offset : UInt64} {reply : Mem}
    (hsame : (PublicCall.put path size stamp offset).sent (e.withStack (e.filled 0)) tf =
      (PublicCall.put path size stamp offset).sent (e.withStack (e.filled 1)) tf)
    (hcovered : (Request.filePut path offset).Covered)
    (hreply : firstReply e tf ((Request.filePut path offset).build (e.stack tf.usb)) = some reply)
    (hsuccess : packetCmd reply = tfMsgSuccess) : 94 ≤ path.strlen := by
  by_contra hshort
  have hfirst (b : UInt8) : firstReply (e.withStack (e.filled b)) tf
      ((Request.filePut path offset).build ((e.withStack (e.filled b)).stack tf.usb)) = some reply :=
    (firstReply_congr e tf (transfer_of_covered (sameBehind_filled e b tf.usb) hcovered)).symm.trans hreply
  obtain ⟨bytes, u, req, rest, hzeros⟩ :=
    sent_put_accepted (e.withStack (e.filled 0)) size stamp (hfirst 0) hsuccess
  obtain ⟨bytes', u', req', rest', hones⟩ :=
    sent_put_accepted (e.withStack (e.filled 1)) size stamp (hfirst 1) hsuccess
  rw [hzeros, hones, List.cons.injEq, List.cons.injEq] at hsame
  have hbytes : (putTypefile e path size stamp (e.filled 0 u)).bytes =
      (putTypefile e path size stamp (e.filled 1 u')).bytes := fileStart_injective hsame.2.1
  have hbyte := putTypefile_tail e size stamp (e.filled 0 u) (Nat.not_le.mp hshort)
  have hbyte' := putTypefile_tail e size stamp (e.filled 1 u') (Nat.not_le.mp hshort)
  have hinside : 14 + path.strlen + 1 < sizeofPacket := by
    simp only [sizeofPacket]
    omega
  rw [hbytes, hbyte', filled_inside e 0 u hinside, filled_inside e 1 u' hinside] at hbyte
  exact absurd hbyte (by decide)

theorem covered_of_oblivious {e : Env σ} {tf : TfHandle σ} {c : PublicCall} (hdev : tf.dev = true)
    (h : c.Oblivious e tf) : c.Covered e tf := by
  have hsame := h (e.filled 0) (e.filled 1) (sameBehind_filled e 0) (sameBehind_filled e 1)
  refine ⟨fun r hr => request_covered hdev hsame hr, ?_⟩
  rintro path size stamp offset rfl reply hreply hsuccess
  exact name_covered hsame (request_covered hdev hsame rfl) hreply hsuccess

theorem oblivious_of_covered {e : Env σ} {tf : TfHandle σ} {c : PublicCall}
    (h : tf.dev = true → c.Covered e tf) : c.Oblivious e tf := by
  intro stack stack' hstack hstack'
  have hlogged : ∀ u : σ × List Event, SameBehind (stack u.1) (stack' u.1) :=
    fun u i hi => (hstack u.1 i hi).symm.trans (hstack' u.1 i hi)
  have hrequest {r : Request} (hr : c.request = some r) : tf.logging.dev = true → r.Covered :=
    fun hdev => (h hdev).request r hr
  suffices hrun : c.run (e.logged.withStack fun u => stack u.1) tf.logging =
      c.run (e.logged.withStack fun u => stack' u.1) tf.logging from
    congrArg (fun call : Call (σ × List Event) => transfers call.tf.usb.2) hrun
  cases c with
  | init => exact tfInit_withStack e.logged hlogged tf.logging
  | size result => exact congrArg CallOut.toCall (tfCmdSize_withStack e.logged hlogged tf.logging result)
  | cancel => exact congrFun (tfCmdCancel_withStack e.logged hlogged) tf.logging
  | ready => exact congrFun (tfCmdReady_withStack e.logged hlogged) tf.logging
  | reset => exact runRequest_withStack e.logged hlogged tf.logging fun _ => by decide
  | turbo on => exact runRequest_withStack e.logged hlogged tf.logging fun _ => covered_turbo on
  | delete path => exact runRequest_withStack e.logged hlogged tf.logging (hrequest rfl)
  | rename src dest => exact runRequest_withStack e.logged hlogged tf.logging (hrequest rfl)
  | mkdir path => exact runRequest_withStack e.logged hlogged tf.logging (hrequest rfl)
  | dirFirst path result =>
    exact congrArg CallOut.toCall (tfCmdDirFirst_withStack e.logged hlogged tf.logging result (hrequest rfl))
  | dirNext result => exact congrArg CallOut.toCall (tfCmdDirNext_withStack e.logged tf.logging result)
  | dirCancel => exact congrFun (tfCmdCancel_withStack e.logged hlogged) tf.logging
  | get path offset dirent =>
    exact congrArg CallOut.toCall (tfCmdGet_withStack e.logged hlogged tf.logging dirent (hrequest rfl))
  | getNext buf => rfl
  | getCancel => exact tfCmdGetCancel_withStack e.logged hlogged tf.logging
  | put path size stamp offset =>
    refine tfCmdPut_withStack e.logged hlogged tf.logging size stamp (hrequest rfl) fun reply hreply => ?_
    have hdev := dev_of_firstReply hreply
    refine (h hdev).name path size stamp offset rfl reply ?_
    rw [firstReply_logging] at hreply
    exact (firstReply_congr e tf (transfer_of_covered (hstack' tf.usb) ((h hdev).request _ rfl))).trans hreply
  | putData offset buffer => exact tfCmdPutData_withStack e.logged hlogged tf.logging (hrequest rfl)
  | putDone => exact tfCmdPutDone_withStack e.logged hlogged tf.logging
  | putCancel =>
    show tfCmdCancel _ (tfCmdCancel _ tf.logging).tf = tfCmdCancel _ (tfCmdCancel _ tf.logging).tf
    rw [tfCmdCancel_withStack e.logged hlogged]
  | sendSuccess => rfl
  | sendFail reason => exact congrFun (congrFun (tfSendFail_withStack e.logged hlogged) tf.logging) reason

/-- **Two runs.** What a call transmits does not depend on what its buffers held exactly if no packet has a
length that is a multiple of 64 and no accepted put has a path shorter than the name field. -/
theorem oblivious_iff (e : Env σ) (tf : TfHandle σ) (c : PublicCall) :
    c.Oblivious e tf ↔ (tf.dev = true → c.Covered e tf) :=
  ⟨fun h hdev => covered_of_oblivious hdev h, oblivious_of_covered⟩

/-- Making a directory whose name makes a packet of 64 bytes transmits two bytes of the stack. -/
theorem not_oblivious_mkdir :
    ¬ (PublicCall.mkdir ⟨List.replicate 53 0x61, by decide⟩).Oblivious zeroDevice
      (TfHandle.opened () fun _ => 0) := by
  intro h
  have hcovered := ((oblivious_iff _ _ _).mp h rfl).request _ rfl
  exact absurd hcovered (by decide)

end Topfield
