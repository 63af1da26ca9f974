import Topfield.Lib.Simulation
import Topfield.Session
import Topfield.UsbIo

/-!
# Handles that cannot be told apart

The protocol code meets a device only through what a write returns and what `tf_get_response` makes of a
read. Two environments in which these agree give every client of the interface the same results, the same
outputs and the same handle.
-/

namespace Topfield

open Lib

variable {σ σ' : Type}

/-- The two reads come to the same, checked with `nocrc` and with `nocrc'`. -/
def SameResponse (nocrc nocrc' : Int) (r r' : Int × Mem) : Prop :=
  checkResponse nocrc r.1 r.2 = checkResponse nocrc' r'.1 r'.2

/-- Two environments with the same host and devices that behave alike. -/
structure Env.Simulates (nocrc nocrc' : Int) (e : Env σ) (e' : Env σ') (R : σ → σ' → Prop) : Prop where
  transport : e.toTransport.Simulates e'.toTransport sizeofPacket (SameResponse nocrc nocrc') R
  stack : ∀ {s s'}, R s s' → e.stack s = e'.stack s'
  localtime : e.localtime = e'.localtime
  mktime : e.mktime = e'.mktime

/-- The two handles differ in `nocrc` and in the device only. -/
structure TfHandle.Like (nocrc nocrc' : Int) (R : σ → σ' → Prop) (tf : TfHandle σ) (tf' : TfHandle σ') : Prop where
  nocrc : tf.nocrc = nocrc
  nocrc' : tf'.nocrc = nocrc'
  timeout : tf.timeout = tf'.timeout
  error : tf.error = tf'.error
  dev : tf.dev = tf'.dev
  pending : tf.pending = tf'.pending
  buf : tf.buf = tf'.buf
  usb : R tf.usb tf'.usb

structure Call.Like (nocrc nocrc' : Int) (R : σ → σ' → Prop) (call : Call σ) (call' : Call σ') : Prop where
  ret : call.ret = call'.ret
  tf : call.tf.Like nocrc nocrc' R call'.tf

structure CallOut.Like {α : Type} (nocrc nocrc' : Int) (R : σ → σ' → Prop) (call : CallOut σ α)
    (call' : CallOut σ' α) : Prop where
  toCall : call.toCall.Like nocrc nocrc' R call'.toCall
  out : call.out = call'.out

variable {α : Type} {nocrc nocrc' : Int} {R : σ → σ' → Prop} {e : Env σ} {e' : Env σ'} {tf : TfHandle σ}
  {tf' : TfHandle σ'}

theorem TfHandle.Like.report (h : tf.Like nocrc nocrc' R tf') (error : Int) :
    TfHandle.Like nocrc nocrc' R { tf with error } { tf' with error } :=
  ⟨h.nocrc, h.nocrc', h.timeout, rfl, h.dev, h.pending, h.buf, h.usb⟩

theorem TfHandle.Like.remember (h : tf.Like nocrc nocrc' R tf') (pending : Int) :
    TfHandle.Like nocrc nocrc' R { tf with pending } { tf' with pending } :=
  ⟨h.nocrc, h.nocrc', h.timeout, h.error, h.dev, rfl, h.buf, h.usb⟩

theorem TfHandle.Like.wait (h : tf.Like nocrc nocrc' R tf') (timeout : Int) :
    TfHandle.Like nocrc nocrc' R { tf with timeout } { tf' with timeout } :=
  ⟨h.nocrc, h.nocrc', rfl, h.error, h.dev, h.pending, h.buf, h.usb⟩

theorem TfHandle.Like.keep (h : tf.Like nocrc nocrc' R tf') (buf : Mem) :
    TfHandle.Like nocrc nocrc' R { tf with buf } { tf' with buf } :=
  ⟨h.nocrc, h.nocrc', h.timeout, h.error, h.dev, h.pending, rfl, h.usb⟩

theorem like_ite {p p' : Prop} [Decidable p] [Decidable p'] {yes no : Call σ} {yes' no' : Call σ'}
    (hp : p ↔ p') (hyes : p → yes.Like nocrc nocrc' R yes') (hno : no.Like nocrc nocrc' R no') :
    (if p then yes else no).Like nocrc nocrc' R (if p' then yes' else no') := by
  by_cases h : p
  · rw [if_pos h, if_pos (hp.mp h)]
    exact hyes h
  · rw [if_neg h, if_neg fun h' => h (hp.mpr h')]
    exact hno

theorem like_ite_out {p p' : Prop} [Decidable p] [Decidable p'] {yes no : CallOut σ α} {yes' no' : CallOut σ' α}
    (hp : p ↔ p') (hyes : yes.Like nocrc nocrc' R yes') (hno : no.Like nocrc nocrc' R no') :
    (if p then yes else no).Like nocrc nocrc' R (if p' then yes' else no') := by
  by_cases h : p
  · rw [if_pos h, if_pos (hp.mp h)]
    exact hyes
  · rw [if_neg h, if_neg fun h' => h (hp.mpr h')]
    exact hno

/-! ### One send and one response -/

theorem tfSendLen_le (req : Mem) : tfSendLen req ≤ sizeofPacket := by
  have hlt := (getU16Raw req 0).toNat_lt
  show tfSendLen req ≤ 0x10000
  rw [tfSendLen]
  split_ifs <;> omega

namespace Env.Simulates

variable (h : e.Simulates nocrc nocrc' e' R)
include h

theorem tfSend (htf : tf.Like nocrc nocrc' R tf') (req : Mem) :
    (tfSend e tf req).Like nocrc nocrc' R (tfSend e' tf' req) := by
  have hlength : (tfSendBytes req).length = tfSendLen req := tfSendBytes_length req
  obtain ⟨hwhole, husb⟩ := h.transport.write 0x01 tf.timeout (tfSendBytes req) htf.usb
    (hlength ▸ tfSendLen_pos req) (hlength ▸ tfSendLen_le req)
  rw [hlength] at hwhole
  have herror : (if (e.write tf.usb 0x01 tf.timeout (tfSendBytes req)).1 = tfSendLen req then tfErrNone
      else tfErrIo) = if (e'.write tf'.usb 0x01 tf.timeout (tfSendBytes req)).1 = tfSendLen req then tfErrNone
      else tfErrIo := if_congr hwhole rfl rfl
  simp only [Topfield.tfSend]
  refine like_ite (by rw [htf.dev]) (fun _ => ?_) ⟨rfl, htf.report _⟩
  rw [← htf.timeout, herror]
  exact ⟨rfl, htf.nocrc, htf.nocrc', rfl, rfl, htf.dev, htf.pending, htf.buf, husb⟩

theorem tfGetResponse (htf : tf.Like nocrc nocrc' R tf') (reply : Mem) :
    (tfGetResponse e tf reply).Like nocrc nocrc' R (tfGetResponse e' tf' reply) := by
  obtain ⟨hread, husb⟩ := h.transport.read 0x82 tf.timeout htf.usb
  simp only [Topfield.tfGetResponse]
  refine like_ite_out (by rw [htf.dev]) ?_ ⟨⟨rfl, htf.report _⟩, rfl⟩
  rw [← htf.timeout, htf.nocrc, htf.nocrc', hread]
  exact ⟨⟨rfl, rfl, rfl, rfl, rfl, htf.dev, htf.pending, htf.buf, husb⟩, rfl⟩

theorem tfSendSuccess (htf : tf.Like nocrc nocrc' R tf') :
    (tfSendSuccess e tf).Like nocrc nocrc' R (tfSendSuccess e' tf') :=
  h.tfSend htf _

theorem tfSendFail (htf : tf.Like nocrc nocrc' R tf') (reason : Int) :
    (tfSendFail e tf reason).Like nocrc nocrc' R (tfSendFail e' tf' reason) := by
  rw [Topfield.tfSendFail, Topfield.tfSendFail, ← h.stack htf.usb]
  exact h.tfSend htf _

/-! ### The commands -/

theorem tfCmd (htf : tf.Like nocrc nocrc' R tf') (req : Mem) :
    (tfCmd e tf req).Like nocrc nocrc' R (tfCmd e' tf' req) := by
  have hsent := h.tfSend htf req
  simp only [Topfield.tfCmd]
  generalize Topfield.tfSend e tf req = sent at *
  generalize Topfield.tfSend e' tf' req = sent' at *
  have hgot := h.tfGetResponse hsent.tf (e.stack sent.tf.usb)
  rw [← h.stack hsent.tf.usb]
  generalize Topfield.tfGetResponse e sent.tf (e.stack sent.tf.usb) = got at *
  generalize Topfield.tfGetResponse e' sent'.tf (e.stack sent.tf.usb) = got' at *
  rw [← hsent.ret, ← hgot.toCall.ret, ← hgot.out]
  refine like_ite Iff.rfl (fun _ => like_ite Iff.rfl (fun _ => ?_) hgot.toCall) hsent
  refine like_ite Iff.rfl (fun _ => ⟨rfl, hgot.toCall.tf.report _⟩) ?_
  exact like_ite Iff.rfl (fun _ => ⟨rfl, hgot.toCall.tf.report _⟩) hgot.toCall

theorem runRequest (htf : tf.Like nocrc nocrc' R tf') (r : Request) :
    (runRequest e tf r).Like nocrc nocrc' R (runRequest e' tf' r) := by
  rw [Topfield.runRequest, Topfield.runRequest, ← h.stack htf.usb]
  exact h.tfCmd htf _

theorem tfCmdCancel (htf : tf.Like nocrc nocrc' R tf') :
    (tfCmdCancel e tf).Like nocrc nocrc' R (tfCmdCancel e' tf') :=
  h.runRequest htf .cancel

theorem tfInit (htf : tf.Like nocrc nocrc' R tf') : (tfInit e tf).Like nocrc nocrc' R (tfInit e' tf') := by
  have hfirst := h.tfCmdCancel htf
  have hsecond := h.tfCmdCancel hfirst.tf
  have hsucceeded := h.tfSendSuccess (h.tfSendFail hsecond.tf 2).tf
  have hready := h.runRequest hsucceeded.tf .ready
  have hlast := h.tfCmdCancel hready.tf
  simp only [Topfield.tfInit]
  refine like_ite (by rw [hfirst.ret]) (fun _ => ⟨rfl, hfirst.tf⟩) ?_
  refine like_ite (by rw [hsecond.ret]) (fun _ => ⟨rfl, hsecond.tf⟩) ?_
  refine like_ite (by rw [tfCmdReady, tfCmdReady, hready.ret]) (fun _ => ⟨rfl, hready.tf⟩) ?_
  exact like_ite (by rw [tfCmdReady, tfCmdReady, hlast.ret]) (fun _ => ⟨rfl, hlast.tf⟩) ⟨rfl, hlast.tf⟩

theorem request (htf : tf.Like nocrc nocrc' R tf') (r : Request) :
    (Topfield.tfSend e tf (r.build (e.stack tf.usb))).Like nocrc nocrc' R
        (Topfield.tfSend e' tf' (r.build (e'.stack tf'.usb))) ∧
      (Topfield.tfGetResponse e (Topfield.tfSend e tf (r.build (e.stack tf.usb))).tf
          (e.stack (Topfield.tfSend e tf (r.build (e.stack tf.usb))).tf.usb)).Like nocrc nocrc' R
        (Topfield.tfGetResponse e' (Topfield.tfSend e' tf' (r.build (e'.stack tf'.usb))).tf
          (e'.stack (Topfield.tfSend e' tf' (r.build (e'.stack tf'.usb))).tf.usb)) := by
  have hsent := h.tfSend htf (r.build (e.stack tf.usb))
  rw [← h.stack htf.usb, ← h.stack hsent.tf.usb]
  exact ⟨hsent, h.tfGetResponse hsent.tf _⟩

theorem tfCmdSize (htf : tf.Like nocrc nocrc' R tf') (result : TfSizeResult) :
    (tfCmdSize e tf result).Like nocrc nocrc' R (tfCmdSize e' tf' result) := by
  obtain ⟨hsent, hgot⟩ := h.request htf .hddSize
  simp only [Topfield.tfCmdSize]
  generalize Topfield.tfSend e tf _ = sent at *
  generalize Topfield.tfSend e' tf' _ = sent' at *
  generalize Topfield.tfGetResponse e sent.tf _ = got at *
  generalize Topfield.tfGetResponse e' sent'.tf _ = got' at *
  rw [← hsent.ret, ← hgot.toCall.ret, ← hgot.out]
  refine like_ite_out Iff.rfl (like_ite_out Iff.rfl ?_ ⟨hgot.toCall, rfl⟩) ⟨hsent, rfl⟩
  exact like_ite_out Iff.rfl ⟨hgot.toCall, rfl⟩ ⟨⟨rfl, hgot.toCall.tf⟩, rfl⟩

/-! ### Listings -/

theorem unpackDirent (m : Mem) (a : Nat) : unpackDirent e m a = unpackDirent e' m a := by
  simp only [Topfield.unpackDirent, tfdtToTime, h.mktime]

theorem unpackEntries (reply : Mem) (n : Nat) (entry : Nat → TfDirent) :
    unpackEntries e reply n entry = unpackEntries e' reply n entry := by
  funext i
  rw [Topfield.unpackEntries, Topfield.unpackEntries, h.unpackDirent]

theorem getDirents (htf : tf.Like nocrc nocrc' R tf') (result : TfDirEntries) :
    (getDirents e tf result).Like nocrc nocrc' R (getDirents e' tf' result) := by
  have hgot := h.tfGetResponse htf (e.stack tf.usb)
  simp only [Topfield.getDirents]
  rw [← h.stack htf.usb]
  generalize Topfield.tfGetResponse e tf _ = got at *
  generalize Topfield.tfGetResponse e' tf' _ = got' at *
  have hdone := h.tfSendSuccess hgot.toCall.tf
  rw [← hgot.toCall.ret, ← hgot.out, h.unpackEntries]
  refine like_ite_out Iff.rfl (like_ite_out Iff.rfl ⟨hgot.toCall, rfl⟩ ?_) ⟨hgot.toCall, rfl⟩
  exact like_ite_out Iff.rfl ⟨⟨rfl, hdone.tf⟩, rfl⟩ ⟨⟨rfl, hgot.toCall.tf⟩, rfl⟩

theorem tfCmdDirFirst (htf : tf.Like nocrc nocrc' R tf') (path : CString) (result : TfDirEntries) :
    (tfCmdDirFirst e tf path result).Like nocrc nocrc' R (tfCmdDirFirst e' tf' path result) := by
  obtain ⟨hsent, -⟩ := h.request htf (.dir path)
  simp only [Topfield.tfCmdDirFirst]
  exact like_ite_out (by rw [hsent.ret]) (h.getDirents hsent.tf result) ⟨hsent, rfl⟩

theorem tfCmdDirNext (htf : tf.Like nocrc nocrc' R tf') (result : TfDirEntries) :
    (tfCmdDirNext e tf result).Like nocrc nocrc' R (tfCmdDirNext e' tf' result) := by
  have hsent := h.tfSendSuccess htf
  simp only [Topfield.tfCmdDirNext]
  exact like_ite_out (by rw [hsent.ret]) (h.getDirents hsent.tf result) ⟨hsent, rfl⟩

/-! ### Putting a file -/

theorem putTypefile (path : CString) (size : UInt64) (stamp : Int) (typefile : Mem) :
    putTypefile e path size stamp typefile = putTypefile e' path size stamp typefile := by
  simp only [Topfield.putTypefile, timeToTfdt, h.localtime]

theorem tfCmdPut (htf : tf.Like nocrc nocrc' R tf') (path : CString) (size : UInt64) (stamp : Int)
    (offset : UInt64) :
    (tfCmdPut e tf path size stamp offset).Like nocrc nocrc' R (tfCmdPut e' tf' path size stamp offset) := by
  obtain ⟨hsent, hgot⟩ := h.request htf (.filePut path offset)
  simp only [Topfield.tfCmdPut]
  rw [← h.stack htf.usb] at *
  generalize (Request.filePut path offset).build (e.stack tf.usb) = req at *
  generalize Topfield.tfSend e tf req = sent at *
  generalize Topfield.tfSend e' tf' req = sent' at *
  generalize Topfield.tfGetResponse e sent.tf _ = got at *
  generalize Topfield.tfGetResponse e' sent'.tf _ = got' at *
  rw [← hsent.ret, ← hgot.toCall.ret, ← hgot.out, ← h.stack hgot.toCall.tf.usb, ← h.putTypefile]
  generalize (Request.fileStart (Topfield.putTypefile e path size stamp (e.stack got.tf.usb))).build req = start
  have hstarted := h.tfSend hgot.toCall.tf start
  have hanswer := h.tfGetResponse hstarted.tf got.out
  rw [← hstarted.ret, ← hanswer.toCall.ret, ← hanswer.out]
  refine like_ite Iff.rfl (fun _ => like_ite Iff.rfl (fun _ => ?_) hgot.toCall) hsent
  refine like_ite Iff.rfl (fun _ => like_ite Iff.rfl (fun _ => ?_) hstarted) ?_
  · exact like_ite Iff.rfl (fun _ => ⟨rfl, hanswer.toCall.tf⟩) hanswer.toCall
  · exact like_ite Iff.rfl (fun _ => ⟨rfl, hgot.toCall.tf⟩) ⟨rfl, hgot.toCall.tf⟩

theorem tfCmdPutData (htf : tf.Like nocrc nocrc' R tf') (offset : UInt64) (buffer : List UInt8) :
    (tfCmdPutData e tf offset buffer).Like nocrc nocrc' R (tfCmdPutData e' tf' offset buffer) := by
  obtain ⟨hsent, -⟩ := h.request htf (.fileData offset buffer)
  simp only [Topfield.tfCmdPutData]
  generalize Topfield.tfSend e tf _ = sent at *
  generalize Topfield.tfSend e' tf' _ = sent' at *
  have hgot := h.tfGetResponse (hsent.tf.wait (sent.tf.timeout * 2)) (e.stack sent.tf.usb)
  rw [← hsent.tf.timeout, ← h.stack hsent.tf.usb]
  generalize Topfield.tfGetResponse e _ _ = got at *
  generalize Topfield.tfGetResponse e' _ _ = got' at *
  have hrestored := hgot.toCall.tf.wait sent.tf.timeout
  rw [← hsent.ret, ← hgot.toCall.ret, ← hgot.out]
  refine like_ite Iff.rfl (fun _ => like_ite Iff.rfl (fun _ => ?_) ⟨rfl, hrestored⟩) hsent
  exact like_ite Iff.rfl (fun _ => ⟨rfl, hrestored⟩) ⟨rfl, hrestored⟩

theorem tfCmdPutDone (htf : tf.Like nocrc nocrc' R tf') :
    (tfCmdPutDone e tf).Like nocrc nocrc' R (tfCmdPutDone e' tf') := by
  obtain ⟨hsent, hgot⟩ := h.request htf .fileEnd
  simp only [Topfield.tfCmdPutDone]
  generalize Topfield.tfSend e tf _ = sent at *
  generalize Topfield.tfSend e' tf' _ = sent' at *
  generalize Topfield.tfGetResponse e sent.tf _ = got at *
  generalize Topfield.tfGetResponse e' sent'.tf _ = got' at *
  have hcancelled := h.tfCmdCancel hgot.toCall.tf
  rw [← hsent.ret, ← hgot.toCall.ret, ← hgot.out]
  exact like_ite Iff.rfl (fun _ => like_ite Iff.rfl (fun _ => ⟨rfl, hcancelled.tf⟩) ⟨rfl, hgot.toCall.tf⟩) hsent

/-! ### Getting a file -/

theorem tfCmdGet (htf : tf.Like nocrc nocrc' R tf') (path : CString) (offset : UInt64) (dirent : TfDirent) :
    (tfCmdGet e tf path offset dirent).Like nocrc nocrc' R (tfCmdGet e' tf' path offset dirent) := by
  obtain ⟨hsent, hgot⟩ := h.request htf (.fileGet path offset)
  simp only [Topfield.tfCmdGet]
  generalize Topfield.tfSend e tf _ = sent at *
  generalize Topfield.tfSend e' tf' _ = sent' at *
  generalize Topfield.tfGetResponse e sent.tf _ = got at *
  generalize Topfield.tfGetResponse e' sent'.tf _ = got' at *
  rw [← hsent.ret, ← hgot.toCall.ret, ← hgot.out, h.unpackDirent]
  refine like_ite_out Iff.rfl (like_ite_out Iff.rfl ?_ ⟨hgot.toCall, rfl⟩) ⟨hsent, rfl⟩
  refine like_ite_out Iff.rfl ⟨hgot.toCall, rfl⟩ ?_
  exact like_ite_out Iff.rfl ⟨⟨rfl, hgot.toCall.tf⟩, rfl⟩ ⟨⟨rfl, hgot.toCall.tf⟩, rfl⟩

theorem getNextReply (htf : tf.Like nocrc nocrc' R tf') (buf : TfBuffer) :
    (getNextReply e tf buf).Like nocrc nocrc' R (getNextReply e' tf' buf) := by
  have hgot := h.tfGetResponse htf tf.buf
  simp only [Topfield.getNextReply]
  rw [← htf.buf]
  generalize Topfield.tfGetResponse e tf _ = got at *
  generalize Topfield.tfGetResponse e' tf' _ = got' at *
  rw [← hgot.toCall.ret, ← hgot.out]
  have hkept := hgot.toCall.tf.keep got.out
  have hack := h.tfSendSuccess hkept
  generalize Topfield.tfSendSuccess e { got.tf with buf := got.out } = ack at *
  generalize Topfield.tfSendSuccess e' { got'.tf with buf := got.out } = ack' at *
  have hacked : TfHandle.Like nocrc nocrc' R (if ack.ret = 0 then { ack.tf with pending := 1 } else ack.tf)
      (if ack'.ret = 0 then { ack'.tf with pending := 1 } else ack'.tf) := by
    rw [← hack.ret]
    split_ifs
    · exact hack.tf.remember 1
    · exact hack.tf
  refine like_ite_out Iff.rfl (like_ite_out Iff.rfl ⟨⟨rfl, hack.tf⟩, rfl⟩ ?_) ⟨⟨rfl, hkept⟩, rfl⟩
  refine like_ite_out Iff.rfl ⟨⟨rfl, hacked⟩, rfl⟩ ?_
  exact like_ite_out Iff.rfl ⟨⟨rfl, hkept⟩, rfl⟩ ⟨⟨rfl, hkept⟩, rfl⟩

theorem tfCmdGetNext (htf : tf.Like nocrc nocrc' R tf') (buf : TfBuffer) :
    (tfCmdGetNext e tf buf).Like nocrc nocrc' R (tfCmdGetNext e' tf' buf) := by
  have hentry : (if tf.pending = 0 then Topfield.tfSendSuccess e tf else ⟨0, tf⟩).Like nocrc nocrc' R
      (if tf'.pending = 0 then Topfield.tfSendSuccess e' tf' else ⟨0, tf'⟩) :=
    like_ite (by rw [htf.pending]) (fun _ => h.tfSendSuccess htf) ⟨rfl, htf⟩
  simp only [Topfield.tfCmdGetNext]
  generalize (if tf.pending = 0 then Topfield.tfSendSuccess e tf else ⟨0, tf⟩) = entry at *
  generalize (if tf'.pending = 0 then Topfield.tfSendSuccess e' tf' else ⟨0, tf'⟩) = entry' at *
  have hnext : (if entry.ret = 0 then Topfield.getNextReply e { entry.tf with pending := 0 } buf
      else { ret := entry.ret, tf := { entry.tf with pending := 0 }, out := buf }).Like nocrc nocrc' R
      (if entry'.ret = 0 then Topfield.getNextReply e' { entry'.tf with pending := 0 } buf
      else { ret := entry'.ret, tf := { entry'.tf with pending := 0 }, out := buf }) :=
    like_ite_out (by rw [hentry.ret]) (h.getNextReply (hentry.tf.remember 0) buf)
      ⟨⟨hentry.ret, hentry.tf.remember 0⟩, rfl⟩
  refine ⟨⟨hnext.toCall.ret, ?_⟩, hnext.out⟩
  simp only
  rw [← hnext.toCall.ret]
  exact hnext.toCall.tf.report _

theorem getCancelRounds (htf : tf.Like nocrc nocrc' R tf') (ret : Int) (n : Nat) :
    (getCancelRounds e tf ret n).Like nocrc nocrc' R (getCancelRounds e' tf' ret n) := by
  induction n generalizing tf tf' ret with
  | zero => exact ⟨rfl, htf⟩
  | succ n ih =>
    have hcancelled := h.tfCmdCancel (h.tfSendFail htf tfErrCrc).tf
    simp only [Topfield.getCancelRounds]
    generalize Topfield.tfCmdCancel e _ = cancelled at *
    generalize Topfield.tfCmdCancel e' _ = cancelled' at *
    have hgot := h.tfGetResponse hcancelled.tf (e.stack cancelled.tf.usb)
    rw [← h.stack hcancelled.tf.usb, ← hcancelled.ret, ← hgot.toCall.ret]
    refine like_ite Iff.rfl (fun _ => hcancelled) ?_
    exact like_ite Iff.rfl (fun _ => hgot.toCall) (ih hgot.toCall.tf _)

theorem tfCmdGetCancel (htf : tf.Like nocrc nocrc' R tf') :
    (tfCmdGetCancel e tf).Like nocrc nocrc' R (tfCmdGetCancel e' tf') := by
  have hgot := h.tfGetResponse (htf.remember 0) (e.stack tf.usb)
  simp only [Topfield.tfCmdGetCancel]
  rw [← htf.pending, ← h.stack htf.usb]
  split_ifs
  · exact h.getCancelRounds hgot.toCall.tf 0 5
  · exact h.getCancelRounds htf 0 5

end Env.Simulates

/-! ### Clients -/

/-- What a call leaves in its output parameter. -/
inductive Output
  | nothing
  | size (result : TfSizeResult)
  | entries (result : TfDirEntries)
  | dirent (dirent : TfDirent)
  | data (buf : TfBuffer)

structure Observed where
  ret : Int
  output : Output
  error : Int
  buf : Mem

def PublicCall.output (e : Env σ) (tf : TfHandle σ) : PublicCall → Output
  | .size result => .size (tfCmdSize e tf result).out
  | .dirFirst path result => .entries (tfCmdDirFirst e tf path result).out
  | .dirNext result => .entries (tfCmdDirNext e tf result).out
  | .get path offset dirent => .dirent (tfCmdGet e tf path offset dirent).out
  | .getNext buf => .data (tfCmdGetNext e tf buf).out
  | _ => .nothing

def PublicCall.observe (e : Env σ) (tf : TfHandle σ) (c : PublicCall) : Observed × TfHandle σ :=
  let call := c.run e tf
  (⟨call.ret, c.output e tf, call.tf.error, call.tf.buf⟩, call.tf)

namespace Env.Simulates

variable (h : e.Simulates nocrc nocrc' e' R)
include h

theorem run (htf : tf.Like nocrc nocrc' R tf') (c : PublicCall) :
    (c.run e tf).Like nocrc nocrc' R (c.run e' tf') := by
  cases c with
  | init => exact h.tfInit htf
  | size result => exact (h.tfCmdSize htf result).toCall
  | cancel => exact h.runRequest htf .cancel
  | ready => exact h.runRequest htf .ready
  | reset => exact h.runRequest htf .reset
  | turbo on => exact h.runRequest htf (.turbo on)
  | delete path => exact h.runRequest htf (.delete path)
  | rename src dest => exact h.runRequest htf (.rename src dest)
  | mkdir path => exact h.runRequest htf (.mkdir path)
  | dirFirst path result => exact (h.tfCmdDirFirst htf path result).toCall
  | dirNext result => exact (h.tfCmdDirNext htf result).toCall
  | dirCancel => exact h.tfCmdCancel htf
  | get path offset dirent => exact (h.tfCmdGet htf path offset dirent).toCall
  | getNext buf => exact (h.tfCmdGetNext htf buf).toCall
  | getCancel => exact h.tfCmdGetCancel htf
  | put path size stamp offset => exact h.tfCmdPut htf path size stamp offset
  | putData offset buffer => exact h.tfCmdPutData htf offset buffer
  | putDone => exact h.tfCmdPutDone htf
  | putCancel => exact h.tfCmdCancel (h.tfCmdCancel htf).tf
  | sendSuccess => exact h.tfSendSuccess htf
  | sendFail reason => exact h.tfSendFail htf reason

theorem output (htf : tf.Like nocrc nocrc' R tf') (c : PublicCall) : c.output e tf = c.output e' tf' := by
  cases c with
  | size result => exact congrArg Output.size (h.tfCmdSize htf result).out
  | dirFirst path result => exact congrArg Output.entries (h.tfCmdDirFirst htf path result).out
  | dirNext result => exact congrArg Output.entries (h.tfCmdDirNext htf result).out
  | get path offset dirent => exact congrArg Output.dirent (h.tfCmdGet htf path offset dirent).out
  | getNext buf => exact congrArg Output.data (h.tfCmdGetNext htf buf).out
  | _ => rfl

theorem observe : Simulation (TfHandle.Like nocrc nocrc' R) (PublicCall.observe e) (PublicCall.observe e') := by
  intro tf tf' c htf
  have hrun := h.run htf c
  refine ⟨?_, hrun.tf⟩
  simp only [PublicCall.observe]
  rw [hrun.ret, h.output htf, hrun.tf.error, hrun.tf.buf]

end Env.Simulates

/-! ### The check of the checksum -/

/-- The flag decides on the error alone. -/
theorem checkResponse_reply (nocrc nocrc' ret : Int) (reply : Mem) :
    (checkResponse nocrc ret reply).2 = (checkResponse nocrc' ret reply).2 := by
  unfold checkResponse
  cases responseLength ret reply with
  | none => rfl
  | some len => rfl

theorem sameResponse_arrival (nocrc nocrc' : Int) (stale : Mem) (found : Option Packet) :
    SameResponse nocrc nocrc' (arrival stale found) (arrival stale found) := by
  cases found with
  | none => exact (checkResponse_none nocrc stale).trans (checkResponse_none nocrc' stale).symm
  | some packet =>
    have herror := (checkResponse_some nocrc stale packet).1.trans (checkResponse_some nocrc' stale packet).1.symm
    exact Prod.ext herror (checkResponse_reply _ _ _ _)

theorem Peer.env_simulates {δ : Type} (peer : Peer δ) (host : Host δ) (nocrc nocrc' : Int) :
    (peer.env host).Simulates nocrc nocrc' (peer.env host) Eq where
  transport := by
    refine ⟨fun ep timeout bytes hs _ _ => ?_, fun ep timeout hs => ?_⟩
    · subst hs
      exact ⟨Iff.rfl, rfl⟩
    · subst hs
      exact ⟨sameResponse_arrival nocrc nocrc' _ _, rfl⟩
  stack hs := congrArg host.stack hs
  localtime := rfl
  mktime := rfl

/-- **Checking.** With a device whose packets are whole, a client sees the same with the check as without it. -/
theorem client_nocrc {δ : Type} (peer : Peer δ) (host : Host δ) (tf : TfHandle δ) (nocrc : Int)
    (client : Client PublicCall Observed) (n : Nat) :
    (client.run (PublicCall.observe (peer.env host)) n [] { tf with nocrc }).1 =
        (client.run (PublicCall.observe (peer.env host)) n [] tf).1 ∧
      (client.run (PublicCall.observe (peer.env host)) n [] { tf with nocrc }).2.usb =
        (client.run (PublicCall.observe (peer.env host)) n [] tf).2.usb := by
  have hlike : TfHandle.Like nocrc tf.nocrc Eq { tf with nocrc } tf := ⟨rfl, rfl, rfl, rfl, rfl, rfl, rfl, rfl⟩
  obtain ⟨hseen, hleft⟩ := (peer.env_simulates host nocrc tf.nocrc).observe.run client n [] hlike
  exact ⟨hseen, hleft.usb⟩

end Topfield
