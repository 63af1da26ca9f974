import Topfield.Commands

/-!
# What the commands leave alone

All commands but `tf_cmd_get_next` and `tf_cmd_get_cancel` change nothing in the handle but the last
error and whatever is behind the connection. These two change `pending`, and the first the buffer.
-/

namespace Topfield

open Lib

variable {σ : Type} {tf tf' tf'' : TfHandle σ}

/-- The handles agree on everything but the error and the state of the device. -/
structure Frame (tf tf' : TfHandle σ) : Prop where
  timeout : tf'.timeout = tf.timeout
  nocrc : tf'.nocrc = tf.nocrc
  dev : tf'.dev = tf.dev
  pending : tf'.pending = tf.pending
  buf : tf'.buf = tf.buf

theorem Frame.trans (h : Frame tf tf') (h' : Frame tf' tf'') : Frame tf tf'' :=
  ⟨h'.timeout.trans h.timeout, h'.nocrc.trans h.nocrc, h'.dev.trans h.dev, h'.pending.trans h.pending,
    h'.buf.trans h.buf⟩

theorem Frame.touch (tf : TfHandle σ) (error : Int) (usb : σ) : Frame tf { tf with error, usb } :=
  ⟨rfl, rfl, rfl, rfl, rfl⟩

theorem Frame.report (h : Frame tf tf') (error : Int) : Frame tf { tf' with error } :=
  h.trans (.touch tf' error tf'.usb)

theorem frame_ite {p : Prop} [Decidable p] {yes no : Call σ} (hyes : Frame tf yes.tf)
    (hno : Frame tf no.tf) : Frame tf (if p then yes else no).tf := by
  split
  · exact hyes
  · exact hno

theorem frame_ite_out {α : Type} {p : Prop} [Decidable p] {yes no : CallOut σ α} (hyes : Frame tf yes.tf)
    (hno : Frame tf no.tf) : Frame tf (if p then yes else no).tf := by
  split
  · exact hyes
  · exact hno

variable (e : Env σ)

theorem tfSend_frame (tf : TfHandle σ) (req : Mem) : Frame tf (tfSend e tf req).tf :=
  frame_ite (.touch tf _ _) (.touch tf _ _)

theorem tfGetResponse_frame (tf : TfHandle σ) (reply : Mem) : Frame tf (tfGetResponse e tf reply).tf :=
  frame_ite_out (.touch tf _ _) (.touch tf _ _)

theorem tfSendSuccess_frame (tf : TfHandle σ) : Frame tf (tfSendSuccess e tf).tf := tfSend_frame e tf _

theorem tfSendFail_frame (tf : TfHandle σ) (reason : Int) : Frame tf (tfSendFail e tf reason).tf :=
  tfSend_frame e tf _

theorem exchange_frame (tf : TfHandle σ) (req reply : Mem) :
    Frame tf (tfGetResponse e (tfSend e tf req).tf reply).tf :=
  (tfSend_frame e tf req).trans (tfGetResponse_frame e _ reply)

theorem tfCmd_frame (tf : TfHandle σ) (req : Mem) : Frame tf (tfCmd e tf req).tf := by
  have hgot := exchange_frame e tf req (e.stack (tfSend e tf req).tf.usb)
  exact frame_ite (frame_ite (frame_ite (hgot.report _) (frame_ite (hgot.report _) hgot)) hgot)
    (tfSend_frame e tf req)

theorem tfCmdCancel_frame (tf : TfHandle σ) : Frame tf (tfCmdCancel e tf).tf := tfCmd_frame e tf _

theorem tfCmdReady_frame (tf : TfHandle σ) : Frame tf (tfCmdReady e tf).tf := tfCmd_frame e tf _

theorem tfInit_frame (tf : TfHandle σ) : Frame tf (tfInit e tf).tf := by
  have hfirst := tfCmdCancel_frame e tf
  have hsecond := hfirst.trans (tfCmdCancel_frame e _)
  have hfailed := hsecond.trans (tfSendFail_frame e _ 2)
  have hsucceeded := hfailed.trans (tfSendSuccess_frame e _)
  have hready := hsucceeded.trans (tfCmdReady_frame e _)
  have hlast := hready.trans (tfCmdCancel_frame e _)
  exact frame_ite hfirst (frame_ite hsecond (frame_ite hready (frame_ite hlast hlast)))

theorem tfCmdSize_frame (tf : TfHandle σ) (result : TfSizeResult) :
    Frame tf (tfCmdSize e tf result).tf := by
  simp only [tfCmdSize]
  generalize Request.hddSize.build (e.stack tf.usb) = req
  have hsent := tfSend_frame e tf req
  have hgot := exchange_frame e tf req (e.stack (tfSend e tf req).tf.usb)
  exact frame_ite_out (frame_ite_out (frame_ite_out hgot hgot) hgot) hsent

theorem getDirents_frame (tf : TfHandle σ) (result : TfDirEntries) :
    Frame tf (getDirents e tf result).tf := by
  have hgot := tfGetResponse_frame e tf (e.stack tf.usb)
  have hdone := hgot.trans (tfSendSuccess_frame e _)
  exact frame_ite_out (frame_ite_out hgot (frame_ite_out hdone hgot)) hgot

theorem tfCmdDirFirst_frame (tf : TfHandle σ) (path : CString) (result : TfDirEntries) :
    Frame tf (tfCmdDirFirst e tf path result).tf := by
  have hsent := tfSend_frame e tf ((Request.dir path).build (e.stack tf.usb))
  exact frame_ite_out (hsent.trans (getDirents_frame e _ result)) hsent

theorem tfCmdDirNext_frame (tf : TfHandle σ) (result : TfDirEntries) :
    Frame tf (tfCmdDirNext e tf result).tf := by
  have hsent := tfSendSuccess_frame e tf
  exact frame_ite_out (hsent.trans (getDirents_frame e _ result)) hsent

theorem tfCmdDirCancel_frame (tf : TfHandle σ) : Frame tf (tfCmdDirCancel e tf).tf :=
  tfCmdCancel_frame e tf

theorem tfCmdPut_frame (tf : TfHandle σ) (path : CString) (size : UInt64) (stamp : Int)
    (offset : UInt64) : Frame tf (tfCmdPut e tf path size stamp offset).tf := by
  simp only [tfCmdPut]
  generalize (Request.filePut path offset).build (e.stack tf.usb) = req
  have hsent := tfSend_frame e tf req
  have hgot := exchange_frame e tf req (e.stack (tfSend e tf req).tf.usb)
  generalize tfGetResponse e (tfSend e tf req).tf (e.stack (tfSend e tf req).tf.usb) = got at *
  generalize (Request.fileStart (putTypefile e path size stamp (e.stack got.tf.usb))).build req = req'
  have hstarted := hgot.trans (tfSend_frame e got.tf req')
  have hanswer := hgot.trans (exchange_frame e got.tf req' got.out)
  exact frame_ite (frame_ite (frame_ite (frame_ite (frame_ite hanswer hanswer) hstarted)
    (frame_ite hgot hgot)) hgot) hsent

/-- The timeout is doubled for the response and put back after it. -/
theorem tfCmdPutData_frame (tf : TfHandle σ) (offset : UInt64) (buffer : List UInt8) :
    Frame tf (tfCmdPutData e tf offset buffer).tf := by
  simp only [tfCmdPutData]
  generalize (Request.fileData offset buffer).build (e.stack tf.usb) = req
  have hsent := tfSend_frame e tf req
  generalize tfSend e tf req = sent at *
  have hresponse :=
    tfGetResponse_frame e { sent.tf with timeout := sent.tf.timeout * 2 } (e.stack sent.tf.usb)
  generalize tfGetResponse e { sent.tf with timeout := sent.tf.timeout * 2 } (e.stack sent.tf.usb) = got at *
  have hgot : Frame sent.tf { got.tf with timeout := sent.tf.timeout } :=
    ⟨rfl, hresponse.nocrc, hresponse.dev, hresponse.pending, hresponse.buf⟩
  have hrestored := hsent.trans hgot
  exact frame_ite (frame_ite (frame_ite hrestored hrestored) hrestored) hsent

theorem tfCmdPutDone_frame (tf : TfHandle σ) : Frame tf (tfCmdPutDone e tf).tf := by
  simp only [tfCmdPutDone]
  generalize Request.fileEnd.build (e.stack tf.usb) = req
  have hsent := tfSend_frame e tf req
  have hgot := exchange_frame e tf req (e.stack (tfSend e tf req).tf.usb)
  exact frame_ite (frame_ite (hgot.trans (tfCmdCancel_frame e _)) hgot) hsent

theorem tfCmdPutCancel_frame (tf : TfHandle σ) : Frame tf (tfCmdPutCancel e tf).tf :=
  (tfCmdCancel_frame e tf).trans (tfCmdCancel_frame e _)

theorem tfCmdGet_frame (tf : TfHandle σ) (path : CString) (offset : UInt64) (dirent : TfDirent) :
    Frame tf (tfCmdGet e tf path offset dirent).tf := by
  simp only [tfCmdGet]
  generalize (Request.fileGet path offset).build (e.stack tf.usb) = req
  have hsent := tfSend_frame e tf req
  have hgot := exchange_frame e tf req (e.stack (tfSend e tf req).tf.usb)
  exact frame_ite_out (frame_ite_out (frame_ite_out hgot (frame_ite_out hgot hgot)) hgot) hsent

end Topfield
