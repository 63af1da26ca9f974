import Topfield.Failure

/-!
# The last error

The handle keeps the last error. Every send and every response stores its result there, and `tf_cmd`
stores once more what it makes of the reply. `tf_cmd_size` reads its reply without `tf_cmd`: a packet it
does not expect is returned as TF_ERR_UNEXPECTED while the handle still says that there was no error.
-/

namespace Topfield

open Lib

variable {σ : Type}

inductive SyncCommand
  | size (result : TfSizeResult)
  | cancel
  | ready
  | reset
  | turbo (on : Int)
  | delete (path : CString)
  | rename (src dest : CString)
  | mkdir (path : CString)

def SyncCommand.run (e : Env σ) (tf : TfHandle σ) : SyncCommand → Call σ
  | size result => (tfCmdSize e tf result).toCall
  | cancel => tfCmdCancel e tf
  | ready => tfCmdReady e tf
  | reset => tfCmdReset e tf
  | turbo on => tfCmdTurbo e tf on
  | delete path => tfCmdDelete e tf path
  | rename src dest => tfCmdRename e tf src dest
  | mkdir path => tfCmdMkdir e tf path

/-- The handle's last error is what the call returned. -/
def ErrorAgrees (call : Call σ) : Prop := call.tf.error = call.ret

/-- The reply to the HDD_SIZE request, if one is accepted, is a result. -/
def SizeAnswered (e : Env σ) (tf : TfHandle σ) : Prop :=
  ∀ reply, firstReply e tf (Request.hddSize.build (e.stack tf.usb)) = some reply →
    packetCmd reply = tfMsgHddSizeResult

theorem tfSend_errorAgrees (e : Env σ) (tf : TfHandle σ) (req : Mem) : ErrorAgrees (tfSend e tf req) := by
  unfold ErrorAgrees tfSend
  split
  · rfl
  · rfl

theorem tfGetResponse_errorAgrees (e : Env σ) (tf : TfHandle σ) (reply : Mem) :
    ErrorAgrees (tfGetResponse e tf reply).toCall := by
  simp only [ErrorAgrees, tfGetResponse]
  split
  · rfl
  · rfl

theorem tfCmd_errorAgrees (e : Env σ) (tf : TfHandle σ) (req : Mem) : ErrorAgrees (tfCmd e tf req) := by
  have hsent := tfSend_errorAgrees e tf req
  have hgot := tfGetResponse_errorAgrees e (tfSend e tf req).tf (e.stack (tfSend e tf req).tf.usb)
  unfold tfCmd
  simp only
  split_ifs
  · rfl
  · rfl
  · exact hgot
  · exact hgot
  · exact hsent

theorem tfCmdSize_errorAgrees_iff (e : Env σ) (tf : TfHandle σ) (result : TfSizeResult) :
    ErrorAgrees (tfCmdSize e tf result).toCall ↔ SizeAnswered e tf := by
  simp only [tfCmdSize, SizeAnswered]
  generalize Request.hddSize.build (e.stack tf.usb) = req
  have hfirst := firstReply_eq_ite e tf req (e.stack (tfSend e tf req).tf.usb)
  have hsent := tfSend_errorAgrees e tf req
  have hgot := tfGetResponse_errorAgrees e (tfSend e tf req).tf (e.stack (tfSend e tf req).tf.usb)
  generalize tfSend e tf req = sent at *
  generalize tfGetResponse e sent.tf _ = got at *
  by_cases hsend : sent.ret = 0
  · by_cases hok : got.ret = 0
    · rw [if_pos ⟨hsend, hok⟩] at hfirst
      rw [if_pos hsend, if_pos hok]
      by_cases hcmd : packetCmd got.out = tfMsgHddSizeResult
      · rw [if_pos hcmd]
        refine iff_of_true hgot fun reply hreply => ?_
        obtain rfl := Option.some.inj (hfirst.symm.trans hreply)
        exact hcmd
      · rw [if_neg hcmd]
        -- the response stored no error, and nothing is stored after it
        refine iff_of_false (fun h => ?_) fun h => hcmd (h got.out hfirst)
        have hzero : got.tf.error = 0 := Eq.trans hgot hok
        exact absurd (hzero.symm.trans h) tfErrUnexpected_neg.ne'
    · rw [if_neg fun h => hok h.2] at hfirst
      rw [if_pos hsend, if_neg hok]
      refine iff_of_true hgot fun reply hreply => ?_
      exact absurd (hfirst.symm.trans hreply) (Option.some_ne_none reply).symm
  · rw [if_neg fun h => hsend h.1] at hfirst
    rw [if_neg hsend]
    refine iff_of_true hsent fun reply hreply => ?_
    exact absurd (hfirst.symm.trans hreply) (Option.some_ne_none reply).symm

/-- **The last error.** A synchronous command leaves its result in the handle, and `tf_cmd_size` does
exactly if the reply it accepts is a size result. -/
theorem errorAgrees_iff (e : Env σ) (tf : TfHandle σ) (c : SyncCommand) :
    ErrorAgrees (c.run e tf) ↔ ∀ result, c = .size result → SizeAnswered e tf := by
  cases c with
  | size result =>
    refine (tfCmdSize_errorAgrees_iff e tf result).trans ⟨fun h _ _ => h, fun h => h result rfl⟩
  | _ => exact iff_of_true (tfCmd_errorAgrees e tf _) fun _ h => SyncCommand.noConfusion h

/-- A device that refuses HDD_SIZE makes `tf_cmd_size` return an error that the handle does not have. -/
theorem not_errorAgrees_size_refused :
    ¬ ErrorAgrees ((SyncCommand.size ⟨0, 0⟩).run ((replying (failPacket 2)).env (Host.blank Unit))
      (TfHandle.opened () fun _ => 0)) := by
  intro h
  have hanswered := (tfCmdSize_errorAgrees_iff _ _ _).mp h
  obtain ⟨reply, hfirst, hcmd, -⟩ :=
    firstReply_failPacket 2 (Host.blank Unit) (TfHandle.opened () fun _ => 0) _ rfl
  have hresult := hanswered reply hfirst
  rw [hcmd] at hresult
  exact absurd hresult (by decide)

end Topfield
