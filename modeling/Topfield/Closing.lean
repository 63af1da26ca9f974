import Topfield.Failure
import Topfield.Transaction

/-!
# Half-open transactions

After some results the caller is not asked to cancel a listing or a put, so by then the operation has to
have closed the transaction itself. `tf_cmd_put_done` does. The other operations give up on a reply that
they do not accept or do not expect without a CANCEL, whatever the device has accepted before.
-/

namespace Topfield

open Lib

variable {σ : Type}

/-! ### Listings -/

variable {nocrc : Int} {ev : Event} {log : List Event}

/-- A put that was begun, with whatever pieces were sent since. -/
inductive PutBegun (e : Env σ) (tf : TfHandle σ) : TfHandle (σ × List Event) → Prop
  | begun (path : CString) (size : UInt64) (stamp : Int) (offset : UInt64)
      (hret : (tfCmdPut e.logged tf.logging path size stamp offset).ret = 0) :
      PutBegun e tf (tfCmdPut e.logged tf.logging path size stamp offset).tf
  | data {tf' : TfHandle (σ × List Event)} (h : PutBegun e tf tf') (offset : UInt64)
      (buffer : List UInt8) : PutBegun e tf (tfCmdPutData e.logged tf' offset buffer).tf

theorem PutBegun.dev {e : Env σ} {tf : TfHandle σ} {tf' : TfHandle (σ × List Event)}
    (h : PutBegun e tf tf') : tf'.dev = true ∧ tf'.nocrc = tf.nocrc := by
  induction h with
  | begun path size stamp offset hret =>
    have hframe := tfCmdPut_frame e.logged tf.logging path size stamp offset
    refine ⟨hframe.dev.trans ?_, hframe.nocrc⟩
    by_contra hdev
    rw [Bool.not_eq_true] at hdev
    rw [tfCmdPut, tfSend_noconn e.logged _ hdev] at hret
    exact absurd hret tfErrNoconn_neg.ne
  | @data tf' _ offset buffer ih =>
    have hframe := tfCmdPutData_frame e.logged tf' offset buffer
    exact ⟨hframe.dev.trans ih.1, hframe.nocrc.trans ih.2⟩

/-! ### No half-open transaction -/

end Topfield
