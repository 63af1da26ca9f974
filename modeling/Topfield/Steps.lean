import Topfield.Commands
import Topfield.Codec

/-!
# Sending and receiving

What one `tf_send` and one `tf_get_response` do, case by case, with the transfer they leave in the log.
The operations above are compositions of these two.
-/

namespace Topfield

open Lib

variable {σ : Type}

/-- The handle with an empty log beside the state of its device. -/
def TfHandle.logging (tf : TfHandle σ) : TfHandle (σ × List Event) where
  timeout := tf.timeout
  nocrc := tf.nocrc
  error := tf.error
  dev := tf.dev
  pending := tf.pending
  buf := tf.buf
  usb := (tf.usb, [])

/-! ### One send -/

theorem tfSendBytes_length (req : Mem) : (tfSendBytes req).length = tfSendLen req :=
  Mem.length_load _ _ _

theorem tfSend_noconn (e : Env σ) {tf : TfHandle σ} (req : Mem) (hdev : tf.dev = false) :
    tfSend e tf req = ⟨tfErrNoconn, { tf with error := tfErrNoconn }⟩ := by
  simp [tfSend, hdev]

theorem tfSend_logged (e : Env σ) {tf : TfHandle (σ × List Event)} (req : Mem) {n : Int} {s : σ}
    (hdev : tf.dev = true) (hwrite : e.write tf.usb.1 0x01 tf.timeout (tfSendBytes req) = (n, s)) :
    tfSend e.logged tf req =
      { ret := if n = (tfSendBytes req).length then tfErrNone else tfErrIo
        tf := { tf with
          error := if n = (tfSendBytes req).length then tfErrNone else tfErrIo
          usb := (s, tf.usb.2 ++ [.wrote (tfSendBytes req) n]) } } := by
  have hlogged : e.logged.write tf.usb 0x01 tf.timeout (tfSendBytes req) =
      (n, s, tf.usb.2 ++ [.wrote (tfSendBytes req) n]) := by
    show (_, _, _) = _
    rw [hwrite]
  simp only [tfSend, hdev, if_true, hlogged, tfSendBytes_length]

theorem tfSend_log (e : Env σ) (tf : TfHandle (σ × List Event)) (req : Mem) :
    tf.usb.2 <+: (tfSend e.logged tf req).tf.usb.2 := by
  cases hdev : tf.dev with
  | false =>
    have hsame : (tfSend e.logged tf req).tf.usb.2 = tf.usb.2 := by rw [tfSend_noconn e.logged req hdev]
    exact hsame ▸ List.prefix_rfl
  | true =>
    rw [tfSend_logged e req hdev rfl]
    exact List.prefix_append _ _

/-! ### One response -/

theorem tfGetResponse_noconn (e : Env σ) {tf : TfHandle σ} (reply : Mem) (hdev : tf.dev = false) :
    tfGetResponse e tf reply =
      { ret := tfErrNoconn, tf := { tf with error := tfErrNoconn }, out := reply } := by
  simp [tfGetResponse, hdev]

theorem tfGetResponse_logged (e : Env σ) {tf : TfHandle (σ × List Event)} (reply : Mem) {ret : Int}
    {content : Mem} {s : σ} (hdev : tf.dev = true)
    (hread : e.read tf.usb.1 0x82 tf.timeout sizeofPacket = ((ret, content), s)) :
    tfGetResponse e.logged tf reply =
      { ret := (checkResponse tf.nocrc ret content).1
        tf := { tf with
          error := (checkResponse tf.nocrc ret content).1
          usb := (s, tf.usb.2 ++ [.read ret content]) }
        out := (checkResponse tf.nocrc ret content).2 } := by
  have hlogged : e.logged.read tf.usb 0x82 tf.timeout sizeofPacket =
      ((ret, content), s, tf.usb.2 ++ [.read ret content]) := by
    show (_, _, _) = _
    rw [hread]
  simp only [tfGetResponse, hdev, if_true, hlogged]

/-- The errors of a response are all negative. -/
theorem checkResponse_nonpos (nocrc ret : Int) (content : Mem) :
    (checkResponse nocrc ret content).1 ≤ 0 := by
  unfold checkResponse
  split
  · show tfErrIo ≤ 0
    decide
  · simp only
    split_ifs <;> decide

theorem tfSend_nonpos (e : Env σ) (tf : TfHandle σ) (req : Mem) : (tfSend e tf req).ret ≤ 0 := by
  cases hdev : tf.dev with
  | false =>
    rw [tfSend_noconn e req hdev]
    exact tfErrNoconn_neg.le
  | true =>
    simp only [tfSend, hdev, if_true]
    split_ifs
    · exact le_rfl
    · exact tfErrIo_neg.le

theorem tfGetResponse_nonpos (e : Env σ) (tf : TfHandle σ) (reply : Mem) :
    (tfGetResponse e tf reply).ret ≤ 0 := by
  cases hdev : tf.dev with
  | false =>
    rw [tfGetResponse_noconn e reply hdev]
    exact tfErrNoconn_neg.le
  | true =>
    simp only [tfGetResponse, hdev, if_true]
    exact checkResponse_nonpos _ _ _

/-! ### A command -/

theorem tfCmd_of_send_error {e : Env σ} {tf : TfHandle σ} {req : Mem} {sent : Call σ}
    (hsend : tfSend e tf req = sent) (herror : sent.ret ≠ 0) : tfCmd e tf req = sent := by
  rw [tfCmd, hsend]
  exact if_neg herror

theorem tfCmd_of_response_error {e : Env σ} {tf : TfHandle σ} {req : Mem} {sent : Call σ}
    {got : CallOut σ Mem} (hsend : tfSend e tf req = sent) (hsent : sent.ret = 0)
    (hget : tfGetResponse e sent.tf (e.stack sent.tf.usb) = got) (herror : got.ret ≠ 0) :
    tfCmd e tf req = got.toCall := by
  rw [tfCmd, hsend]
  simp only [hget]
  rw [if_pos hsent, if_neg herror]

theorem tfCmd_of_success {e : Env σ} {tf : TfHandle σ} {req : Mem} {sent : Call σ}
    {got : CallOut σ Mem} (hsend : tfSend e tf req = sent) (hsent : sent.ret = 0)
    (hget : tfGetResponse e sent.tf (e.stack sent.tf.usb) = got) (hgot : got.ret = 0)
    (hcmd : packetCmd got.out = tfMsgSuccess) : tfCmd e tf req = got.toCall := by
  have hfail : packetCmd got.out ≠ tfMsgFail := by
    rw [hcmd]
    decide
  rw [tfCmd, hsend]
  simp only [hget]
  rw [if_pos hsent, if_pos hgot, if_neg hfail, if_neg (not_not_intro hcmd)]

/-! ### The acknowledgement -/

theorem tfSendBytes_success : tfSendBytes (Mem.ofList successPacket) = successPacket := by
  decide +kernel

theorem tfSendSuccess_logged (e : Env σ) {tf : TfHandle (σ × List Event)} (hdev : tf.dev = true) :
    ∃ n s, tfSendSuccess e.logged tf =
      { ret := if n = 8 then tfErrNone else tfErrIo
        tf := { tf with
          error := if n = 8 then tfErrNone else tfErrIo
          usb := (s, tf.usb.2 ++ [.wrote successPacket n]) } } := by
  rcases hwrite : e.write tf.usb.1 0x01 tf.timeout successPacket with ⟨n, s⟩
  rw [← tfSendBytes_success] at hwrite
  refine ⟨n, s, ?_⟩
  rw [tfSendSuccess, tfSend_logged e _ hdev hwrite, tfSendBytes_success]
  rfl

/-- The packet sent by `tf_send_success` is the one `tf_req_init` and `tf_req_done` would make. -/
theorem successPacket_eq : successPacket = wireImage tfMsgSuccess [] := by
  decide +kernel

/-! ### The command word on the wire -/

/-- The command word of a transfer, as a device finds it there. -/
def wireCmd (bytes : List UInt8) : UInt32 := getU32Raw (Mem.ofList bytes) 4

theorem wireCmd_wireImage (cmd : UInt32) (payload tail : List UInt8) :
    wireCmd (wireImage cmd payload ++ tail) = cmd := by
  have hsplit : wireImage cmd payload =
      swapPairs (toBE 2 (8 + payload.length) ++ toBE 2 (packetCrc cmd payload).toNat) ++
        (swapPairs (toBE 4 cmd.toNat) ++
          swapPairs (payload ++ List.replicate ((packetImage cmd payload).length % 2) 0)) := by
    rw [wireImage, padEven_eq_append, packetImage, ← swapPairs_append _ _ (by simp),
      ← swapPairs_append _ _ (by simp)]
    simp only [List.append_assoc]
  have hload := Mem.load_ofList (wireImage cmd payload) tail
  rw [hsplit, ← hsplit] at hload
  nth_rewrite 3 [hsplit] at hload
  obtain ⟨-, hload⟩ := Mem.load_split hload
  have hcmd := Mem.load_prefix hload
  simp only [length_swapPairs, List.length_append, length_toBE] at hcmd
  apply UInt32.toNat_inj.mp
  rw [wireCmd, getU32Raw_toNat, hcmd, swapPairs_swapPairs, ofBE_toBE]
  exact Nat.mod_eq_of_lt cmd.toNat_lt

/-- A request that fits goes out as its wire image, perhaps with two more bytes. -/
theorem Request.transfer {r : Request} (hfits : r.Fits) (req : Mem) :
    ∃ tail : List UInt8, tail.length = sendTail r.length ∧
      tfSendBytes (r.build req) = wireImage r.cmd r.payload ++ tail :=
  transfer_eq (Request.holds hfits req)

theorem wireCmd_build {r : Request} (hfits : r.Fits) (req : Mem) :
    wireCmd (tfSendBytes (r.build req)) = r.cmd := by
  obtain ⟨tail, -, htransfer⟩ := Request.transfer hfits req
  rw [htransfer, wireCmd_wireImage]

theorem fits_fileStart (typefile : Typefile) : (Request.fileStart typefile).Fits := by
  have hlength : (Request.fileStart typefile).length = 122 := by
    show 8 + ([] ++ typefile.bytes).length = 122
    rw [List.nil_append, typefile.length]
  rw [Request.Fits, hlength]
  decide

theorem wireCmd_success : wireCmd successPacket = tfMsgSuccess := by
  decide +kernel

/-! ### What stays in the log -/

theorem tfSend_logging (e : Env σ) {tf : TfHandle σ} (req : Mem) (hdev : tf.dev = true) :
    ∃ n, (tfSend e.logged tf.logging req).tf.usb.2 = [.wrote (tfSendBytes req) n] := by
  rw [tfSend_logged e req (show tf.logging.dev = true from hdev) rfl]
  exact ⟨_, rfl⟩

theorem tfGetResponse_log (e : Env σ) (tf : TfHandle (σ × List Event)) (reply : Mem) :
    tf.usb.2 <+: (tfGetResponse e.logged tf reply).tf.usb.2 := by
  cases hdev : tf.dev with
  | false =>
    have hsame : (tfGetResponse e.logged tf reply).tf.usb.2 = tf.usb.2 := by
      rw [tfGetResponse_noconn e.logged reply hdev]
    exact hsame ▸ List.prefix_rfl
  | true =>
    rw [tfGetResponse_logged e reply hdev rfl]
    exact List.prefix_append _ _

theorem log_ite {p : Prop} [Decidable p] {log : List Event} {yes no : Call (σ × List Event)}
    (hyes : log <+: yes.tf.usb.2) (hno : log <+: no.tf.usb.2) : log <+: (if p then yes else no).tf.usb.2 := by
  split
  · exact hyes
  · exact hno

theorem log_ite_out {α : Type} {p : Prop} [Decidable p] {log : List Event}
    {yes no : CallOut (σ × List Event) α} (hyes : log <+: yes.tf.usb.2) (hno : log <+: no.tf.usb.2) :
    log <+: (if p then yes else no).tf.usb.2 := by
  split
  · exact hyes
  · exact hno

theorem getDirents_log (e : Env σ) (tf : TfHandle (σ × List Event)) (result : TfDirEntries) :
    tf.usb.2 <+: (getDirents e.logged tf result).tf.usb.2 := by
  have hgot := tfGetResponse_log e tf (e.logged.stack tf.usb)
  have hdone := hgot.trans (tfSend_log e _ (Mem.ofList successPacket))
  exact log_ite_out (log_ite_out hgot (log_ite_out hdone hgot)) hgot

theorem tfCmd_sent_log (e : Env σ) (tf : TfHandle (σ × List Event)) (req : Mem) :
    (tfSend e.logged tf req).tf.usb.2 <+: (tfCmd e.logged tf req).tf.usb.2 := by
  have hgot := tfGetResponse_log e (tfSend e.logged tf req).tf
    (e.logged.stack (tfSend e.logged tf req).tf.usb)
  exact log_ite (log_ite (log_ite hgot (log_ite hgot hgot)) hgot) List.prefix_rfl

end Topfield
