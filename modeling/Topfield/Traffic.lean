import Topfield.Leak
import Topfield.Simulation
import Topfield.Upload

/-!
# What goes over the bus

Whatever the device answers and in whatever order a client calls, what the library transmits are whole packets
with the commands of a host, and every call comes to an end after a few transfers.
-/

namespace Topfield

open Lib

def hostCommands : List UInt32 :=
  [tfMsgSuccess, tfMsgFail, tfMsgCancel, tfMsgReady, tfMsgReset, tfMsgTurbo, tfMsgHddSize, tfMsgHddDelete,
    tfMsgHddMkdir, tfMsgHddRename, tfMsgHddDir, tfMsgHddFileSend, tfMsgHddFileStart, tfMsgHddFileData,
    tfMsgHddFileEnd]

/-- A whole packet of a host: `tf_get_response` would accept it, also with the check. -/
structure HostPacket (bytes : List UInt8) : Prop where
  even : bytes.length % 2 = 0
  bounded : bytes.length ≤ sizeofPacket
  decodes : ∃ cmd payload, cmd ∈ hostCommands ∧ 8 + payload.length ≤ bytes.length ∧
    ∀ nocrc, (decode nocrc bytes).1 = tfErrNone ∧ Received (decode nocrc bytes).2 cmd payload

/-- What is written is a packet. -/
def Orderly (ev : Event) : Prop := ∀ bytes, ev.written = some bytes → HostPacket bytes

/-- `n` transfers at most, and what is written in them are packets. -/
def Traffic {σ : Type} (n : Nat) (tf tf' : TfHandle (σ × List Event)) : Prop :=
  ∃ new, tf'.usb.2 = tf.usb.2 ++ new ∧ new.length ≤ n ∧ ∀ ev ∈ new, Orderly ev

namespace PublicCall

/-- What the call takes fits into its request. -/
def Fits (c : PublicCall) : Prop := ∀ r, c.request = some r → r.Fits

/-- How many transfers a call makes at most. -/
def transfersAtMost : PublicCall → Nat
  | .init => 10
  | .getCancel => 21
  | .put _ _ _ _ | .putDone | .putCancel => 4
  | .dirFirst _ _ | .dirNext _ | .getNext _ => 3
  | .sendSuccess | .sendFail _ => 1
  | _ => 2

end PublicCall

/-! ### Packets -/

theorem fits_put32 (value : UInt32) : requestLength [.put32 value] ≤ 0xFFFF := by
  show 8 + (toBE 4 value.toNat).length ≤ 0xFFFF
  rw [length_toBE]
  decide

theorem hostPacket_build {r : Request} (hfits : r.Fits) (req : Mem) : HostPacket (tfSendBytes (r.build req)) := by
  have hlength := length_tfSendBytes hfits req
  have hmax : r.length ≤ 0xFFFF := hfits
  have hcmd : r.cmd ∈ hostCommands := by cases r <;> simp [Request.cmd, hostCommands]
  simp only [evenLength, sendTail] at hlength
  refine ⟨?_, ?_, r.cmd, r.payload, hcmd, ?_, (carries_build hfits req).2⟩
  · split_ifs at hlength <;> omega
  · simp only [sizeofPacket]
    split_ifs at hlength <;> omega
  · rw [Request.length] at hlength
    omega

theorem hostPacket_success : HostPacket (tfSendBytes (Mem.ofList successPacket)) := by
  rw [tfSendBytes_success]
  exact ⟨rfl, by decide, tfMsgSuccess, [], by decide, by decide, decode_success⟩

section Calls

variable {σ : Type} {n m : Nat} {tf tf' tf'' : TfHandle (σ × List Event)}

namespace Traffic

theorem refl (tf : TfHandle (σ × List Event)) : Traffic 0 tf tf :=
  ⟨[], (List.append_nil _).symm, le_rfl, List.forall_mem_nil _⟩

theorem trans (h : Traffic n tf tf') (h' : Traffic m tf' tf'') : Traffic (n + m) tf tf'' := by
  obtain ⟨before, hbefore, hfew, horderly⟩ := h
  obtain ⟨after, hafter, hfew', horderly'⟩ := h'
  refine ⟨before ++ after, by rw [hafter, hbefore, List.append_assoc], ?_, ?_⟩
  · rw [List.length_append]
    omega
  · intro ev hev
    rcases List.mem_append.mp hev with hev | hev
    · exact horderly ev hev
    · exact horderly' ev hev

theorem mono (h : Traffic n tf tf') (hle : n ≤ m) : Traffic m tf tf' := by
  obtain ⟨new, hnew, hfew, horderly⟩ := h
  exact ⟨new, hnew, hfew.trans hle, horderly⟩

theorem of_eq (h : Traffic n tf tf') (husb : tf''.usb = tf'.usb) : Traffic n tf tf'' := by
  obtain ⟨new, hnew, hrest⟩ := h
  exact ⟨new, by rw [husb, hnew], hrest⟩

end Traffic

theorem traffic_ite {p : Prop} [Decidable p] {yes no : Call (σ × List Event)} (hyes : Traffic n tf yes.tf)
    (hno : Traffic n tf no.tf) : Traffic n tf (if p then yes else no).tf := by
  split
  · exact hyes
  · exact hno

theorem traffic_ite_out {α : Type} {p : Prop} [Decidable p] {yes no : CallOut (σ × List Event) α}
    (hyes : Traffic n tf yes.tf) (hno : Traffic n tf no.tf) : Traffic n tf (if p then yes else no).tf := by
  split
  · exact hyes
  · exact hno

/-! ### One call -/

variable (e : Env σ)

theorem tfSend_traffic (tf : TfHandle (σ × List Event)) {req : Mem} (hreq : HostPacket (tfSendBytes req)) :
    Traffic 1 tf (tfSend e.logged tf req).tf := by
  cases hdev : tf.dev with
  | false =>
    rw [tfSend_noconn e.logged req hdev]
    exact (Traffic.refl tf).mono (by decide)
  | true =>
    rw [tfSend_logged e req hdev rfl]
    refine ⟨_, rfl, le_rfl, fun ev hev => ?_⟩
    rw [List.mem_singleton.mp hev]
    rintro bytes ⟨⟩
    exact hreq

theorem tfGetResponse_traffic (tf : TfHandle (σ × List Event)) (reply : Mem) :
    Traffic 1 tf (tfGetResponse e.logged tf reply).tf := by
  cases hdev : tf.dev with
  | false =>
    rw [tfGetResponse_noconn e.logged reply hdev]
    exact (Traffic.refl tf).mono (by decide)
  | true =>
    rw [tfGetResponse_logged e reply hdev rfl]
    refine ⟨_, rfl, le_rfl, fun ev hev => ?_⟩
    rw [List.mem_singleton.mp hev]
    exact fun bytes hbytes => absurd hbytes.symm (Option.some_ne_none bytes)

theorem tfSendSuccess_traffic (tf : TfHandle (σ × List Event)) : Traffic 1 tf (tfSendSuccess e.logged tf).tf :=
  tfSend_traffic e tf hostPacket_success

theorem tfSendFail_traffic (tf : TfHandle (σ × List Event)) (reason : Int) :
    Traffic 1 tf (tfSendFail e.logged tf reason).tf :=
  tfSend_traffic e tf (hostPacket_build (r := .fail reason) (fits_put32 _) _)

theorem exchange_traffic (tf : TfHandle (σ × List Event)) {req : Mem} (reply : Mem)
    (hreq : HostPacket (tfSendBytes req)) :
    Traffic 2 tf (tfGetResponse e.logged (tfSend e.logged tf req).tf reply).tf :=
  (tfSend_traffic e tf hreq).trans (tfGetResponse_traffic e _ reply)

theorem tfCmd_traffic (tf : TfHandle (σ × List Event)) {req : Mem} (hreq : HostPacket (tfSendBytes req)) :
    Traffic 2 tf (tfCmd e.logged tf req).tf := by
  have hsent := (tfSend_traffic e tf hreq).mono (by decide : 1 ≤ 2)
  have hgot := exchange_traffic e tf (e.logged.stack (tfSend e.logged tf req).tf.usb) hreq
  exact traffic_ite (traffic_ite (traffic_ite (hgot.of_eq rfl) (traffic_ite (hgot.of_eq rfl) hgot)) hgot) hsent

theorem tfCmdCancel_traffic (tf : TfHandle (σ × List Event)) : Traffic 2 tf (tfCmdCancel e.logged tf).tf :=
  tfCmd_traffic e tf (hostPacket_build (r := .cancel) (by decide) _)

theorem tfCmdReady_traffic (tf : TfHandle (σ × List Event)) : Traffic 2 tf (tfCmdReady e.logged tf).tf :=
  tfCmd_traffic e tf (hostPacket_build (r := .ready) (by decide) _)

theorem tfInit_traffic (tf : TfHandle (σ × List Event)) : Traffic 10 tf (tfInit e.logged tf).tf := by
  have hfirst := tfCmdCancel_traffic e tf
  have hsecond := hfirst.trans (tfCmdCancel_traffic e _)
  have hfailed := hsecond.trans (tfSendFail_traffic e _ 2)
  have hsucceeded := hfailed.trans (tfSendSuccess_traffic e _)
  have hready := hsucceeded.trans (tfCmdReady_traffic e _)
  have hlast := hready.trans (tfCmdCancel_traffic e _)
  exact traffic_ite (hfirst.mono (by decide)) (traffic_ite (hsecond.mono (by decide))
    (traffic_ite (hready.mono (by decide)) (traffic_ite hlast hlast)))

theorem tfCmdSize_traffic (tf : TfHandle (σ × List Event)) (result : TfSizeResult) :
    Traffic 2 tf (tfCmdSize e.logged tf result).tf := by
  have hreq := hostPacket_build (r := .hddSize) (by decide) (e.logged.stack tf.usb)
  simp only [tfCmdSize]
  generalize Request.hddSize.build (e.logged.stack tf.usb) = req at *
  have hsent := (tfSend_traffic e tf hreq).mono (by decide : 1 ≤ 2)
  have hgot := exchange_traffic e tf (e.logged.stack (tfSend e.logged tf req).tf.usb) hreq
  exact traffic_ite_out (traffic_ite_out (traffic_ite_out hgot hgot) hgot) hsent

theorem getDirents_traffic (tf : TfHandle (σ × List Event)) (result : TfDirEntries) :
    Traffic 2 tf (getDirents e.logged tf result).tf := by
  have hgot := tfGetResponse_traffic e tf (e.logged.stack tf.usb)
  have hdone := hgot.trans (tfSendSuccess_traffic e _)
  replace hgot := hgot.mono (by decide : 1 ≤ 2)
  exact traffic_ite_out (traffic_ite_out hgot (traffic_ite_out hdone hgot)) hgot

theorem tfCmdDirFirst_traffic (tf : TfHandle (σ × List Event)) {path : CString} (result : TfDirEntries)
    (hfits : (Request.dir path).Fits) : Traffic 3 tf (tfCmdDirFirst e.logged tf path result).tf := by
  have hsent := tfSend_traffic e tf (hostPacket_build hfits (e.logged.stack tf.usb))
  exact traffic_ite_out (hsent.trans (getDirents_traffic e _ result)) (hsent.mono (by decide))

theorem tfCmdDirNext_traffic (tf : TfHandle (σ × List Event)) (result : TfDirEntries) :
    Traffic 3 tf (tfCmdDirNext e.logged tf result).tf := by
  have hsent := tfSendSuccess_traffic e tf
  exact traffic_ite_out (hsent.trans (getDirents_traffic e _ result)) (hsent.mono (by decide))

theorem tfCmdPut_traffic (tf : TfHandle (σ × List Event)) {path : CString} (size : UInt64) (stamp : Int)
    {offset : UInt64} (hfits : (Request.filePut path offset).Fits) :
    Traffic 4 tf (tfCmdPut e.logged tf path size stamp offset).tf := by
  have hreq := hostPacket_build hfits (e.logged.stack tf.usb)
  simp only [tfCmdPut]
  generalize (Request.filePut path offset).build (e.logged.stack tf.usb) = req at *
  have hsent := (tfSend_traffic e tf hreq).mono (by decide : 1 ≤ 4)
  have hgot := exchange_traffic e tf (e.logged.stack (tfSend e.logged tf req).tf.usb) hreq
  generalize tfGetResponse e.logged (tfSend e.logged tf req).tf _ = got at *
  generalize putTypefile e.logged path size stamp (e.logged.stack got.tf.usb) = typefile
  have hstart := hostPacket_build (fits_fileStart typefile) req
  have hstarted := (hgot.trans (tfSend_traffic e got.tf hstart)).mono (by decide : 3 ≤ 4)
  have hanswer := hgot.trans (exchange_traffic e got.tf got.out hstart)
  replace hgot := hgot.mono (by decide : 2 ≤ 4)
  exact traffic_ite (traffic_ite (traffic_ite (traffic_ite (traffic_ite hanswer hanswer) hstarted)
    (traffic_ite hgot hgot)) hgot) hsent

theorem tfCmdPutData_traffic (tf : TfHandle (σ × List Event)) {offset : UInt64} {buffer : List UInt8}
    (hfits : (Request.fileData offset buffer).Fits) :
    Traffic 2 tf (tfCmdPutData e.logged tf offset buffer).tf := by
  have hreq := hostPacket_build hfits (e.logged.stack tf.usb)
  simp only [tfCmdPutData]
  generalize (Request.fileData offset buffer).build (e.logged.stack tf.usb) = req at *
  have hsent := tfSend_traffic e tf hreq
  generalize tfSend e.logged tf req = sent at *
  have hgot := tfGetResponse_traffic e { sent.tf with timeout := sent.tf.timeout * 2 } (e.logged.stack sent.tf.usb)
  generalize tfGetResponse e.logged { sent.tf with timeout := sent.tf.timeout * 2 } _ = got at *
  have hboth : Traffic 2 tf { got.tf with timeout := sent.tf.timeout } :=
    (Traffic.trans (hsent.of_eq rfl) hgot).of_eq rfl
  exact traffic_ite (traffic_ite (traffic_ite hboth hboth) hboth) (hsent.mono (by decide))

theorem tfCmdPutDone_traffic (tf : TfHandle (σ × List Event)) : Traffic 4 tf (tfCmdPutDone e.logged tf).tf := by
  have hreq := hostPacket_build (r := .fileEnd) (by decide) (e.logged.stack tf.usb)
  simp only [tfCmdPutDone]
  generalize Request.fileEnd.build (e.logged.stack tf.usb) = req at *
  have hsent := (tfSend_traffic e tf hreq).mono (by decide : 1 ≤ 4)
  have hgot := exchange_traffic e tf (e.logged.stack (tfSend e.logged tf req).tf.usb) hreq
  exact traffic_ite (traffic_ite (hgot.trans (tfCmdCancel_traffic e _)) (hgot.mono (by decide))) hsent

theorem tfCmdGet_traffic (tf : TfHandle (σ × List Event)) {path : CString} {offset : UInt64} (dirent : TfDirent)
    (hfits : (Request.fileGet path offset).Fits) :
    Traffic 2 tf (tfCmdGet e.logged tf path offset dirent).tf := by
  have hreq := hostPacket_build hfits (e.logged.stack tf.usb)
  simp only [tfCmdGet]
  generalize (Request.fileGet path offset).build (e.logged.stack tf.usb) = req at *
  have hsent := (tfSend_traffic e tf hreq).mono (by decide : 1 ≤ 2)
  have hgot := exchange_traffic e tf (e.logged.stack (tfSend e.logged tf req).tf.usb) hreq
  exact traffic_ite_out (traffic_ite_out (traffic_ite_out hgot (traffic_ite_out hgot hgot)) hgot) hsent

theorem getNextReply_traffic (tf : TfHandle (σ × List Event)) (buf : TfBuffer) :
    Traffic 2 tf (getNextReply e.logged tf buf).tf := by
  have hresponse := tfGetResponse_traffic e tf tf.buf
  simp only [getNextReply]
  generalize tfGetResponse e.logged tf tf.buf = got at *
  have hgot : Traffic 1 tf { got.tf with buf := got.out } := hresponse.of_eq rfl
  have hack := hgot.trans (tfSendSuccess_traffic e _)
  replace hgot := hgot.mono (by decide : 1 ≤ 2)
  generalize tfSendSuccess e.logged { got.tf with buf := got.out } = ack at *
  have hremembered : Traffic 2 tf (if ack.ret = 0 then { ack.tf with pending := 1 } else ack.tf) := by
    split_ifs
    · exact hack.of_eq rfl
    · exact hack
  exact traffic_ite_out (traffic_ite_out hack (traffic_ite_out hremembered (traffic_ite_out hgot hgot))) hgot

theorem tfCmdGetNext_traffic (tf : TfHandle (σ × List Event)) (buf : TfBuffer) :
    Traffic 3 tf (tfCmdGetNext e.logged tf buf).tf := by
  have hentry : Traffic 1 tf (if tf.pending = 0 then tfSendSuccess e.logged tf else ⟨0, tf⟩).tf :=
    traffic_ite (tfSendSuccess_traffic e tf) ((Traffic.refl tf).mono (by decide))
  simp only [tfCmdGetNext]
  generalize (if tf.pending = 0 then tfSendSuccess e.logged tf else ⟨0, tf⟩) = entry at *
  replace hentry : Traffic 1 tf { entry.tf with pending := 0 } := hentry.of_eq rfl
  exact Traffic.of_eq (traffic_ite_out (hentry.trans (getNextReply_traffic e _ buf)) (hentry.mono (by decide))) rfl

theorem getCancelRounds_traffic (rounds : Nat) (tf : TfHandle (σ × List Event)) (ret : Int) :
    Traffic (4 * rounds) tf (getCancelRounds e.logged tf ret rounds).tf := by
  induction rounds generalizing tf ret with
  | zero => exact Traffic.refl tf
  | succ rounds ih =>
    have hcancelled := (tfSendFail_traffic e tf tfErrCrc).trans (tfCmdCancel_traffic e _)
    simp only [getCancelRounds]
    generalize tfCmdCancel e.logged (tfSendFail e.logged tf tfErrCrc).tf = cancelled at *
    have hgot := hcancelled.trans (tfGetResponse_traffic e cancelled.tf (e.logged.stack cancelled.tf.usb))
    have hrest := hgot.trans (ih (tfGetResponse e.logged cancelled.tf (e.logged.stack cancelled.tf.usb)).tf
      (tfGetResponse e.logged cancelled.tf (e.logged.stack cancelled.tf.usb)).ret)
    exact traffic_ite (hcancelled.mono (by omega)) (traffic_ite (hgot.mono (by omega)) (hrest.mono (by omega)))

theorem tfCmdGetCancel_traffic (tf : TfHandle (σ × List Event)) : Traffic 21 tf (tfCmdGetCancel e.logged tf).tf := by
  simp only [tfCmdGetCancel]
  split_ifs
  · have hgot := tfGetResponse_traffic e { tf with pending := 0 } (e.logged.stack tf.usb)
    exact Traffic.trans (n := 1) (hgot.of_eq rfl) (getCancelRounds_traffic e 5 _ 0)
  · exact (getCancelRounds_traffic e 5 tf 0).mono (by decide)

theorem PublicCall.run_traffic (tf : TfHandle (σ × List Event)) {c : PublicCall} (hfits : c.Fits) :
    Traffic c.transfersAtMost tf (c.run e.logged tf).tf := by
  cases c with
  | init => exact tfInit_traffic e tf
  | size result => exact tfCmdSize_traffic e tf result
  | cancel => exact tfCmdCancel_traffic e tf
  | ready => exact tfCmdReady_traffic e tf
  | reset => exact tfCmd_traffic e tf (hostPacket_build (r := .reset) (by decide) _)
  | turbo on => exact tfCmd_traffic e tf (hostPacket_build (r := .turbo on) (fits_put32 _) _)
  | delete path => exact tfCmd_traffic e tf (hostPacket_build (hfits (.delete path) rfl) _)
  | rename src dest => exact tfCmd_traffic e tf (hostPacket_build (hfits (.rename src dest) rfl) _)
  | mkdir path => exact tfCmd_traffic e tf (hostPacket_build (hfits (.mkdir path) rfl) _)
  | dirFirst path result => exact tfCmdDirFirst_traffic e tf result (hfits (.dir path) rfl)
  | dirNext result => exact tfCmdDirNext_traffic e tf result
  | dirCancel => exact tfCmdCancel_traffic e tf
  | get path offset dirent => exact tfCmdGet_traffic e tf dirent (hfits (.fileGet path offset) rfl)
  | getNext buf => exact tfCmdGetNext_traffic e tf buf
  | getCancel => exact tfCmdGetCancel_traffic e tf
  | put path size stamp offset => exact tfCmdPut_traffic e tf size stamp (hfits (.filePut path offset) rfl)
  | putData offset buffer => exact tfCmdPutData_traffic e tf (hfits (.fileData offset buffer) rfl)
  | putDone => exact tfCmdPutDone_traffic e tf
  | putCancel => exact (tfCmdCancel_traffic e tf).trans (tfCmdCancel_traffic e _)
  | sendSuccess => exact tfSendSuccess_traffic e tf
  | sendFail reason => exact tfSendFail_traffic e tf reason

theorem PublicCall.transfersAtMost_le (c : PublicCall) : c.transfersAtMost ≤ 21 := by
  unfold transfersAtMost
  split <;> decide

/-! ### Whole runs -/

theorem run_traffic {client : Client PublicCall Observed} (hclient : ∀ seen c, client seen = some c → c.Fits)
    (calls : Nat) (seen : List Observed) (tf : TfHandle (σ × List Event)) :
    Traffic (21 * calls) tf (client.run (PublicCall.observe e.logged) calls seen tf).2 := by
  induction calls generalizing seen tf with
  | zero => exact Traffic.refl tf
  | succ calls ih =>
    simp only [Client.run]
    cases hnext : client seen with
    | none => exact (Traffic.refl tf).mono (Nat.zero_le _)
    | some c =>
      have hcall := (c.run_traffic e tf (hclient seen c hnext)).mono c.transfersAtMost_le
      exact (hcall.trans (ih _ _)).mono (by omega)

end Calls

/-- **Traffic.** Whatever the device does, `n` calls of a client whose arguments fit into packets make at most `21 * n`
transfers, and all they write are whole packets of a host. -/
theorem client_traffic {σ : Type} (e : Env σ) (tf : TfHandle σ) (client : Client PublicCall Observed) (n : Nat)
    (hclient : ∀ seen c, client seen = some c → c.Fits) :
    let run := client.run (PublicCall.observe e.logged) n [] tf.logging
    run.2.usb.2.length ≤ 21 * n ∧ ∀ bytes ∈ transfers run.2.usb.2, HostPacket bytes := by
  intro run
  obtain ⟨new, hnew, hfew, horderly⟩ := run_traffic e hclient n [] tf.logging
  have hlog : run.2.usb.2 = new := hnew
  rw [hlog]
  refine ⟨hfew, fun bytes hbytes => ?_⟩
  obtain ⟨ev, hev, hwritten⟩ := List.mem_filterMap.mp hbytes
  exact horderly ev hev bytes hwritten

/-- A client that makes a directory, and puts a block into a file as long as that works. -/
theorem client_traffic_put :
    let path : CString := ⟨[0x2F, 0x61], by decide⟩
    let client : Client PublicCall Observed := fun seen =>
      if seen = [] then some (.mkdir path)
      else if (seen.map Observed.ret).getLast? = some 0 then some (.putData 0 [1, 2, 3]) else none
    let e := (accepting fun _ _ => 0xAA).env (Host.blank Nat)
    let run := client.run (PublicCall.observe e.logged) 5 [] (TfHandle.opened 0 fun _ => 0).logging
    run.2.usb.2.length ≤ 21 * 5 ∧ ∀ bytes ∈ transfers run.2.usb.2, HostPacket bytes :=
  client_traffic _ _ _ 5 fun seen c hc r hr => by
    split_ifs at hc
    all_goals
      obtain rfl := Option.some.inj hc
      obtain rfl := Option.some.inj hr
      decide

end Topfield
