import Topfield.Frame
import Topfield.Lib.Reach
import Topfield.Peer

/-!
# Gets in a sequence of calls

`pending` says that the last data packet was acknowledged ahead, so that the next `tf_cmd_get_next` does
not acknowledge again. Only `tf_cmd_get_next` and `tf_cmd_get_cancel` clear it: a get that is ended by
`tf_cmd_cancel` or `tf_init` can leave it to the next one, which then does not acknowledge its FILE_START.
-/

namespace Topfield

open Lib

variable {σ : Type}

/-- A call of the interface with its arguments. -/
inductive PublicCall
  | init
  | size (result : TfSizeResult)
  | cancel
  | ready
  | reset
  | turbo (on : Int)
  | delete (path : CString)
  | rename (src dest : CString)
  | mkdir (path : CString)
  | dirFirst (path : CString) (result : TfDirEntries)
  | dirNext (result : TfDirEntries)
  | dirCancel
  | get (path : CString) (offset : UInt64) (dirent : TfDirent)
  | getNext (buf : TfBuffer)
  | getCancel
  | put (path : CString) (size : UInt64) (stamp : Int) (offset : UInt64)
  | putData (offset : UInt64) (buffer : List UInt8)
  | putDone
  | putCancel
  | sendSuccess
  | sendFail (reason : Int)

def PublicCall.run (e : Env σ) (tf : TfHandle σ) : PublicCall → Call σ
  | .init => tfInit e tf
  | .size result => (tfCmdSize e tf result).toCall
  | .cancel => tfCmdCancel e tf
  | .ready => tfCmdReady e tf
  | .reset => tfCmdReset e tf
  | .turbo on => tfCmdTurbo e tf on
  | .delete path => tfCmdDelete e tf path
  | .rename src dest => tfCmdRename e tf src dest
  | .mkdir path => tfCmdMkdir e tf path
  | .dirFirst path result => (tfCmdDirFirst e tf path result).toCall
  | .dirNext result => (tfCmdDirNext e tf result).toCall
  | .dirCancel => tfCmdDirCancel e tf
  | .get path offset dirent => (tfCmdGet e tf path offset dirent).toCall
  | .getNext buf => (tfCmdGetNext e tf buf).toCall
  | .getCancel => tfCmdGetCancel e tf
  | .put path len stamp offset => tfCmdPut e tf path len stamp offset
  | .putData offset buffer => tfCmdPutData e tf offset buffer
  | .putDone => tfCmdPutDone e tf
  | .putCancel => tfCmdPutCancel e tf
  | .sendSuccess => tfSendSuccess e tf
  | .sendFail reason => tfSendFail e tf reason

/-- No get is open, or one was started, or one was started and then asked for data. -/
inductive GetPhase
  | closed
  | started
  | running
deriving DecidableEq

/-- The handle, the get it is used for, and whether the response to an acknowledgement sent ahead is left
over: no `tf_cmd_get_next` of the get it belongs to will read it. -/
structure Session (σ : Type) where
  tf : TfHandle (σ × List Event)
  phase : GetPhase
  leftover : Bool

namespace Session

/-- The session once a call has returned. A get ends with TF_ERR_DONE from `tf_cmd_get_next`, with
`tf_cmd_get_cancel`, or with `tf_cmd_cancel` or `tf_init` returning 0. -/
def after (s : Session σ) (call : Call (σ × List Event)) : PublicCall → Session σ
  | .get _ _ _ => ⟨call.tf, if call.ret = 0 then .started else s.phase, s.leftover⟩
  | .getNext _ =>
    if s.phase = .closed then ⟨call.tf, .closed, call.tf.pending ≠ 0⟩
    else ⟨call.tf, if call.ret = tfErrDone then .closed else .running, false⟩
  | .getCancel => ⟨call.tf, .closed, false⟩
  | .cancel | .init =>
    if s.phase ≠ .closed ∧ call.ret = 0 then ⟨call.tf, .closed, s.tf.pending ≠ 0⟩
    else ⟨call.tf, s.phase, s.leftover⟩
  | _ => ⟨call.tf, s.phase, s.leftover⟩

def step (e : Env σ) (s : Session σ) (c : PublicCall) : Session σ := s.after (c.run e.logged s.tf) c

/-- No get is started before the last one has ended. -/
def InTurn (e : Env σ) (s : Session σ) : PublicCall → Prop
  | .get path offset dirent =>
    (tfCmdGet e.logged s.tf path offset dirent).ret = 0 → s.phase = .closed
  | _ => True

def fresh (tf : TfHandle σ) : Session σ := ⟨tf.logging, .closed, false⟩

/-- An open get has a device, and outside of one that has been asked for data the flag is set exactly if a
response is left over. -/
structure Inv (s : Session σ) : Prop where
  dev : s.phase ≠ .closed → s.tf.dev = true
  pending : s.phase ≠ .running → (s.tf.pending = 0 ↔ s.leftover = false)

end Session

/-- The transfers of `tf_cmd_get_next` start with its SUCCESS, and end there if that is not delivered. -/
def AcknowledgesFirst (e : Env σ) (tf : TfHandle (σ × List Event)) (buf : TfBuffer) : Prop :=
  ∃ ret rest, (tfCmdGetNext e.logged tf buf).tf.usb.2 = tf.usb.2 ++ .wrote successPacket ret :: rest ∧
    (ret ≠ 8 → rest = [])

/-! ### The calls that touch the flag -/

theorem getNextReply_dev (e : Env σ) (tf : TfHandle σ) (buf : TfBuffer) :
    (getNextReply e tf buf).tf.dev = tf.dev := by
  have hgot := (tfGetResponse_frame e tf tf.buf).dev
  simp only [getNextReply]
  generalize tfGetResponse e tf tf.buf = got at *
  have hack := (tfSendSuccess_frame e { got.tf with buf := got.out }).dev
  generalize tfSendSuccess e { got.tf with buf := got.out } = ack at *
  split_ifs <;> first | exact hgot | exact hack.trans hgot

/-- Only a data packet that was acknowledged sets the flag. -/
theorem getNextReply_pending (e : Env σ) {tf : TfHandle σ} (buf : TfBuffer) (hpending : tf.pending = 0)
    (hret : (getNextReply e tf buf).ret ≠ 0) : (getNextReply e tf buf).tf.pending = 0 := by
  have hgot := (tfGetResponse_frame e tf tf.buf).pending.trans hpending
  simp only [getNextReply] at hret ⊢
  generalize tfGetResponse e tf tf.buf = got at *
  have hack := (tfSendSuccess_frame e { got.tf with buf := got.out }).pending
  generalize tfSendSuccess e { got.tf with buf := got.out } = ack at *
  by_cases hok : got.ret = 0
  · rw [if_pos hok] at hret ⊢
    by_cases hend : packetCmd got.out = tfMsgHddFileEnd
    · rw [if_pos hend]
      exact hack.trans hgot
    · rw [if_neg hend] at hret ⊢
      by_cases hdata : packetCmd got.out = tfMsgHddFileData
      · rw [if_pos hdata] at hret
        exact absurd rfl hret
      · rw [if_neg hdata]
        split_ifs <;> exact hgot
  · rw [if_neg hok]
    exact hgot

theorem tfCmdGetNext_dev (e : Env σ) (tf : TfHandle σ) (buf : TfBuffer) :
    (tfCmdGetNext e tf buf).tf.dev = tf.dev := by
  have hentry : (if tf.pending = 0 then tfSendSuccess e tf else ⟨0, tf⟩).tf.dev = tf.dev := by
    split_ifs
    · exact (tfSendSuccess_frame e tf).dev
    · rfl
  simp only [tfCmdGetNext]
  generalize (if tf.pending = 0 then tfSendSuccess e tf else ⟨0, tf⟩) = entry at *
  split_ifs
  · exact (getNextReply_dev e _ buf).trans hentry
  · exact hentry

theorem tfCmdGetNext_pending (e : Env σ) (tf : TfHandle σ) (buf : TfBuffer)
    (hret : (tfCmdGetNext e tf buf).ret ≠ 0) : (tfCmdGetNext e tf buf).tf.pending = 0 := by
  simp only [tfCmdGetNext] at hret ⊢
  generalize (if tf.pending = 0 then tfSendSuccess e tf else ⟨0, tf⟩) = entry at *
  by_cases hok : entry.ret = 0
  · rw [if_pos hok] at hret ⊢
    exact getNextReply_pending e buf rfl hret
  · rw [if_neg hok]

theorem getCancelRounds_frame (e : Env σ) (n : Nat) {tf tf' : TfHandle σ} (h : Frame tf tf') (ret : Int) :
    Frame tf (getCancelRounds e tf' ret n).tf := by
  induction n generalizing tf' ret with
  | zero => exact h
  | succ n ih =>
    have hfailed := h.trans (tfSendFail_frame e tf' tfErrCrc)
    have hcancelled := hfailed.trans (tfCmdCancel_frame e _)
    simp only [getCancelRounds]
    generalize tfCmdCancel e (tfSendFail e tf' tfErrCrc).tf = cancelled at *
    have hgot := hcancelled.trans (tfGetResponse_frame e cancelled.tf (e.stack cancelled.tf.usb))
    exact frame_ite hcancelled (frame_ite hgot (ih hgot _))

theorem tfCmdGetCancel_frame (e : Env σ) (tf : TfHandle σ) :
    Frame { tf with pending := 0 } (tfCmdGetCancel e tf).tf := by
  apply getCancelRounds_frame
  split_ifs with hpending
  · exact tfGetResponse_frame e _ _
  · rw [not_not] at hpending
    exact ⟨rfl, rfl, rfl, hpending, rfl⟩

/-- All other calls leave the flag alone. -/
theorem PublicCall.run_frame (e : Env σ) (tf : TfHandle σ) {c : PublicCall}
    (hnext : ∀ buf, c ≠ .getNext buf) (hcancel : c ≠ .getCancel) : Frame tf (c.run e tf).tf := by
  cases c with
  | init => exact tfInit_frame e tf
  | size result => exact tfCmdSize_frame e tf result
  | cancel | ready | reset | turbo | delete | rename | mkdir => exact tfCmd_frame e tf _
  | dirFirst path result => exact tfCmdDirFirst_frame e tf path result
  | dirNext result => exact tfCmdDirNext_frame e tf result
  | dirCancel => exact tfCmdDirCancel_frame e tf
  | get path offset dirent => exact tfCmdGet_frame e tf path offset dirent
  | getNext buf => exact absurd rfl (hnext buf)
  | getCancel => exact absurd rfl hcancel
  | put path size stamp offset => exact tfCmdPut_frame e tf path size stamp offset
  | putData offset buffer => exact tfCmdPutData_frame e tf offset buffer
  | putDone => exact tfCmdPutDone_frame e tf
  | putCancel => exact tfCmdPutCancel_frame e tf
  | sendSuccess => exact tfSendSuccess_frame e tf
  | sendFail reason => exact tfSendFail_frame e tf reason

/-- A get is not started without a device. -/
theorem tfCmdGet_dev (e : Env σ) (tf : TfHandle σ) (path : CString) (offset : UInt64) (dirent : TfDirent)
    (hret : (tfCmdGet e tf path offset dirent).ret = 0) : tf.dev = true := by
  by_contra hdev
  rw [Bool.not_eq_true] at hdev
  rw [tfCmdGet, tfSend_noconn e _ hdev] at hret
  exact absurd hret tfErrNoconn_neg.ne

/-! ### One call of a session -/

namespace Session

theorem Inv.fresh {tf : TfHandle σ} (hpending : tf.pending = 0) : (fresh tf).Inv :=
  ⟨fun hopen => absurd rfl hopen, fun _ => iff_of_true hpending rfl⟩

theorem Inv.keep {s : Session σ} (h : s.Inv) {tf' : TfHandle (σ × List Event)} (hframe : Frame s.tf tf') :
    Inv ⟨tf', s.phase, s.leftover⟩ :=
  ⟨fun hopen => hframe.dev.trans (h.dev hopen), fun hphase => by rw [hframe.pending, h.pending hphase]⟩

theorem Inv.close {tf : TfHandle (σ × List Event)} {leftover : Bool}
    (hpending : tf.pending = 0 ↔ leftover = false) : Inv ⟨tf, .closed, leftover⟩ :=
  ⟨fun hopen => absurd rfl hopen, fun _ => hpending⟩

theorem Inv.get {s : Session σ} (h : s.Inv) {call : Call (σ × List Event)} (path : CString)
    (offset : UInt64) (dirent : TfDirent) (hframe : Frame s.tf call.tf)
    (hdev : call.ret = 0 → s.tf.dev = true) (hturn : call.ret = 0 → s.phase = .closed) :
    (s.after call (.get path offset dirent)).Inv := by
  show Inv ⟨call.tf, if call.ret = 0 then .started else s.phase, s.leftover⟩
  by_cases hret : call.ret = 0
  · have hphase : s.phase ≠ .running := by
      rw [hturn hret]
      decide
    rw [if_pos hret]
    exact ⟨fun _ => hframe.dev.trans (hdev hret), fun _ => by rw [hframe.pending, h.pending hphase]⟩
  · rw [if_neg hret]
    exact h.keep hframe

theorem Inv.getNext {s : Session σ} (h : s.Inv) {call : Call (σ × List Event)} (buf : TfBuffer)
    (hdev : call.tf.dev = s.tf.dev) (hpending : call.ret ≠ 0 → call.tf.pending = 0) :
    (s.after call (.getNext buf)).Inv := by
  simp only [after]
  by_cases hphase : s.phase = .closed
  · rw [if_pos hphase]
    exact .close (by simp)
  · rw [if_neg hphase]
    by_cases hdone : call.ret = tfErrDone
    · rw [if_pos hdone]
      exact .close (iff_of_true (hpending (by rw [hdone]; decide)) rfl)
    · rw [if_neg hdone]
      exact ⟨fun _ => hdev.trans (h.dev hphase), fun hrunning => absurd rfl hrunning⟩

theorem Inv.getCancel (e : Env σ) (s : Session σ) : (s.step e .getCancel).Inv :=
  .close (iff_of_true (tfCmdGetCancel_frame e.logged s.tf).pending rfl)

theorem Inv.cancelled {s : Session σ} (h : s.Inv) {call : Call (σ × List Event)}
    (hframe : Frame s.tf call.tf) :
    (if s.phase ≠ .closed ∧ call.ret = 0 then ⟨call.tf, .closed, s.tf.pending ≠ 0⟩
      else ⟨call.tf, s.phase, s.leftover⟩ : Session σ).Inv := by
  split_ifs with hended
  · refine .close ?_
    rw [hframe.pending]
    simp
  · exact h.keep hframe

theorem inv_step {e : Env σ} {s : Session σ} (h : s.Inv) {c : PublicCall} (hturn : s.InTurn e c) :
    (s.step e c).Inv := by
  cases c with
  | get path offset dirent =>
    exact h.get path offset dirent (tfCmdGet_frame e.logged s.tf path offset dirent)
      (tfCmdGet_dev e.logged s.tf path offset dirent) hturn
  | getNext buf =>
    exact h.getNext buf (tfCmdGetNext_dev e.logged s.tf buf) (tfCmdGetNext_pending e.logged s.tf buf)
  | getCancel => exact .getCancel e s
  | cancel => exact h.cancelled (tfCmdCancel_frame e.logged s.tf)
  | init => exact h.cancelled (tfInit_frame e.logged s.tf)
  | _ => exact h.keep (PublicCall.run_frame e.logged s.tf (by simp) (by simp))

theorem inv_reach {e : Env σ} {tf : TfHandle σ} {s : Session σ} (hpending : tf.pending = 0)
    (h : Reach (step e) (InTurn e) (fresh tf) s) : s.Inv :=
  h.invariant (.fresh hpending) fun _ _ hinv hturn => inv_step hinv hturn

end Session

/-! ### The first call of a get -/

theorem getNextReply_log (e : Env σ) (tf : TfHandle (σ × List Event)) (buf : TfBuffer)
    (hdev : tf.dev = true) :
    ∃ ret content, tf.usb.2 ++ [.read ret content] <+: (getNextReply e.logged tf buf).tf.usb.2 := by
  have hgot : ∃ ret content,
      (tfGetResponse e.logged tf tf.buf).tf.usb.2 = tf.usb.2 ++ [.read ret content] := by
    rw [tfGetResponse_logged e tf.buf hdev rfl]
    exact ⟨_, _, rfl⟩
  obtain ⟨ret, content, hgot⟩ := hgot
  refine ⟨ret, content, hgot ▸ ?_⟩
  simp only [getNextReply]
  generalize tfGetResponse e.logged tf tf.buf = got
  have hack := tfSend_log e { got.tf with buf := got.out } (Mem.ofList successPacket)
  rw [← tfSendSuccess] at hack
  generalize tfSendSuccess e.logged { got.tf with buf := got.out } = ack at *
  split_ifs <;> first | exact List.prefix_rfl | exact hack

theorem acknowledgesFirst_iff (e : Env σ) {tf : TfHandle (σ × List Event)} (buf : TfBuffer)
    (hdev : tf.dev = true) : AcknowledgesFirst e tf buf ↔ tf.pending = 0 := by
  constructor
  · rintro ⟨ret, rest, hlog, -⟩
    by_contra hpending
    simp only [tfCmdGetNext, if_neg hpending, if_true] at hlog
    obtain ⟨ret', content, hread⟩ := getNextReply_log e { tf with pending := 0 } buf hdev
    rw [hlog] at hread
    have hcons := (List.prefix_append_right_inj _).mp hread
    simp at hcons
  · intro hpending
    obtain ⟨n, s, hsent⟩ := tfSendSuccess_logged e hdev
    simp only [AcknowledgesFirst, tfCmdGetNext, if_pos hpending]
    rw [hsent]
    by_cases hn : n = 8
    · simp only [if_pos hn, if_true]
      obtain ⟨ret, content, rest, hread⟩ := getNextReply_log e
        { tf with error := tfErrNone, pending := 0, usb := (s, tf.usb.2 ++ [.wrote successPacket n]) }
        buf hdev
      refine ⟨n, .read ret content :: rest, ?_, fun hne => absurd hn hne⟩
      rw [← hread, List.append_assoc, List.append_assoc]
      rfl
    · rw [if_neg hn, if_neg tfErrIo_neg.ne]
      exact ⟨n, [], rfl, fun _ => rfl⟩

/-- **Ending a get.** When a get returns 0, and at the first `tf_cmd_get_next` after that, the flag is clear
and the FILE_START is acknowledged, exactly if no response is left over. -/
theorem get_acknowledged_iff (e : Env σ) (tf : TfHandle σ) (hpending : tf.pending = 0) (s : Session σ)
    (h : Reach (Session.step e) (Session.InTurn e) (.fresh tf) s) :
    (∀ path offset dirent, s.phase = .closed → (tfCmdGet e.logged s.tf path offset dirent).ret = 0 →
        ((tfCmdGet e.logged s.tf path offset dirent).tf.pending = 0 ↔ s.leftover = false)) ∧
      (s.phase = .started → ∀ buf, AcknowledgesFirst e s.tf buf ↔ s.leftover = false) := by
  have hinv := Session.inv_reach hpending h
  constructor
  · intro path offset dirent hphase _
    rw [(tfCmdGet_frame e.logged s.tf path offset dirent).pending]
    exact hinv.pending (by rw [hphase]; decide)
  · intro hphase buf
    rw [acknowledgesFirst_iff e buf (hinv.dev (by rw [hphase]; decide))]
    exact hinv.pending (by rw [hphase]; decide)

theorem get_acknowledged_iff_started :
    let e := (source (fun _ => true) (fun _ => false) fun _ _ => 0).env (Host.blank Source)
    let tf := TfHandle.opened (⟨[.header tfMsgHddFileStart], 0, 0⟩ : Source) fun _ => 0
    let s := (Session.fresh tf).step e (.get ⟨[0x2F, 0x61], by decide⟩ 0 ⟨0, 0x66, 0, [], 0, []⟩)
    (∀ path offset dirent, s.phase = .closed → (tfCmdGet e.logged s.tf path offset dirent).ret = 0 →
        ((tfCmdGet e.logged s.tf path offset dirent).tf.pending = 0 ↔ s.leftover = false)) ∧
      (s.phase = .started → ∀ buf, AcknowledgesFirst e s.tf buf ↔ s.leftover = false) :=
  get_acknowledged_iff _ _ rfl _ (.next _ .start fun _ => rfl)

/-! ### A get ended by tf_cmd_cancel -/

variable {stale : Source → Mem} {host : Host Source} {tf : TfHandle (Source × List Event)}
  {packet : Packet} {rest : List Packet}

theorem tfCmdGet_scripted (stale : Source → Mem) (host : Host Source) (path : CString) (offset : UInt64)
    (dirent : TfDirent) (hdev : tf.dev = true) (hqueue : tf.usb.1.queue = packet :: rest)
    (hcmd : packet.cmd = tfMsgHddFileStart) :
    let call := tfCmdGet ((scripted stale).env host).logged tf path offset dirent
    call.ret = 0 ∧ call.tf.usb.1.queue = rest := by
  simp only [tfCmdGet]
  generalize (Request.fileGet path offset).build (((scripted stale).env host).logged.stack tf.usb) = req
  obtain ⟨hsent, hgot, hreceived, -, hrest⟩ := exchange_scripted stale host req
    (((scripted stale).env host).logged.stack (tfSend ((scripted stale).env host).logged tf req).tf.usb)
    hdev hqueue
  rw [if_pos hsent, if_pos hgot, if_pos (hreceived.cmd.trans hcmd)]
  exact ⟨hgot, hrest⟩

theorem tfCmdCancel_scripted (stale : Source → Mem) (host : Host Source) (hdev : tf.dev = true)
    (hqueue : tf.usb.1.queue = packet :: rest) (hcmd : packet.cmd = tfMsgSuccess) :
    let call := tfCmdCancel ((scripted stale).env host).logged tf
    call.ret = 0 ∧ call.tf.usb.1.queue = rest := by
  intro call
  obtain ⟨hsent, hgot, hreceived, -, hrest⟩ := exchange_scripted stale host
    (Request.cancel.build (((scripted stale).env host).logged.stack tf.usb)) _ hdev hqueue
  have hcall := tfCmd_of_success rfl hsent rfl hgot (hreceived.cmd.trans hcmd)
  rw [show call = _ from hcall]
  exact ⟨hgot, hrest⟩

theorem getNextReply_scripted (stale : Source → Mem) (host : Host Source) (buf : TfBuffer)
    (hdev : tf.dev = true) (hqueue : tf.usb.1.queue = packet :: rest) (hcredit : 0 < tf.usb.1.credit)
    (hcmd : packet.cmd = tfMsgHddFileData) :
    let next := getNextReply ((scripted stale).env host).logged tf buf
    next.ret = 0 ∧ next.tf.pending = 1 ∧ next.tf.usb.1.queue = rest := by
  obtain ⟨hgot, hreceived, hdev', hrest⟩ :=
    tfGetResponse_scripted stale host tf.buf hdev hqueue hcredit
  simp only [getNextReply]
  generalize tfGetResponse ((scripted stale).env host).logged tf tf.buf = got at *
  obtain ⟨hack, -, hrest', -⟩ := tfSend_scripted stale host
    (Mem.ofList successPacket)
    (show ({ got.tf with buf := got.out } : TfHandle (Source × List Event)).dev = true from hdev') hrest
  rw [← tfSendSuccess] at hack hrest'
  have hend : packetCmd got.out ≠ tfMsgHddFileEnd := by
    rw [hreceived.cmd, hcmd]
    decide
  rw [if_pos hgot, if_neg hend, if_pos (hreceived.cmd.trans hcmd), if_pos hack]
  exact ⟨rfl, rfl, hrest'⟩

/-- A data packet is acknowledged ahead. -/
theorem tfCmdGetNext_scripted (stale : Source → Mem) (host : Host Source) (buf : TfBuffer)
    (hdev : tf.dev = true) (hpending : tf.pending = 0)
    (hqueue : tf.usb.1.queue = packet :: rest) (hcmd : packet.cmd = tfMsgHddFileData) :
    let next := tfCmdGetNext ((scripted stale).env host).logged tf buf
    next.ret = 0 ∧ next.tf.pending = 1 ∧ next.tf.usb.1.queue = rest := by
  obtain ⟨hentry, hdev', hqueue', hcredit⟩ :=
    tfSend_scripted stale host (Mem.ofList successPacket) hdev hqueue
  rw [← tfSendSuccess] at hentry hdev' hqueue' hcredit
  simp only [tfCmdGetNext, if_pos hpending]
  generalize tfSendSuccess ((scripted stale).env host).logged tf = entry at *
  rw [if_pos hentry]
  exact getNextReply_scripted stale host buf hdev' hqueue' hcredit hcmd

def fileStartPacket : Packet := ⟨tfMsgHddFileStart, List.replicate 114 0, Nat.le_of_ble_eq_true rfl⟩

/-- A FILE_DATA with one byte. -/
def fileDataPacket : Packet := ⟨tfMsgHddFileData, List.replicate 9 0, Nat.le_of_ble_eq_true rfl⟩

/-- A session with the script that is still to come. -/
structure Scripted (phase : GetPhase) (pending : Int) (rest : List Packet) (s : Session Source) : Prop where
  phase : s.phase = phase
  dev : s.tf.dev = true
  pending : s.tf.pending = pending
  queue : s.tf.usb.1.queue = rest

theorem Scripted.get {pending : Int} {s : Session Source} (path : CString) (offset : UInt64)
    (dirent : TfDirent) (h : Scripted .closed pending (fileStartPacket :: rest) s) :
    Scripted .started pending rest (s.step ((scripted stale).env host) (.get path offset dirent)) := by
  obtain ⟨hret, hqueue⟩ :=
    tfCmdGet_scripted stale host path offset dirent h.dev h.queue rfl
  have hframe := tfCmdGet_frame ((scripted stale).env host).logged s.tf path offset dirent
  exact ⟨if_pos hret, hframe.dev.trans h.dev, hframe.pending.trans h.pending, hqueue⟩

theorem Scripted.getNext {s : Session Source} (buf : TfBuffer)
    (h : Scripted .started 0 (fileDataPacket :: rest) s) :
    Scripted .running 1 rest (s.step ((scripted stale).env host) (.getNext buf)) := by
  obtain ⟨hret, hpending, hqueue⟩ :=
    tfCmdGetNext_scripted stale host buf h.dev h.pending h.queue rfl
  have hdev := tfCmdGetNext_dev ((scripted stale).env host).logged s.tf buf
  have hopen : s.phase ≠ .closed := by
    rw [h.phase]
    decide
  have hmore : (tfCmdGetNext ((scripted stale).env host).logged s.tf buf).ret ≠ tfErrDone := by
    rw [hret]
    decide
  have hstep : s.step ((scripted stale).env host) (.getNext buf) =
      ⟨(tfCmdGetNext ((scripted stale).env host).logged s.tf buf).tf, .running, false⟩ :=
    (if_neg hopen).trans (congrArg (Session.mk _ · false) (if_neg hmore))
  rw [hstep]
  exact ⟨rfl, hdev.trans h.dev, hpending, hqueue⟩

theorem Scripted.cancel {pending : Int} {s : Session Source}
    (h : Scripted .running pending (.header tfMsgSuccess :: rest) s) :
    Scripted .closed pending rest (s.step ((scripted stale).env host) .cancel) := by
  obtain ⟨hret, hqueue⟩ := tfCmdCancel_scripted stale host h.dev h.queue rfl
  have hframe := tfCmdCancel_frame ((scripted stale).env host).logged s.tf
  have hopen : s.phase ≠ .closed := by
    rw [h.phase]
    decide
  have hstep : s.step ((scripted stale).env host) .cancel =
      ⟨(tfCmdCancel ((scripted stale).env host).logged s.tf).tf, .closed, s.tf.pending ≠ 0⟩ :=
    if_pos ⟨hopen, hret⟩
  rw [hstep]
  exact ⟨rfl, hframe.dev.trans h.dev, hframe.pending.trans h.pending, hqueue⟩

/-- The device starts a file, sends one piece of it, answers the CANCEL and starts a file again: the second
get begins with the flag of the first. -/
theorem not_get_acknowledged :
    let e := (scripted fun _ _ => 0).env (Host.blank Source)
    let script := [fileStartPacket, fileDataPacket, .header tfMsgSuccess, fileStartPacket]
    let tf := TfHandle.opened (⟨script, 0, 0⟩ : Source) fun _ => 0
    ¬ ∀ s, Reach (Session.step e) (Session.InTurn e) (.fresh tf) s →
      ∀ path offset dirent, s.phase = .closed → (tfCmdGet e.logged s.tf path offset dirent).ret = 0 →
        (tfCmdGet e.logged s.tf path offset dirent).tf.pending = 0 := by
  intro e script tf h
  let path : CString := ⟨[0x2F, 0x61], by decide⟩
  let dirent : TfDirent := ⟨0, 0x66, 0, [], 0, []⟩
  let get : PublicCall := .get path 0 dirent
  let getNext : PublicCall := .getNext ⟨0, 0, 0⟩
  have hfresh : Scripted .closed 0 script (.fresh tf) := ⟨rfl, rfl, rfl, rfl⟩
  have hended : Scripted .closed 1 [fileStartPacket]
      ((((Session.fresh tf).step e get).step e getNext).step e .cancel) :=
    ((hfresh.get path 0 dirent).getNext ⟨0, 0, 0⟩).cancel
  have hreach : Reach (Session.step e) (Session.InTurn e) (.fresh tf) _ :=
    .next PublicCall.cancel (.next getNext (.next get .start fun _ => rfl) trivial) trivial
  obtain ⟨hget, -⟩ :=
    tfCmdGet_scripted (fun _ _ => 0) (Host.blank Source) path 0 dirent hended.dev hended.queue rfl
  have hzero := h _ hreach path 0 dirent hended.phase hget
  rw [(tfCmdGet_frame e.logged _ path 0 dirent).pending, hended.pending] at hzero
  exact absurd hzero (by decide)

end Topfield
