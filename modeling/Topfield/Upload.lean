import Mathlib.Data.List.Forall2
import Topfield.Download
import Topfield.TransferSize

/-!
# Uploading a file

A device that answers every transfer with SUCCESS, and what it has received after an upload: the packets
of the upload in order, whose FILE_DATA the download's own decoder reads back.
-/

namespace Topfield

open Lib

/-- A device with a number of transfers to answer, all of them with SUCCESS. -/
def accepting (stale : Nat → Mem) : Peer Nat where
  receive owed bytes := (bytes.length, owed + 1)
  reply
    | 0 => (none, 0)
    | owed + 1 => (some (.header tfMsgSuccess), owed)
  stale := stale

def decode (nocrc : Int) (bytes : List UInt8) : Int × Mem :=
  checkResponse nocrc bytes.length (Mem.ofList bytes)

/-- The piece of a file that `tf_cmd_get_next` finds in a packet, if it is FILE_DATA. -/
def fileDataOf (reply : Mem) : Option (UInt64 × Nat × List UInt8) :=
  if packetCmd reply = tfMsgHddFileData then
    some ((dataChunk reply).offset, (dataChunk reply).size,
      reply.load (dataChunk reply).data (dataChunk reply).size)
  else none

def putBlocks {σ : Type} (e : Env σ) : List (UInt64 × List UInt8) → TfHandle σ → List Int × TfHandle σ
  | [], tf => ([], tf)
  | block :: rest, tf =>
    let put := tfCmdPutData e tf block.1 block.2
    let rest := putBlocks e rest put.tf
    (put.ret :: rest.1, rest.2)

def upload {σ : Type} (e : Env σ) (tf : TfHandle σ) (path : CString) (size : UInt64) (stamp : Int)
    (offset : UInt64) (blocks : List (UInt64 × List UInt8)) : List Int × TfHandle σ :=
  let put := tfCmdPut e tf path size stamp offset
  let data := putBlocks e blocks put.tf
  let done := tfCmdPutDone e data.2
  (put.ret :: data.1 ++ [done.ret], done.tf)

/-- The transfer decodes to the request. -/
def Carries (bytes : List UInt8) (r : Request) : Prop :=
  r.Fits ∧
    ∀ nocrc, (decode nocrc bytes).1 = tfErrNone ∧ Received (decode nocrc bytes).2 r.cmd r.payload

/-- `requests` were transferred, and `owed` of them are still to be answered. -/
structure Uploaded (owed : Nat) (requests : List Request) (tf : TfHandle (Nat × List Event)) : Prop where
  dev : tf.dev = true
  owed : tf.usb.1 = owed
  transfers : List.Forall₂ Carries (transfers tf.usb.2) requests

variable {tf : TfHandle (Nat × List Event)} {requests : List Request} {owed : Nat}

theorem carries_build {r : Request} (hfits : r.Fits) (req : Mem) :
    Carries (tfSendBytes (r.build req)) r := by
  refine ⟨hfits, fun nocrc => ?_⟩
  obtain ⟨tail, -, htransfer⟩ := Request.transfer hfits req
  rw [htransfer, decode]
  apply checkResponse_wireImage nocrc _ hfits
  · show (Mem.ofList _).load 0 (evenLength (8 + r.payload.length)) = _
    rw [← length_wireImage r.cmd, Mem.load_ofList]
  · rw [List.length_append, length_wireImage, evenLength]
    omega

theorem decode_success (nocrc : Int) :
    (decode nocrc successPacket).1 = tfErrNone ∧ Received (decode nocrc successPacket).2 tfMsgSuccess [] := by
  have hwire : (Mem.ofList successPacket).load 0 (evenLength (8 + ([] : List UInt8).length)) =
      wireImage tfMsgSuccess [] := by
    rw [successPacket_eq, ← Mem.load_ofList (wireImage tfMsgSuccess []), length_wireImage]
    rfl
  exact checkResponse_wireImage nocrc successPacket.length (by decide) hwire (by decide)

theorem tfSend_accepted (stale : Nat → Mem) (host : Host Nat) {r : Request} (req : Mem)
    (h : Uploaded owed requests tf) (hfits : r.Fits) :
    let sent := tfSend ((accepting stale).env host).logged tf (r.build req)
    sent.ret = tfErrNone ∧ Uploaded (owed + 1) (requests ++ [r]) sent.tf := by
  obtain ⟨hdev, rfl, htransfers⟩ := h
  rw [tfSend_peer (accepting stale) host (r.build req) hdev rfl rfl, if_pos rfl]
  refine ⟨rfl, hdev, rfl, ?_⟩
  rw [transfers_append]
  exact List.rel_append htransfers (.cons (carries_build hfits req) .nil)

theorem tfGetResponse_accepted (stale : Nat → Mem) (host : Host Nat) (reply : Mem)
    (h : Uploaded (owed + 1) requests tf) :
    let got := tfGetResponse ((accepting stale).env host).logged tf reply
    got.ret = tfErrNone ∧ packetCmd got.out = tfMsgSuccess ∧ Uploaded owed requests got.tf := by
  obtain ⟨hdev, howed, htransfers⟩ := h
  have hreply : (accepting stale).reply tf.usb.1 = (some (.header tfMsgSuccess), owed) := by
    rw [howed]
    rfl
  obtain ⟨ret, content, out, hgot, hreceived⟩ :=
    tfGetResponse_peer (accepting stale) host reply hdev rfl hreply
  simp only [hgot]
  refine ⟨trivial, hreceived.cmd, hdev, rfl, ?_⟩
  rw [transfers_append]
  show List.Forall₂ Carries (transfers tf.usb.2 ++ []) requests
  rwa [List.append_nil]

theorem tfCmdPut_accepted (stale : Nat → Mem) (host : Host Nat) (h : Uploaded 0 requests tf)
    (path : CString) (size : UInt64) (stamp : Int) (offset : UInt64)
    (hfits : (Request.filePut path offset).Fits) :
    let call := tfCmdPut ((accepting stale).env host).logged tf path size stamp offset
    call.ret = tfErrNone ∧ ∃ typefile,
      Uploaded 0 (requests ++ [.filePut path offset] ++ [.fileStart typefile]) call.tf := by
  intro call
  simp only [call, tfCmdPut]
  generalize ((accepting stale).env host).logged.stack tf.usb = req
  obtain ⟨hsent, hwaiting⟩ := tfSend_accepted stale host req h hfits
  generalize tfSend ((accepting stale).env host).logged tf _ = sent at *
  obtain ⟨hret, hcmd, huploaded⟩ := tfGetResponse_accepted stale host
    (((accepting stale).env host).logged.stack sent.tf.usb) hwaiting
  generalize tfGetResponse ((accepting stale).env host).logged sent.tf _ = got at *
  generalize putTypefile ((accepting stale).env host).logged path size stamp _ = typefile
  obtain ⟨hstarted, hwaiting'⟩ := tfSend_accepted stale host ((Request.filePut path offset).build req)
    huploaded (fits_fileStart typefile)
  generalize tfSend ((accepting stale).env host).logged got.tf _ = started at *
  obtain ⟨hanswer, hcmd', hstored⟩ := tfGetResponse_accepted stale host got.out hwaiting'
  generalize tfGetResponse ((accepting stale).env host).logged started.tf _ = answer at *
  simp only [hsent, hret, hcmd, hstarted, hanswer, hcmd', ne_eq, not_true_eq_false, and_false, if_false,
    if_true]
  exact ⟨trivial, typefile, hstored⟩

theorem tfCmdPutData_accepted (stale : Nat → Mem) (host : Host Nat) (h : Uploaded 0 requests tf)
    (offset : UInt64) {data : List UInt8} (hdata : data.length ≤ maxPutSize) :
    let call := tfCmdPutData ((accepting stale).env host).logged tf offset data
    call.ret = tfErrNone ∧ Uploaded 0 (requests ++ [.fileData offset data]) call.tf := by
  intro call
  simp only [call, tfCmdPutData]
  generalize ((accepting stale).env host).logged.stack tf.usb = req
  obtain ⟨hsent, hwaiting⟩ := tfSend_accepted stale host req h (fits_fileData offset hdata)
  generalize tfSend ((accepting stale).env host).logged tf _ = sent at *
  have hwaiting' : Uploaded (0 + 1) (requests ++ [.fileData offset data])
    { sent.tf with timeout := sent.tf.timeout * 2 } :=
    ⟨hwaiting.dev, hwaiting.owed, hwaiting.transfers⟩
  obtain ⟨hret, hcmd, huploaded⟩ := tfGetResponse_accepted stale host
    (((accepting stale).env host).logged.stack sent.tf.usb) hwaiting'
  generalize tfGetResponse ((accepting stale).env host).logged _ _ = got at *
  simp only [hret, hcmd, ne_eq, not_true_eq_false, if_false, hsent, if_true]
  exact ⟨trivial, huploaded.dev, huploaded.owed, huploaded.transfers⟩

theorem tfCmdPutDone_accepted (stale : Nat → Mem) (host : Host Nat) (h : Uploaded 0 requests tf) :
    let call := tfCmdPutDone ((accepting stale).env host).logged tf
    call.ret = tfErrNone ∧ Uploaded 0 (requests ++ [.fileEnd]) call.tf := by
  intro call
  simp only [call, tfCmdPutDone]
  generalize ((accepting stale).env host).logged.stack tf.usb = req
  obtain ⟨hsent, hwaiting⟩ := tfSend_accepted stale host req h (r := .fileEnd) (by decide)
  generalize tfSend ((accepting stale).env host).logged tf _ = sent at *
  obtain ⟨hret, hcmd, huploaded⟩ := tfGetResponse_accepted stale host
    (((accepting stale).env host).logged.stack sent.tf.usb) hwaiting
  generalize tfGetResponse ((accepting stale).env host).logged sent.tf _ = got at *
  simp only [hret, hcmd, ne_eq, not_true_eq_false, and_false, if_false, hsent, if_true]
  exact ⟨trivial, huploaded⟩

/-! ### A whole upload -/

def dataRequests (blocks : List (UInt64 × List UInt8)) : List Request :=
  blocks.map fun block => .fileData block.1 block.2

theorem putBlocks_accepted (stale : Nat → Mem) (host : Host Nat) (blocks : List (UInt64 × List UInt8))
    (hblocks : ∀ block ∈ blocks, block.2.length ≤ maxPutSize) (h : Uploaded 0 requests tf) :
    let run := putBlocks ((accepting stale).env host).logged blocks tf
    run.1 = List.replicate blocks.length tfErrNone ∧
      Uploaded 0 (requests ++ dataRequests blocks) run.2 := by
  induction blocks generalizing tf requests with
  | nil =>
    refine ⟨rfl, ?_⟩
    rw [dataRequests, List.map_nil, List.append_nil]
    exact h
  | cons block rest ih =>
    obtain ⟨hret, hput⟩ := tfCmdPutData_accepted stale host h block.1 (hblocks block List.mem_cons_self)
    obtain ⟨hrets, hrest⟩ := ih (fun b hb => hblocks b (List.mem_cons_of_mem _ hb)) hput
    rw [List.append_assoc] at hrest
    refine ⟨?_, hrest⟩
    simp only [putBlocks, hret, hrets]
    rfl

theorem upload_accepted (stale : Nat → Mem) (host : Host Nat) (path : CString) (size : UInt64)
    (stamp : Int) (offset : UInt64) (blocks : List (UInt64 × List UInt8))
    (hfits : (Request.filePut path offset).Fits)
    (hblocks : ∀ block ∈ blocks, block.2.length ≤ maxPutSize) (h : Uploaded 0 [] tf) :
    let run := upload ((accepting stale).env host).logged tf path size stamp offset blocks
    run.1 = List.replicate (blocks.length + 2) tfErrNone ∧ ∃ typefile,
      Uploaded 0 (.filePut path offset :: .fileStart typefile :: dataRequests blocks ++ [.fileEnd])
        run.2 := by
  obtain ⟨hput, typefile, hstarted⟩ := tfCmdPut_accepted stale host h path size stamp offset hfits
  obtain ⟨hdata, hstored⟩ := putBlocks_accepted stale host blocks hblocks hstarted
  obtain ⟨hdone, hended⟩ := tfCmdPutDone_accepted stale host hstored
  refine ⟨?_, typefile, hended⟩
  simp only [upload, hput, hdata, hdone]
  rw [List.replicate_succ, List.replicate_succ']
  rfl

/-- The piece of a file that a request carries. -/
def fileDataPut : Request → Option (UInt64 × Nat × List UInt8)
  | .fileData offset data => some (offset, data.length, data)
  | _ => none

theorem filterMap_dataRequests (blocks : List (UInt64 × List UInt8)) :
    (dataRequests blocks).filterMap fileDataPut =
      blocks.map fun block => (block.1, block.2.length, block.2) := by
  induction blocks with
  | nil => rfl
  | cons block rest ih =>
    have hhead : fileDataPut (.fileData block.1 block.2) = some (block.1, block.2.length, block.2) := rfl
    show List.filterMap fileDataPut (.fileData block.1 block.2 :: dataRequests rest) = _
    rw [List.filterMap_cons_some hhead, ih, List.map_cons]

/-- The decoder of a download finds what the encoder of an upload put. -/
theorem fileDataOf_received {reply : Mem} {r : Request} (hfits : r.Fits)
    (h : Received reply r.cmd r.payload) : fileDataOf reply = fileDataPut r := by
  have hcmd := h.cmd
  rw [fileDataOf, hcmd]
  cases r with
  | fileData offset data =>
    rw [Request.Fits, length_fileData] at hfits
    have hreceived : Received reply tfMsgHddFileData (Chunk.packet ⟨offset, data, hfits⟩).payload := h
    obtain ⟨hoffset, hsize, hdata⟩ := dataChunk_received hreceived
    rw [Request.cmd, if_pos rfl, hoffset, hsize, hdata]
    rfl
  | _ => rfl

theorem map_eq_of_forall₂ {α β γ : Type} {f : α → γ} {g : β → γ} {l : List α} {l' : List β}
    (h : List.Forall₂ (fun a b => f a = g b) l l') : l.map f = l'.map g := by
  have heq := List.forall₂_map_left_iff.mpr (List.forall₂_map_right_iff.mpr h)
  rwa [List.forall₂_eq_eq_eq] at heq

/-- **Uploads.** Every call returns 0, and the packets that the device received are those of an upload,
with exactly the blocks in its FILE_DATA. -/
theorem upload_faithful (stale : Nat → Mem) (host : Host Nat) (tf : TfHandle Nat) (path : CString)
    (size : UInt64) (stamp : Int) (offset : UInt64) (blocks : List (UInt64 × List UInt8)) (nocrc : Int)
    (hdev : tf.dev = true) (howed : tf.usb = 0) (hfits : (Request.filePut path offset).Fits)
    (hblocks : ∀ block ∈ blocks, block.2.length ≤ maxPutSize) :
    let run := upload ((accepting stale).env host).logged tf.logging path size stamp offset blocks
    let packets := (transfers run.2.usb.2).map (decode nocrc)
    run.1 = List.replicate (blocks.length + 2) tfErrNone ∧
      packets.map Prod.fst = List.replicate (blocks.length + 3) tfErrNone ∧
      packets.map (fun packet => packetCmd packet.2) =
        [tfMsgHddFileSend, tfMsgHddFileStart] ++ blocks.map (fun _ => tfMsgHddFileData) ++
          [tfMsgHddFileEnd] ∧
      packets.filterMap (fun packet => fileDataOf packet.2) =
        blocks.map fun block => (block.1, block.2.length, block.2) := by
  intro run packets
  obtain ⟨hrets, typefile, -, -, hcarries⟩ :=
    upload_accepted stale host path size stamp offset blocks hfits hblocks
      (⟨hdev, howed, .nil⟩ : Uploaded 0 [] tf.logging)
  have hpackets : List.Forall₂ (fun packet r => r.Fits ∧ packet.1 = tfErrNone ∧
      Received packet.2 r.cmd r.payload) packets
      (.filePut path offset :: .fileStart typefile :: dataRequests blocks ++ [.fileEnd]) :=
    List.forall₂_map_left_iff.mpr (hcarries.imp fun _ _ h => ⟨h.1, h.2 nocrc⟩)
  refine ⟨hrets, ?_, ?_, ?_⟩
  · rw [map_eq_of_forall₂ (g := fun _ => tfErrNone) (hpackets.imp fun _ _ h => h.2.1)]
    rw [List.replicate_succ, List.replicate_succ, List.replicate_succ']
    simp [dataRequests, Function.comp_def]
  · rw [map_eq_of_forall₂ (g := Request.cmd) (hpackets.imp fun _ _ h => h.2.2.cmd)]
    simp [dataRequests, Request.cmd, Function.comp_def]
  · have hfound := map_eq_of_forall₂ (f := fun packet : Int × Mem => fileDataOf packet.2)
      (g := fileDataPut) (hpackets.imp fun _ _ h => fileDataOf_received h.1 h.2.2)
    have hpieces : packets.filterMap (fun packet => fileDataOf packet.2) =
        (packets.map fun packet => fileDataOf packet.2).filterMap id :=
      (List.filterMap_map (l := packets) (g := id)).symm
    rw [hpieces, hfound, List.filterMap_map, Function.id_comp, List.filterMap_append,
      List.filterMap_cons_none rfl, List.filterMap_cons_none rfl, filterMap_dataRequests,
      List.filterMap_cons_none rfl, List.filterMap_nil, List.append_nil]

/-- Two blocks, one of odd length and one of the largest size. -/
theorem upload_faithful_two_blocks :
    let path : CString := ⟨[0x2F, 0x61], by decide⟩
    let blocks : List (UInt64 × List UInt8) := [(0, [1, 2, 3]), (3, List.replicate maxPutSize 9)]
    let run := upload ((accepting fun _ _ => 0xAA).env (Host.blank Nat)).logged
      (TfHandle.opened 0 fun _ => 0).logging path 5 0 0 blocks
    let packets := (transfers run.2.usb.2).map (decode 0)
    run.1 = List.replicate (blocks.length + 2) tfErrNone ∧
      packets.map Prod.fst = List.replicate (blocks.length + 3) tfErrNone ∧
      packets.map (fun packet => packetCmd packet.2) =
        [tfMsgHddFileSend, tfMsgHddFileStart] ++ blocks.map (fun _ => tfMsgHddFileData) ++
          [tfMsgHddFileEnd] ∧
      packets.filterMap (fun packet => fileDataOf packet.2) =
        blocks.map fun block => (block.1, block.2.length, block.2) :=
  upload_faithful _ _ _ _ _ _ _ _ _ rfl rfl (by decide) fun block hblock => by
    rcases List.mem_cons.mp hblock with rfl | hblock
    · exact (by decide : 3 ≤ maxPutSize)
    · obtain rfl := List.mem_singleton.mp hblock
      exact List.length_replicate.le

end Topfield
