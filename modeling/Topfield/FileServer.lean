import Topfield.Filenames
import Topfield.Upload

/-!
# A device that keeps files

A device at the other end of the transfers: it obeys the packets of an upload, hands a file out in pieces of
whatever sizes it likes, one for every SUCCESS, and deletes and renames files. What the calls of the library do
to its files is worked out here, call by call.
-/

namespace Topfield

open Lib

/-- The name under which a device knows a path. -/
abbrev FileName := List UInt8

def CString.fileName (path : CString) : FileName := path.bytes.map translateSlash

structure Piece where
  bytes : List UInt8
  fits : 16 + bytes.length ≤ 0xFFFF

/-- How a device divides what it hands out. -/
structure Division where
  pieces : List UInt8 → List Piece
  flatten : ∀ data, (pieces data).flatMap Piece.bytes = data

/-- The pieces of a file from an offset on. -/
def chunksFrom : (offset : Nat) → List Piece → List Chunk
  | _, [] => []
  | offset, piece :: rest =>
    ⟨UInt64.ofNat offset, piece.bytes, piece.fits⟩ :: chunksFrom (offset + piece.bytes.length) rest

def startPacket (typefile : Typefile) : Packet where
  cmd := tfMsgHddFileStart
  payload := typefile.bytes
  fits := by
    rw [typefile.length]
    decide

/-- FAIL with the code 6. -/
def refusalPacket : Packet where
  cmd := tfMsgFail
  payload := toBE 4 6
  fits := by decide

/-- The files of a device, the one that it receives, the packets that it has to send, and how many of them it may
send. -/
structure FileServer where
  files : FileName → Option (List UInt8)
  name : FileName
  data : List UInt8
  queue : List Packet
  credit : Nat

namespace FileServer

variable (division : Division) (descriptor : FileName → Typefile)

def turnTo (s : FileServer) (packets : List Packet) : FileServer := { s with queue := packets, credit := 1 }

def acknowledged (s : FileServer) : FileServer := { s with credit := s.credit + 1 }

def accept (s : FileServer) : FileServer := s.turnTo [.header tfMsgSuccess]

def refuse (s : FileServer) : FileServer := s.turnTo [refusalPacket]

/-- FILE_SEND, in either direction. -/
def fileSend (s : FileServer) (dir : UInt8) (name : FileName) (offset : Nat) : FileServer :=
  if dir = dirPut then { s with name, data := [] }.accept
  else
    match s.files name with
    | none => s.refuse
    | some data =>
      s.turnTo (startPacket (descriptor name) :: filePackets (chunksFrom offset (division.pieces (data.drop offset))))

/-- What a device does with a packet, given its command word and what follows the header. -/
def obey (s : FileServer) (cmd : UInt32) (body : List UInt8) : FileServer :=
  if cmd = tfMsgSuccess then s.acknowledged
  else if cmd = tfMsgHddFileSend then
    let field := readCounted body.tail
    s.fileSend division descriptor (body.headD 0xFF) (stringOf field.1) (ofBE (field.2.take 8))
  else if cmd = tfMsgHddFileStart then s.accept
  else if cmd = tfMsgHddFileData then
    if ofBE (body.take 8) = s.data.length % 2 ^ 64 then { s with data := s.data ++ body.drop 8 }.accept
    else s.refuse
  else if cmd = tfMsgHddFileEnd then { s with files := Function.update s.files s.name (some s.data) }.accept
  else if cmd = tfMsgHddDelete then
    let name := stringOf body
    if s.files name = none then s.refuse else { s with files := Function.update s.files name none }.accept
  else if cmd = tfMsgHddRename then
    let src := readCounted body
    let dest := readCounted src.2
    if s.files (stringOf src.1) = none ∨ s.files (stringOf dest.1) ≠ none then s.refuse
    else
      { s with
        files := Function.update (Function.update s.files (stringOf src.1) none) (stringOf dest.1)
          (s.files (stringOf src.1)) }.accept
  else s.refuse

/-- A transfer that is not a packet is ignored. -/
def receive (s : FileServer) (bytes : List UInt8) : FileServer :=
  let packet := decode 0 bytes
  if packet.1 = tfErrNone then
    s.obey division descriptor (packetCmd packet.2) (packet.2.load 8 ((packetLength packet.2).toNat - 8))
  else s

def reply (s : FileServer) : Option Packet × FileServer :=
  match s.queue, s.credit with
  | packet :: rest, credit + 1 => (some packet, { s with queue := rest, credit })
  | _, _ => (none, s)

end FileServer

def fileServer (division : Division) (descriptor : FileName → Typefile) (stale : FileServer → Mem) :
    Peer FileServer where
  receive s bytes := (bytes.length, s.receive division descriptor bytes)
  reply := FileServer.reply
  stale := stale

/-! ### What is in the packets -/

namespace Request

theorem payload_delete (path : CString) : (Request.delete path).payload = paddedName path 8 := by
  show [] ++ ([] ++ (path.bytes.map translateSlash ++ [0]) ++ List.replicate ((path.strlen + 1 + 8) % 2) 0) = _
  rw [paddedName, List.replicate_succ]
  simp only [List.nil_append, List.append_assoc, List.singleton_append]

theorem payload_fileSend (dir : UInt8) (path : CString) (offset : UInt64) :
    putBytes [] [.put8 dir, .putfilename path true, .put64 offset] =
      dir :: (counted (paddedName path 9) ++ toBE 8 offset.toNat) := by
  have hname := putfilename_bytes path 9
  simp only [putBytes, List.foldl_cons, List.foldl_nil, ReqPut.bytes, List.nil_append] at hname ⊢
  rw [show 8 + [dir].length = 9 from rfl, hname]
  rfl

theorem payload_fileData (offset : UInt64) (data : List UInt8) :
    (Request.fileData offset data).payload = toBE 8 offset.toNat ++ data := rfl

end Request

namespace FileServer

variable {division : Division} {descriptor : FileName → Typefile} {s : FileServer}

theorem obey_fileSend {dir : UInt8} {path : CString} {offset : UInt64}
    (hfits : (paddedName path 9).length < 0x10000) :
    s.obey division descriptor tfMsgHddFileSend (dir :: (counted (paddedName path 9) ++ toBE 8 offset.toNat)) =
      s.fileSend division descriptor dir path.fileName offset.toNat := by
  have hoffset : ofBE ((toBE 8 offset.toNat).take 8) = offset.toNat := by
    rw [List.take_of_length_le (by rw [length_toBE]), ofBE_toBE]
    exact Nat.mod_eq_of_lt offset.toNat_lt
  simp only [obey, List.tail_cons, List.headD_cons, readCounted_counted _ hfits, stringOf_paddedName, hoffset]
  rfl

theorem obey_fileData (data : List UInt8) :
    s.obey division descriptor tfMsgHddFileData (Request.fileData (UInt64.ofNat s.data.length) data).payload =
      { s with data := s.data ++ data }.accept := by
  have hoffset : ofBE ((toBE 8 (UInt64.ofNat s.data.length).toNat ++ data).take 8) = s.data.length % 2 ^ 64 := by
    rw [List.take_left' (length_toBE _ _), ofBE_toBE, UInt64.toNat_ofNat']
    exact Nat.mod_mod _ _
  have hdata : (toBE 8 (UInt64.ofNat s.data.length).toNat ++ data).drop 8 = data := List.drop_left' (length_toBE _ _)
  rw [Request.payload_fileData]
  simp only [obey, hoffset, hdata, if_true]
  rfl

theorem obey_delete (path : CString) :
    s.obey division descriptor tfMsgHddDelete (Request.delete path).payload =
      if s.files path.fileName = none then s.refuse
      else { s with files := Function.update s.files path.fileName none }.accept := by
  rw [Request.payload_delete]
  simp only [obey, stringOf_paddedName]
  rfl

theorem obey_rename {src dest : CString} (hsrc : (paddedName src 8).length < 0x10000)
    (hdest : (paddedName dest (8 + (counted (paddedName src 8)).length)).length < 0x10000) :
    s.obey division descriptor tfMsgHddRename (Request.rename src dest).payload =
      if s.files src.fileName = none ∨ s.files dest.fileName ≠ none then s.refuse
      else
        { s with
          files := Function.update (Function.update s.files src.fileName none) dest.fileName
            (s.files src.fileName) }.accept := by
  have hlast := readCounted_counted [] hdest
  rw [List.append_nil] at hlast
  rw [payload_rename]
  simp only [obey, readCounted_counted _ hsrc, hlast, stringOf_paddedName]
  rfl

/-- A device that has sent the first of its packets. -/
def handing (s : FileServer) (packets : List Packet) : FileServer := { s with queue := packets, credit := 0 }

theorem receive_carries {bytes : List UInt8} {r : Request} (h : Carries bytes r) :
    s.receive division descriptor bytes = s.obey division descriptor r.cmd r.payload := by
  obtain ⟨hret, hreceived⟩ := h.2 0
  simp only [receive]
  rw [if_pos hret, hreceived.cmd, hreceived.length, Nat.add_sub_cancel_left, hreceived.data]

theorem receive_success : s.receive division descriptor successPacket = s.acknowledged := by
  obtain ⟨hret, hreceived⟩ := decode_success 0
  simp only [receive]
  rw [if_pos hret, hreceived.cmd]
  rfl

end FileServer

/-! ### The host and the device -/

/-- Between two steps of a call: what the device is, and whether an acknowledgement is pending. -/
structure At (s : FileServer) (pending : Int) (tf : TfHandle (FileServer × List Event)) : Prop where
  dev : tf.dev = true
  device : tf.usb.1 = s
  pending : tf.pending = pending

section Calls

variable (division : Division) (descriptor : FileName → Typefile) (stale : FileServer → Mem) (host : Host FileServer)
  {s t : FileServer} {pending : Int} {tf : TfHandle (FileServer × List Event)}

theorem At.of_eq {tf' : TfHandle (FileServer × List Event)} (h : At s pending tf) (hdev : tf'.dev = tf.dev)
    (hpending : tf'.pending = tf.pending) (husb : tf'.usb = tf.usb) : At s pending tf' :=
  ⟨hdev.trans h.dev, by rw [husb, h.device], hpending.trans h.pending⟩

theorem receive_fileServer (s : FileServer) (bytes : List UInt8) :
    (fileServer division descriptor stale).receive s bytes =
      ((bytes.length : Int), s.receive division descriptor bytes) := rfl

theorem tfSend_at {r : Request} (hfits : r.Fits) (req : Mem) (h : At s pending tf) :
    let sent := tfSend ((fileServer division descriptor stale).env host).logged tf (r.build req)
    sent.ret = tfErrNone ∧ At (s.obey division descriptor r.cmd r.payload) pending sent.tf := by
  obtain ⟨hdev, rfl, rfl⟩ := h
  have hreceive := receive_fileServer division descriptor stale tf.usb.1 (tfSendBytes (r.build req))
  rw [tfSend_peer _ host (r.build req) hdev rfl hreceive, if_pos rfl]
  exact ⟨rfl, hdev, FileServer.receive_carries (carries_build hfits req), rfl⟩

theorem tfSendSuccess_at (h : At s pending tf) :
    let ack := tfSendSuccess ((fileServer division descriptor stale).env host).logged tf
    ack.ret = tfErrNone ∧ At s.acknowledged pending ack.tf ∧ ack.tf.buf = tf.buf ∧
      reads ack.tf.usb.2 = reads tf.usb.2 := by
  obtain ⟨hdev, rfl, rfl⟩ := h
  have hreceive : (fileServer division descriptor stale).receive tf.usb.1 (tfSendBytes (Mem.ofList successPacket)) =
      (((tfSendBytes (Mem.ofList successPacket)).length : Int), tf.usb.1.acknowledged) := by
    rw [receive_fileServer, tfSendBytes_success, FileServer.receive_success]
  rw [tfSendSuccess, tfSend_peer _ host _ hdev rfl hreceive, if_pos rfl, tfSendBytes_success]
  refine ⟨rfl, ⟨hdev, rfl, rfl⟩, rfl, ?_⟩
  rw [reads_append, reads_wrote, Nat.add_zero]

theorem tfGetResponse_at {packet : Packet} {rest : List Packet} (reply : Mem)
    (h : At (s.turnTo (packet :: rest)) pending tf) :
    let got := tfGetResponse ((fileServer division descriptor stale).env host).logged tf reply
    got.ret = tfErrNone ∧ Received got.out packet.cmd packet.payload ∧ At (s.handing rest) pending got.tf ∧
      reads got.tf.usb.2 = reads tf.usb.2 + 1 := by
  obtain ⟨hdev, hdevice, rfl⟩ := h
  have hreply : (fileServer division descriptor stale).reply tf.usb.1 = (some packet, s.handing rest) := by
    rw [hdevice]
    rfl
  obtain ⟨ret, content, out, hgot, hreceived⟩ := tfGetResponse_peer _ host reply hdev rfl hreply
  simp only [hgot]
  refine ⟨trivial, hreceived, ⟨hdev, rfl, rfl⟩, ?_⟩
  rw [reads_append, reads_read]

theorem response_accepted (reply : Mem) (h : At s.accept pending tf) :
    let got := tfGetResponse ((fileServer division descriptor stale).env host).logged tf reply
    got.ret = tfErrNone ∧ packetCmd got.out = tfMsgSuccess ∧ At (s.handing []) pending got.tf := by
  obtain ⟨hret, hreceived, hafter, -⟩ :=
    tfGetResponse_at division descriptor stale host reply h
  exact ⟨hret, hreceived.cmd, hafter⟩

theorem response_refused (reply : Mem) (h : At s.refuse pending tf) :
    let got := tfGetResponse ((fileServer division descriptor stale).env host).logged tf reply
    got.ret = tfErrNone ∧ packetCmd got.out = tfMsgFail ∧ failCode got.out = -6 ∧
      At (s.handing []) pending got.tf := by
  obtain ⟨hret, hreceived, hafter, -⟩ :=
    tfGetResponse_at division descriptor stale host reply h
  refine ⟨hret, hreceived.cmd, ?_, hafter⟩
  generalize (tfGetResponse ((fileServer division descriptor stale).env host).logged tf reply).out = out at hreceived
  have hcode : getU32 out 8 = 6 := by
    apply UInt32.toNat_inj.mp
    rw [getU32_toNat]
    exact (congrArg ofBE hreceived.data).trans (by decide)
  rw [failCode, hcode]
  decide

theorem runRequest_accepted {r : Request} (hfits : r.Fits) (h : At s pending tf)
    (hobey : s.obey division descriptor r.cmd r.payload = t.accept) :
    let call := runRequest ((fileServer division descriptor stale).env host).logged tf r
    call.ret = tfErrNone ∧ At (t.handing []) pending call.tf := by
  simp only [runRequest, tfCmd]
  generalize ((fileServer division descriptor stale).env host).logged.stack tf.usb = req
  obtain ⟨hsent, hat⟩ := tfSend_at division descriptor stale host hfits req h
  rw [hobey] at hat
  generalize tfSend ((fileServer division descriptor stale).env host).logged tf _ = sent at *
  obtain ⟨hret, hcmd, hafter⟩ := response_accepted division descriptor stale host
    (((fileServer division descriptor stale).env host).logged.stack sent.tf.usb) hat
  have hfail : tfMsgSuccess ≠ tfMsgFail := by decide
  simp only [hsent, hret, hcmd, hfail, ne_eq, not_true_eq_false, if_true, if_false]
  exact ⟨trivial, hafter⟩

theorem runRequest_refused {r : Request} (hfits : r.Fits) (h : At s pending tf)
    (hobey : s.obey division descriptor r.cmd r.payload = t.refuse) :
    let call := runRequest ((fileServer division descriptor stale).env host).logged tf r
    call.ret = -6 ∧ At (t.handing []) pending call.tf := by
  simp only [runRequest, tfCmd]
  generalize ((fileServer division descriptor stale).env host).logged.stack tf.usb = req
  obtain ⟨hsent, hat⟩ := tfSend_at division descriptor stale host hfits req h
  rw [hobey] at hat
  generalize tfSend ((fileServer division descriptor stale).env host).logged tf _ = sent at *
  obtain ⟨hret, hcmd, hcode, hafter⟩ := response_refused division descriptor stale host
    (((fileServer division descriptor stale).env host).logged.stack sent.tf.usb) hat
  simp only [hsent, hret, hcmd, hcode, if_true]
  exact ⟨trivial, hafter.of_eq rfl rfl rfl⟩

/-! ### Putting a file -/

theorem tfCmdPut_at (h : At s pending tf) (path : CString) (size : UInt64) (stamp : Int) (offset : UInt64)
    (hfits : (Request.filePut path offset).Fits) (hname : (paddedName path 9).length < 0x10000) :
    let call := tfCmdPut ((fileServer division descriptor stale).env host).logged tf path size stamp offset
    call.ret = tfErrNone ∧ At ({ s with name := path.fileName, data := [] }.handing []) pending call.tf := by
  simp only [tfCmdPut]
  generalize ((fileServer division descriptor stale).env host).logged.stack tf.usb = req
  have hobey : s.obey division descriptor tfMsgHddFileSend (Request.filePut path offset).payload =
      FileServer.accept { s with name := path.fileName, data := [] } :=
    (congrArg _ (Request.payload_fileSend dirPut path offset)).trans (FileServer.obey_fileSend hname)
  obtain ⟨hsent, hat⟩ := tfSend_at division descriptor stale host hfits req h
  generalize tfSend ((fileServer division descriptor stale).env host).logged tf _ = sent at *
  obtain ⟨hret, hcmd, hafter⟩ := response_accepted division descriptor stale host
    (((fileServer division descriptor stale).env host).logged.stack sent.tf.usb) (hobey ▸ hat)
  generalize tfGetResponse ((fileServer division descriptor stale).env host).logged sent.tf _ = got at *
  generalize putTypefile ((fileServer division descriptor stale).env host).logged path size stamp _ = typefile
  obtain ⟨hstarted, hat'⟩ := tfSend_at division descriptor stale host (fits_fileStart typefile)
    ((Request.filePut path offset).build req) hafter
  generalize tfSend ((fileServer division descriptor stale).env host).logged got.tf _ = started at *
  obtain ⟨hanswer, hcmd', hopened⟩ := response_accepted division descriptor stale host got.out hat'
  generalize tfGetResponse ((fileServer division descriptor stale).env host).logged started.tf _ = answer at *
  simp only [hsent, hret, hcmd, hstarted, hanswer, hcmd', ne_eq, not_true_eq_false, and_false, if_false, if_true]
  exact ⟨trivial, hopened⟩

theorem tfCmdPutData_at (h : At (s.handing []) pending tf) {data : List UInt8} (hdata : data.length ≤ maxPutSize) :
    let call := tfCmdPutData ((fileServer division descriptor stale).env host).logged tf
      (UInt64.ofNat s.data.length) data
    call.ret = tfErrNone ∧ At ({ s with data := s.data ++ data }.handing []) pending call.tf := by
  simp only [tfCmdPutData]
  generalize ((fileServer division descriptor stale).env host).logged.stack tf.usb = req
  have hobey : (s.handing []).obey division descriptor tfMsgHddFileData
      (Request.fileData (UInt64.ofNat s.data.length) data).payload =
        FileServer.accept { s with data := s.data ++ data } :=
    FileServer.obey_fileData (s := s.handing []) data
  obtain ⟨hsent, hat⟩ := tfSend_at division descriptor stale host
    (fits_fileData (UInt64.ofNat s.data.length) hdata) req h
  generalize tfSend ((fileServer division descriptor stale).env host).logged tf _ = sent at *
  have hwaiting : At (FileServer.accept { s with data := s.data ++ data }) pending
      { sent.tf with timeout := sent.tf.timeout * 2 } := (hobey ▸ hat).of_eq rfl rfl rfl
  obtain ⟨hret, hcmd, hafter⟩ := response_accepted division descriptor stale host
    (((fileServer division descriptor stale).env host).logged.stack sent.tf.usb) hwaiting
  generalize tfGetResponse ((fileServer division descriptor stale).env host).logged _ _ = got at *
  simp only [hsent, hret, hcmd, ne_eq, not_true_eq_false, if_false, if_true]
  exact ⟨trivial, hafter.of_eq rfl rfl rfl⟩

theorem tfCmdPutDone_at (h : At (s.handing []) pending tf) :
    let call := tfCmdPutDone ((fileServer division descriptor stale).env host).logged tf
    call.ret = tfErrNone ∧
      At ({ s with files := Function.update s.files s.name (some s.data) }.handing []) pending call.tf := by
  simp only [tfCmdPutDone]
  generalize ((fileServer division descriptor stale).env host).logged.stack tf.usb = req
  obtain ⟨hsent, hat⟩ := tfSend_at division descriptor stale host (r := .fileEnd) (by decide) req h
  generalize tfSend ((fileServer division descriptor stale).env host).logged tf _ = sent at *
  have hended : At (FileServer.accept { s with files := Function.update s.files s.name (some s.data) }) pending
      sent.tf := hat
  obtain ⟨hret, hcmd, hafter⟩ := response_accepted division descriptor stale host
    (((fileServer division descriptor stale).env host).logged.stack sent.tf.usb) hended
  generalize tfGetResponse ((fileServer division descriptor stale).env host).logged sent.tf _ = got at *
  simp only [hsent, hret, hcmd, ne_eq, not_true_eq_false, and_false, if_false, if_true]
  exact ⟨trivial, hafter⟩

/-! ### Getting a file -/

theorem tfCmdGet_missing (h : At s pending tf) (path : CString) (offset : UInt64) (dirent : TfDirent)
    (hfits : (Request.fileGet path offset).Fits) (hname : (paddedName path 9).length < 0x10000)
    (hfile : s.files path.fileName = none) :
    let call := tfCmdGet ((fileServer division descriptor stale).env host).logged tf path offset dirent
    call.ret = -6 ∧ At (s.handing []) pending call.tf := by
  simp only [tfCmdGet]
  generalize ((fileServer division descriptor stale).env host).logged.stack tf.usb = req
  have hobey : s.obey division descriptor tfMsgHddFileSend (Request.fileGet path offset).payload = s.refuse := by
    refine (congrArg _ (Request.payload_fileSend dirGet path offset)).trans
      ((FileServer.obey_fileSend hname).trans ?_)
    rw [FileServer.fileSend, if_neg (by decide), hfile]
  obtain ⟨hsent, hat⟩ := tfSend_at division descriptor stale host hfits req h
  generalize tfSend ((fileServer division descriptor stale).env host).logged tf _ = sent at *
  obtain ⟨hret, hcmd, hcode, hafter⟩ := response_refused division descriptor stale host
    (((fileServer division descriptor stale).env host).logged.stack sent.tf.usb) (hobey ▸ hat)
  generalize tfGetResponse ((fileServer division descriptor stale).env host).logged sent.tf _ = got at *
  have hstart : tfMsgFail ≠ tfMsgHddFileStart := by decide
  simp only [hsent, hret, hcmd, hcode, hstart, if_false, if_true]
  exact ⟨trivial, hafter⟩

def FileServer.packetsFrom (data : List UInt8) (offset : Nat) : List Packet :=
  filePackets (chunksFrom offset (division.pieces (data.drop offset)))

theorem tfCmdGet_found (h : At s pending tf) (path : CString) (offset : UInt64) (dirent : TfDirent)
    (hfits : (Request.fileGet path offset).Fits) (hname : (paddedName path 9).length < 0x10000) {data : List UInt8}
    (hfile : s.files path.fileName = some data) :
    let call := tfCmdGet ((fileServer division descriptor stale).env host).logged tf path offset dirent
    call.ret = tfErrNone ∧ At (s.handing (FileServer.packetsFrom division data offset.toNat)) pending call.tf := by
  simp only [tfCmdGet]
  generalize ((fileServer division descriptor stale).env host).logged.stack tf.usb = req
  have hobey : s.obey division descriptor tfMsgHddFileSend (Request.fileGet path offset).payload =
      s.turnTo (startPacket (descriptor path.fileName) :: FileServer.packetsFrom division data offset.toNat) := by
    refine (congrArg _ (Request.payload_fileSend dirGet path offset)).trans
      ((FileServer.obey_fileSend hname).trans ?_)
    rw [FileServer.fileSend, if_neg (by decide), hfile]
    rfl
  obtain ⟨hsent, hat⟩ := tfSend_at division descriptor stale host hfits req h
  generalize tfSend ((fileServer division descriptor stale).env host).logged tf _ = sent at *
  obtain ⟨hret, hreceived, hafter, -⟩ := tfGetResponse_at division descriptor stale host
    (((fileServer division descriptor stale).env host).logged.stack sent.tf.usb) (hobey ▸ hat)
  generalize tfGetResponse ((fileServer division descriptor stale).env host).logged sent.tf _ = got at *
  have hcmd : packetCmd got.out = tfMsgHddFileStart := hreceived.cmd
  simp only [hsent, hret, hcmd, if_true]
  exact ⟨trivial, hafter⟩

/-- Between two calls of a download: the device waits for SUCCESS, or has got it and it is pending. -/
def Handing (s : FileServer) (packets : List Packet) (tf : TfHandle (FileServer × List Event)) : Prop :=
  At (s.handing packets) 0 tf ∨ At (s.turnTo packets) 1 tf

theorem tfCmdGetNext_handing {packets : List Packet} (buf : TfBuffer) (h : Handing s packets tf) :
    ∃ tf', At (s.turnTo packets) 0 tf' ∧ reads tf'.usb.2 = reads tf.usb.2 ∧
      let next := getNextReply ((fileServer division descriptor stale).env host).logged tf' buf
      tfCmdGetNext ((fileServer division descriptor stale).env host).logged tf buf =
        { next with tf := { next.tf with error := next.ret } } := by
  rcases h with h | h
  · obtain ⟨hack, hat, -, hreads⟩ := tfSendSuccess_at division descriptor stale host h
    simp only [tfCmdGetNext, if_pos h.pending]
    generalize tfSendSuccess ((fileServer division descriptor stale).env host).logged tf = ack at *
    rw [if_pos hack]
    exact ⟨{ ack.tf with pending := 0 }, ⟨hat.dev, hat.device, rfl⟩, hreads, rfl⟩
  · have hpending : tf.pending ≠ 0 := by
      rw [h.pending]
      decide
    simp only [tfCmdGetNext, if_neg hpending, if_true]
    exact ⟨{ tf with pending := 0 }, ⟨h.dev, h.device, rfl⟩, rfl, rfl⟩

theorem getNextReply_piece {chunk : Chunk} {rest : List Packet} (buf : TfBuffer)
    (h : At (s.turnTo (chunk.packet :: rest)) 0 tf) :
    let next := getNextReply ((fileServer division descriptor stale).env host).logged tf buf
    next.ret = tfErrNone ∧ next.out.offset = chunk.offset ∧ next.out.size = chunk.data.length ∧
      next.tf.buf.load next.out.data next.out.size = chunk.data ∧ At (s.turnTo rest) 1 next.tf := by
  simp only [getNextReply]
  obtain ⟨hret, hreceived, hat, -⟩ := tfGetResponse_at division descriptor stale host tf.buf h
  generalize tfGetResponse ((fileServer division descriptor stale).env host).logged tf tf.buf = got at *
  obtain ⟨hoffset, hsize, hdata⟩ := dataChunk_received hreceived
  have hwaiting : At (s.handing rest) 0 { got.tf with buf := got.out } := hat.of_eq rfl rfl rfl
  obtain ⟨hack, hafter, hbuf, -⟩ := tfSendSuccess_at division descriptor stale host hwaiting
  generalize tfSendSuccess ((fileServer division descriptor stale).env host).logged _ = ack at *
  have hcmd : packetCmd got.out = tfMsgHddFileData := hreceived.cmd
  have hend : tfMsgHddFileData ≠ tfMsgHddFileEnd := by decide
  simp only [hret, hcmd, hend, hack, if_true, if_false]
  refine ⟨trivial, hoffset, hsize, ?_, ⟨hafter.dev, hafter.device, rfl⟩⟩
  rw [hbuf, hsize]
  exact hdata

theorem getNextReply_last {rest : List Packet} (buf : TfBuffer) (h : At (s.turnTo (fileEndPacket :: rest)) 0 tf) :
    let next := getNextReply ((fileServer division descriptor stale).env host).logged tf buf
    next.ret = tfErrDone ∧ reads next.tf.usb.2 = reads tf.usb.2 + 1 ∧ At (s.turnTo rest) 0 next.tf := by
  simp only [getNextReply]
  obtain ⟨hret, hreceived, hat, hreads⟩ := tfGetResponse_at division descriptor stale host tf.buf h
  generalize tfGetResponse ((fileServer division descriptor stale).env host).logged tf tf.buf = got at *
  have hwaiting : At (s.handing rest) 0 { got.tf with buf := got.out } := hat.of_eq rfl rfl rfl
  obtain ⟨-, hafter, -, hsame⟩ := tfSendSuccess_at division descriptor stale host hwaiting
  generalize tfSendSuccess ((fileServer division descriptor stale).env host).logged _ = ack at *
  have hcmd : packetCmd got.out = tfMsgHddFileEnd := hreceived.cmd
  simp only [hret, hcmd, if_true]
  exact ⟨trivial, hsame.trans hreads, hafter⟩

theorem download_handing (chunks : List Chunk) (buf : TfBuffer) (h : Handing s (filePackets chunks) tf) :
    let run := download ((fileServer division descriptor stale).env host) buf (filePackets chunks).length tf
    run.1 = outcomes chunks ∧ At (s.turnTo []) 0 run.2 := by
  induction chunks generalizing tf with
  | nil =>
    obtain ⟨tf', hat, hreads, hnext⟩ := tfCmdGetNext_handing division descriptor stale host buf h
    obtain ⟨hret, hread, hafter⟩ := getNextReply_last division descriptor stale host buf hat
    generalize getNextReply ((fileServer division descriptor stale).env host).logged tf' buf = next at *
    have hlength : (filePackets []).length = 1 := rfl
    simp only [hlength, download, hnext]
    rw [if_neg (by rw [hret]; decide), if_neg (by omega), hret]
    exact ⟨rfl, hafter.of_eq rfl rfl rfl⟩
  | cons chunk rest ih =>
    obtain ⟨tf', hat, -, hnext⟩ := tfCmdGetNext_handing division descriptor stale host buf h
    obtain ⟨hret, hoffset, hsize, hdata, hafter⟩ := getNextReply_piece division descriptor stale host buf hat
    generalize getNextReply ((fileServer division descriptor stale).env host).logged tf' buf = next at *
    have hhanding : Handing s (filePackets rest) { next.tf with error := next.ret } := .inr (hafter.of_eq rfl rfl rfl)
    obtain ⟨hrest, hlast⟩ := ih hhanding
    have hlength : (filePackets (chunk :: rest)).length = (filePackets rest).length + 1 := rfl
    simp only [hlength, download, hnext]
    rw [if_pos hret, hdata, hoffset, hsize, hrest]
    exact ⟨rfl, hlast⟩

end Calls

end Topfield
