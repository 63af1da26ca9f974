import Topfield.Failure
import Topfield.Validation

/-!
# What replies are cut into

`tf_cmd_get_next` hands out the piece of the handle's buffer after the offset of a FILE_DATA packet, and
`get_dirents` takes a DIRENT packet to hold as many records as its length covers. Both subtract the header
from the announced length, and neither has a lower bound for it: a FILE_DATA packet shorter than its offset
makes a slice of almost 64 KiB, and a DIRENT packet shorter than its header a negative count.
-/

namespace Topfield

open Lib

variable {σ : Type}

/-! ### The reply to be read -/

/-- What the next `tf_get_response` makes readable, if it accepts it. -/
def nextResponse (e : Env σ) (tf : TfHandle σ) : Option Mem :=
  if tf.dev = true then acceptedReply tf.nocrc (.read (received e tf).1 (received e tf).2) else none

theorem nextResponse_eq_ite (e : Env σ) (tf : TfHandle σ) (reply : Mem) :
    nextResponse e tf =
      if (tfGetResponse e tf reply).ret = 0 then some (tfGetResponse e tf reply).out else none := by
  by_cases hdev : tf.dev = true
  · obtain ⟨hret, hout⟩ := tfGetResponse_of_dev e reply hdev
    rw [hret, hout, nextResponse, if_pos hdev]
    rfl
  · rw [Bool.not_eq_true] at hdev
    rw [tfGetResponse_noconn e reply hdev]
    simp [nextResponse, hdev]

theorem firstReply_eq_nextResponse (e : Env σ) (tf : TfHandle σ) (req : Mem) :
    firstReply e tf req =
      if (tfSend e tf req).ret = 0 then nextResponse e (tfSend e tf req).tf else none := by
  rw [firstReply_eq_ite e tf req req, nextResponse_eq_ite e _ req]
  by_cases hsent : (tfSend e tf req).ret = 0
  · simp only [hsent, true_and, if_true]
  · simp only [hsent, false_and, if_false]

/-! ### Slices of file data -/

/-- The reply `tf_cmd_get_next` reads, after an acknowledgement unless that was sent ahead. -/
def nextData (e : Env σ) (tf : TfHandle σ) : Option Mem :=
  if tf.pending = 0 then firstReply e tf (Mem.ofList successPacket) else nextResponse e tf

/-- A slice that is handed out lies in the packet it comes from, and a packet that has no room for the
offset is an error. -/
structure SliceInside (e : Env σ) (tf : TfHandle σ) (buf : TfBuffer) : Prop where
  size : (tfCmdGetNext e tf buf).ret = 0 → (tfCmdGetNext e tf buf).out.size ≤ maxGetSize
  packet : (tfCmdGetNext e tf buf).ret = 0 → (tfCmdGetNext e tf buf).out.data = 16 ∧
    16 + (tfCmdGetNext e tf buf).out.size ≤ (packetLength (tfCmdGetNext e tf buf).tf.buf).toNat
  buffer : (tfCmdGetNext e tf buf).ret = 0 →
    (tfCmdGetNext e tf buf).out.data + (tfCmdGetNext e tf buf).out.size ≤ sizeofPacket
  short : ∀ reply, nextData e tf = some reply → packetCmd reply = tfMsgHddFileData →
    (packetLength reply).toNat < 16 → (tfCmdGetNext e tf buf).ret < 0

/-- A FILE_DATA packet that is read has room for its offset. -/
def OffsetCovered (e : Env σ) (tf : TfHandle σ) : Prop :=
  ∀ reply, nextData e tf = some reply → packetCmd reply = tfMsgHddFileData →
    16 ≤ (packetLength reply).toNat

theorem getNextReply_of_none (e : Env σ) (tf : TfHandle σ) (buf : TfBuffer)
    (h : nextResponse e tf = none) : (getNextReply e tf buf).ret ≠ 0 := by
  rw [nextResponse_eq_ite e tf tf.buf] at h
  simp only [getNextReply]
  generalize tfGetResponse e tf tf.buf = got at *
  by_cases hok : got.ret = 0
  · rw [if_pos hok] at h
    exact absurd h (Option.some_ne_none got.out)
  · rw [if_neg hok]
    exact hok

theorem getNextReply_of_data (e : Env σ) (tf : TfHandle σ) (buf : TfBuffer) {reply : Mem}
    (h : nextResponse e tf = some reply) (hcmd : packetCmd reply = tfMsgHddFileData) :
    (getNextReply e tf buf).ret = 0 ∧ (getNextReply e tf buf).out = dataChunk reply ∧
      (getNextReply e tf buf).tf.buf = reply := by
  have hend : packetCmd reply ≠ tfMsgHddFileEnd := by
    rw [hcmd]
    decide
  rw [nextResponse_eq_ite e tf tf.buf] at h
  simp only [getNextReply]
  generalize tfGetResponse e tf tf.buf = got at *
  have hack := (tfSendSuccess_frame e { got.tf with buf := got.out }).buf
  generalize tfSendSuccess e { got.tf with buf := got.out } = ack at *
  by_cases hok : got.ret = 0
  · rw [if_pos hok] at h
    obtain rfl := Option.some.inj h
    rw [if_pos hok, if_neg hend, if_pos hcmd]
    refine ⟨rfl, rfl, ?_⟩
    split_ifs
    · exact hack
    · exact hack
  · rw [if_neg hok] at h
    exact absurd h (Option.some_ne_none reply).symm

theorem getNextReply_of_other (e : Env σ) (tf : TfHandle σ) (buf : TfBuffer) {reply : Mem}
    (h : nextResponse e tf = some reply) (hcmd : packetCmd reply ≠ tfMsgHddFileData) :
    (getNextReply e tf buf).ret ≠ 0 := by
  rw [nextResponse_eq_ite e tf tf.buf] at h
  simp only [getNextReply]
  generalize tfGetResponse e tf tf.buf = got at *
  by_cases hok : got.ret = 0
  · rw [if_pos hok] at h
    obtain rfl := Option.some.inj h
    rw [if_pos hok, if_neg hcmd]
    split_ifs
    · exact (by decide : tfErrDone ≠ 0)
    · exact tfErrIo_neg.ne
    · exact tfErrUnexpected_neg.ne
  · rw [if_neg hok]
    exact hok

theorem nextData_eq_ite (e : Env σ) (tf : TfHandle σ) :
    nextData e tf =
      if (if tf.pending = 0 then tfSendSuccess e tf else ⟨0, tf⟩).ret = 0 then
        nextResponse e (if tf.pending = 0 then tfSendSuccess e tf else ⟨0, tf⟩).tf
      else none := by
  unfold nextData
  split
  · exact firstReply_eq_nextResponse e tf _
  · rfl

theorem tfCmdGetNext_of_data (e : Env σ) {tf : TfHandle σ} (buf : TfBuffer) {reply : Mem}
    (h : nextData e tf = some reply) (hcmd : packetCmd reply = tfMsgHddFileData) :
    (tfCmdGetNext e tf buf).ret = 0 ∧ (tfCmdGetNext e tf buf).out = dataChunk reply ∧
      (tfCmdGetNext e tf buf).tf.buf = reply := by
  rw [nextData_eq_ite] at h
  simp only [tfCmdGetNext]
  generalize (if tf.pending = 0 then tfSendSuccess e tf else ⟨0, tf⟩) = entry at *
  by_cases hentry : entry.ret = 0
  · rw [if_pos hentry] at h ⊢
    exact getNextReply_of_data e { entry.tf with pending := 0 } buf h hcmd
  · rw [if_neg hentry] at h
    exact absurd h (Option.some_ne_none reply).symm

theorem tfCmdGetNext_data (e : Env σ) {tf : TfHandle σ} {buf : TfBuffer}
    (h : (tfCmdGetNext e tf buf).ret = 0) :
    ∃ reply, nextData e tf = some reply ∧ packetCmd reply = tfMsgHddFileData := by
  rw [nextData_eq_ite]
  simp only [tfCmdGetNext] at h
  generalize (if tf.pending = 0 then tfSendSuccess e tf else ⟨0, tf⟩) = entry at *
  by_cases hentry : entry.ret = 0
  · rw [if_pos hentry] at h ⊢
    cases hnext : nextResponse e entry.tf with
    | none => exact absurd h (getNextReply_of_none e { entry.tf with pending := 0 } buf hnext)
    | some reply =>
      refine ⟨reply, rfl, ?_⟩
      by_contra hcmd
      exact getNextReply_of_other e { entry.tf with pending := 0 } buf hnext hcmd h
  · rw [if_neg hentry] at h
    exact absurd h hentry

/-- The size of a slice is taken modulo 2^16. -/
theorem size_dataChunk (reply : Mem) :
    (dataChunk reply).size = ((packetLength reply).toNat + 65520) % 65536 := by
  show (packetLength reply - 16).toNat = _
  have hlt := (packetLength reply).toNat_lt
  rw [UInt16.toNat_sub]
  have h16 : (16 : UInt16).toNat = 16 := rfl
  rw [h16]
  omega

/-- **Slices.** What `tf_cmd_get_next` hands out lies in its packet exactly if a FILE_DATA packet that it
reads has the eight bytes of the offset. -/
theorem sliceInside_iff (e : Env σ) (tf : TfHandle σ) (buf : TfBuffer) :
    SliceInside e tf buf ↔ OffsetCovered e tf := by
  constructor
  · intro h reply hreply hcmd
    by_contra hshort
    have hneg := h.short reply hreply hcmd (by omega)
    rw [(tfCmdGetNext_of_data e buf hreply hcmd).1] at hneg
    exact absurd hneg (by decide)
  · intro h
    have hslice (hret : (tfCmdGetNext e tf buf).ret = 0) :
        (tfCmdGetNext e tf buf).out.data = 16 ∧
          16 + (tfCmdGetNext e tf buf).out.size = (packetLength (tfCmdGetNext e tf buf).tf.buf).toNat := by
      obtain ⟨reply, hreply, hcmd⟩ := tfCmdGetNext_data e hret
      obtain ⟨-, hout, hbuf⟩ := tfCmdGetNext_of_data e buf hreply hcmd
      have hlength := h reply hreply hcmd
      have hlt := (packetLength reply).toNat_lt
      rw [hout, hbuf, size_dataChunk]
      refine ⟨rfl, ?_⟩
      omega
    have hlt := (packetLength (tfCmdGetNext e tf buf).tf.buf).toNat_lt
    refine ⟨fun hret => ?_, fun hret => ?_, fun hret => ?_, fun reply hreply hcmd hshort => ?_⟩
    · have hsize := (hslice hret).2
      simp only [maxGetSize]
      omega
    · exact ⟨(hslice hret).1, le_of_eq (hslice hret).2⟩
    · obtain ⟨hdata, hsize⟩ := hslice hret
      simp only [sizeofPacket]
      omega
    · have hlength := h reply hreply hcmd
      omega

/-- A FILE_DATA packet of only a header makes a slice of 65528 bytes. -/
theorem not_sliceInside_header :
    ¬ SliceInside ((replying (Packet.header tfMsgHddFileData)).env (Host.blank Unit))
      (TfHandle.opened () fun _ => 0) ⟨0, 0, 0⟩ := by
  intro h
  obtain ⟨reply, hreply, hreceived⟩ := firstReply_replying (Packet.header tfMsgHddFileData)
    (Host.blank Unit) (TfHandle.opened () fun _ => 0) (Mem.ofList successPacket) rfl
  have hlength := (sliceInside_iff _ _ _).mp h reply ((if_pos rfl).trans hreply) hreceived.cmd
  rw [hreceived.length] at hlength
  exact absurd hlength (by decide)

/-! ### Records of a listing -/

/-- The entries of a DIRENT packet: every record that is read lies in the packet, and every entry that is
written lies in the array. -/
structure EntriesInside (entries : TfDirEntries) (reply : Mem) : Prop where
  nonneg : 0 ≤ entries.count
  array : entries.count ≤ maxDirEntries
  packet : entries.count * sizeofTypefile ≤ ((packetLength reply).toNat : Int) - packetHeadSize
  records : ∀ i : Nat, i < entries.count →
    packetHeadSize + sizeofTypefile * (i + 1) ≤ (packetLength reply).toNat ∧ i < maxDirEntries

def DirentsInside (e : Env σ) (tf : TfHandle σ) (result : TfDirEntries) : Prop :=
  ∀ reply, nextResponse e tf = some reply → packetCmd reply = tfMsgHddDirent →
    EntriesInside (getDirents e tf result).out reply

def HeaderCovered (e : Env σ) (tf : TfHandle σ) : Prop :=
  ∀ reply, nextResponse e tf = some reply → packetCmd reply = tfMsgHddDirent →
    packetHeadSize ≤ (packetLength reply).toNat

theorem getDirents_of_dirent (e : Env σ) {tf : TfHandle σ} (result : TfDirEntries) {reply : Mem}
    (h : nextResponse e tf = some reply) (hcmd : packetCmd reply = tfMsgHddDirent) :
    (getDirents e tf result).out =
      ⟨direntCount reply, unpackEntries e reply (direntCount reply).toNat result.entry⟩ := by
  rw [nextResponse_eq_ite e tf (e.stack tf.usb)] at h
  simp only [getDirents]
  generalize tfGetResponse e tf (e.stack tf.usb) = got at *
  by_cases hok : got.ret = 0
  · rw [if_pos hok] at h
    obtain rfl := Option.some.inj h
    rw [if_pos hok, if_pos hcmd]
  · rw [if_neg hok] at h
    exact absurd h (Option.some_ne_none reply).symm

theorem entriesInside_of_header {entries : TfDirEntries} {reply : Mem}
    (h : packetHeadSize ≤ (packetLength reply).toNat) (hcount : entries.count = direntCount reply) :
    EntriesInside entries reply := by
  simp only [packetHeadSize] at h
  have hlt := (packetLength reply).toNat_lt
  rw [direntCount_eq h] at hcount
  have hrecords := Nat.div_mul_le_self ((packetLength reply).toNat - 8) sizeofTypefile
  simp only [sizeofTypefile] at hcount hrecords
  generalize ((packetLength reply).toNat - 8) / 114 = n at hcount hrecords
  refine ⟨?_, ?_, ?_, fun i hi => ?_⟩
  · omega
  · simp only [maxDirEntries]
    omega
  · simp only [sizeofTypefile, packetHeadSize]
    omega
  · simp only [sizeofTypefile, packetHeadSize, maxDirEntries]
    omega

/-- **Records.** The count of a listing is in bounds exactly if a DIRENT packet that is read has the eight
bytes of its header. -/
theorem direntsInside_iff (e : Env σ) (tf : TfHandle σ) (result : TfDirEntries) :
    DirentsInside e tf result ↔ HeaderCovered e tf := by
  constructor
  · intro h reply hreply hcmd
    have hinside := h reply hreply hcmd
    have hnonneg := hinside.nonneg
    have hpacket := hinside.packet
    simp only [sizeofTypefile, packetHeadSize] at hpacket ⊢
    omega
  · intro h reply hreply hcmd
    refine entriesInside_of_header (h reply hreply hcmd) ?_
    rw [getDirents_of_dirent e result hreply hcmd]

/-- A device that answers with eight bytes announcing four: the checksum is over nothing, and the command
word is behind the part whose bytes are exchanged. -/
def fourByteDevice : Env Unit where
  toHost := Host.blank _
  write _ _ _ bytes := (bytes.length, ())
  read _ _ _ _ := ((8, Mem.ofList [0x04, 0x00, 0x00, 0x00, 0x00, 0x00, 0x10, 0x03]), ())

/-- A DIRENT packet that announces four bytes has a count of -1205604856. -/
theorem not_direntsInside_four_bytes :
    ¬ DirentsInside fourByteDevice (TfHandle.opened () fun _ => 0) ⟨0, fun _ => ⟨0, 0, 0, [], 0, []⟩⟩ := by
  intro h
  have hlength := (direntsInside_iff _ _ _).mp h _ rfl (by decide +kernel)
  exact absurd hlength (by decide +kernel)

end Topfield
