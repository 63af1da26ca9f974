import Topfield.Peer

/-!
# Listing a directory

The records of a directory in the device's format, and a device that answers HDD_DIR and every SUCCESS
with the next DIRENT packet, DIREND the last. A packet is decoded by the call that reads it and
acknowledged by the next one; the last one is acknowledged by the call that reads it.
-/

namespace Topfield

open Lib

/-! ### Records -/

/-- A directory entry as a device stores it. `tail` is what is left in the name field behind the
terminator, and `spare` the half of the attribute that is not read. -/
structure Entry where
  mjd : UInt16
  hour : UInt8
  minute : UInt8
  second : UInt8
  filetype : UInt8
  size : UInt64
  name : CString
  tail : List UInt8
  unused : UInt8
  attrib : UInt16
  spare : UInt16
  width : name.bytes.length + tail.length = 94

namespace Entry

def date (entry : Entry) : List UInt8 :=
  toBE 2 entry.mjd.toNat ++ [entry.hour, entry.minute, entry.second]

def record (entry : Entry) : List UInt8 :=
  entry.date ++ ([entry.filetype] ++ (toBE 8 entry.size.toNat ++
    ((entry.name.bytes ++ [0]) ++ (entry.tail ++ ([entry.unused] ++
      (toBE 2 entry.attrib.toNat ++ toBE 2 entry.spare.toNat))))))

def dirent {σ : Type} (e : Env σ) (entry : Entry) : TfDirent where
  stamp := tfdtToTime e (Mem.ofList entry.date) 0
  type := if entry.filetype = typeDir then 0x64 else 0x66
  size := entry.size
  name := entry.name.bytes
  attrib := entry.attrib.toUInt32
  spill := []

theorem length_date (entry : Entry) : entry.date.length = 5 := by
  simp [date]

theorem length_record (entry : Entry) : entry.record.length = 114 := by
  have hwidth := entry.width
  simp only [record, List.length_append, length_date, length_toBE, List.length_singleton]
  omega

end Entry

theorem getU16_eq {m m' : Mem} {a a' : Nat} (h : m.load a 2 = m'.load a' 2) : getU16 m a = getU16 m' a' := by
  apply UInt16.toNat_inj.mp
  rw [getU16_toNat, getU16_toNat, h]

theorem tfdtToTime_eq {σ : Type} (e : Env σ) {m m' : Mem} {a a' : Nat}
    (h : m.load a 5 = m'.load a' 5) : tfdtToTime e m a = tfdtToTime e m' a' := by
  have hbyte (i : Nat) (hi : i < 5) : m (a + i) = m' (a' + i) := by
    have hget := congrArg (fun bytes => bytes[i]?) h
    simpa [hi] using hget
  have hmjd : getU16 m a = getU16 m' a' :=
    getU16_eq (Mem.load_congr fun i hi => hbyte i (by omega))
  simp only [tfdtToTime, tfdtToTm, hmjd, hbyte 2 (by decide), hbyte 3 (by decide), hbyte 4 (by decide)]

/-- A record in a packet is read as the entry it was made from. -/
theorem unpackDirent_record {σ : Type} (e : Env σ) {m : Mem} {a : Nat} (entry : Entry)
    (h : m.load a 114 = entry.record) (ha : a + 114 ≤ 0xFFFF) :
    unpackDirent e m a = entry.dirent e := by
  have hwidth := entry.width
  rw [Entry.record] at h
  obtain ⟨hdate, h⟩ := Mem.load_split h
  obtain ⟨htype, h⟩ := Mem.load_split h
  obtain ⟨hsize, h⟩ := Mem.load_split h
  obtain ⟨hname, h⟩ := Mem.load_split h
  obtain ⟨-, h⟩ := Mem.load_split h
  obtain ⟨-, hattrib⟩ := Mem.load_split h
  simp only [Entry.length_date, length_toBE, List.length_singleton, Nat.add_assoc, Nat.reduceAdd]
    at hdate htype hsize hname hattrib
  have hfields : 14 + ((entry.name.bytes ++ [0]).length + (entry.tail.length + 1)) = 110 := by
    rw [List.length_append, List.length_singleton]
    omega
  rw [hfields] at hattrib
  have hstamp : tfdtToTime e m a = tfdtToTime e (Mem.ofList entry.date) 0 := by
    apply tfdtToTime_eq
    rw [hdate, ← entry.length_date, Mem.load_ofList_self]
  have hsize' : getU64 m (a + 6) = entry.size := by
    apply UInt64.toNat_inj.mp
    rw [getU64_toNat, hsize, ofBE_toBE]
    exact Nat.mod_eq_of_lt entry.size.toNat_lt
  have hattrib' : getU16 m (a + 110) = entry.attrib := by
    apply UInt16.toNat_inj.mp
    have hlow := Mem.load_prefix hattrib
    rw [length_toBE] at hlow
    rw [getU16_toNat, hlow, ofBE_toBE]
    exact Nat.mod_eq_of_lt entry.attrib.toNat_lt
  have hname' : cString m (a + 14) (sizeofPacket - (a + 14)) = entry.name.bytes := by
    refine cString_eq entry.name.nulFree hname ?_
    have hpacket : sizeofPacket = 0x10000 := rfl
    omega
  have hshort : entry.name.bytes.length < 96 := by omega
  simp only [unpackDirent, Entry.dirent]
  rw [hstamp, load_one htype, hsize', hname', hattrib', direntName_of_lt hshort,
    List.drop_of_length_le (Nat.le_of_lt hshort)]

/-! ### The device -/

structure Batch where
  entries : List Entry
  fits : 8 + 114 * entries.length ≤ 0xFFFF

def Batch.payload (batch : Batch) : List UInt8 := (batch.entries.map Entry.record).flatten

theorem Batch.length_payload (batch : Batch) : batch.payload.length = 114 * batch.entries.length := by
  rw [Batch.payload, length_flatten_of_forall (k := 114), List.length_map]
  simp [Entry.length_record]

def Batch.packet (batch : Batch) : Packet where
  cmd := tfMsgHddDirent
  payload := batch.payload
  fits := by
    rw [batch.length_payload]
    exact batch.fits

def direndPacket : Packet := .header tfMsgHddDirend

def direntPackets (batches : List Batch) : List Packet := batches.map Batch.packet ++ [direndPacket]

/-- The entries a caller finds in the result of a call that returned 0. -/
def TfDirEntries.listed (entries : TfDirEntries) : List TfDirent :=
  (List.range entries.count.toNat).map entries.entry

/-- A caller that goes on with `tf_cmd_dir_next`, at most `n` times, until it returns non-zero. -/
def listNext {σ : Type} (e : Env σ) : Nat → CallOut σ TfDirEntries → List TfDirent × CallOut σ TfDirEntries
  | 0, call => ([], call)
  | n + 1, call =>
    if call.ret = 0 then
      let rest := listNext e n (tfCmdDirNext e call.tf call.out)
      (call.out.listed ++ rest.1, rest.2)
    else
      ([], call)

def listDirectory {σ : Type} (e : Env σ) (n : Nat) (tf : TfHandle σ) (path : CString)
    (result : TfDirEntries) : List TfDirent × CallOut σ TfDirEntries :=
  listNext e n (tfCmdDirFirst e tf path result)

abbrev listingSource (stale : Source → Mem) : Peer Source :=
  source (fun cmd => cmd = tfMsgHddDir ∨ cmd = tfMsgSuccess) (fun _ => false) stale

variable {stale : Source → Mem} {host : Host Source} {tf : TfHandle (Source × List Event)}

theorem direntCount_received {reply : Mem} {batch : Batch}
    (h : Received reply tfMsgHddDirent batch.payload) :
    direntCount reply = batch.entries.length := by
  have hfits := batch.fits
  have hlength := h.length
  rw [batch.length_payload] at hlength
  rw [direntCount_eq (by omega), hlength, Nat.add_sub_cancel_left, Nat.mul_div_cancel_left _ (by decide)]

theorem listed_received {σ : Type} (e : Env σ) {reply : Mem} {batch : Batch} (entry : Nat → TfDirent)
    (h : Received reply tfMsgHddDirent batch.payload) :
    TfDirEntries.listed ⟨direntCount reply, unpackEntries e reply (direntCount reply).toNat entry⟩ =
      batch.entries.map (Entry.dirent e) := by
  have hfits := batch.fits
  have hdata := h.data
  rw [batch.length_payload, Batch.payload] at hdata
  have hcount : (direntCount reply).toNat = batch.entries.length := by
    rw [direntCount_received h, Int.toNat_natCast]
  simp only [TfDirEntries.listed, hcount]
  apply List.ext_getElem (by simp)
  intro i hi _
  simp only [List.length_map, List.length_range] at hi
  rw [List.getElem_map, List.getElem_map, List.getElem_range, unpackEntries, if_pos hi]
  show _ = (Entry.dirent e batch.entries[i]).alone
  apply congrArg
  apply unpackDirent_record
  · rw [← List.length_map Entry.record] at hdata hi
    rw [Mem.load_flatten (by simp [Entry.length_record]) hdata i hi, List.getElem_map]
  · show 8 + 114 * i + 114 ≤ _
    omega

/-! ### The calls -/

/-- The state in which a packet is read: `packets` are still to come and the first of them is owed. -/
structure Announced (packets : List Packet) (log : List Event) (tf : TfHandle (Source × List Event)) :
    Prop where
  dev : tf.dev = true
  queue : tf.usb.1.queue = packets
  credit : tf.usb.1.credit = 1
  log : tf.usb.2 = log

theorem getDirents_batch {log : List Event} {batch : Batch} {rest : List Packet}
    (stale : Source → Mem) (host : Host Source) (result : TfDirEntries)
    (h : Announced (batch.packet :: rest) log tf) :
    let e := ((listingSource stale).env host).logged
    let call := getDirents e tf result
    call.ret = tfErrNone ∧ call.out.listed = batch.entries.map (Entry.dirent e) ∧
      ∃ log', deliveries successPacket log' = deliveries successPacket log + 1 ∧
        Announced rest log' (tfSendSuccess e call.tf).tf ∧ (tfSendSuccess e call.tf).ret = tfErrNone := by
  intro e call
  obtain ⟨hdev, hqueue, hcredit, rfl⟩ := h
  obtain ⟨out, tf', ret, content, hgot, hreceived, hdev', -, husb⟩ :=
    tfGetResponse_source (fun cmd => cmd = tfMsgHddDir ∨ cmd = tfMsgSuccess) (fun _ => false) stale host
      (e.stack tf.usb) hdev rfl hqueue hcredit
  have hcmd : packetCmd out = tfMsgHddDirent := hreceived.cmd
  simp only [call, getDirents, e, hgot, hcmd, if_true]
  rw [tfSendSuccess_source (by decide) hdev' husb rfl]
  refine ⟨trivial, listed_received e result.entry hreceived, _, ?_, ⟨hdev', rfl, rfl, rfl⟩, rfl⟩
  rw [deliveries_append, deliveries_append]
  rfl

theorem getDirents_end {log : List Event} {rest : List Packet} (stale : Source → Mem)
    (host : Host Source) (result : TfDirEntries) (h : Announced (direndPacket :: rest) log tf) :
    let call := getDirents ((listingSource stale).env host).logged tf result
    call.ret = tfErrDone ∧
      deliveries successPacket call.tf.usb.2 = deliveries successPacket log + 1 := by
  intro call
  obtain ⟨hdev, hqueue, hcredit, rfl⟩ := h
  obtain ⟨out, tf', ret, content, hgot, hreceived, hdev', -, husb⟩ :=
    tfGetResponse_source (fun cmd => cmd = tfMsgHddDir ∨ cmd = tfMsgSuccess) (fun _ => false) stale host
      (((listingSource stale).env host).logged.stack tf.usb) hdev rfl hqueue hcredit
  have hcmd : packetCmd out = tfMsgHddDirend := hreceived.cmd
  have hdirent : tfMsgHddDirend ≠ tfMsgHddDirent := by decide
  simp only [call, getDirents, hgot, hcmd, if_neg hdirent, if_true]
  rw [tfSendSuccess_source (by decide) hdev' husb rfl]
  refine ⟨trivial, ?_⟩
  rw [deliveries_append, deliveries_append]
  rfl

theorem listNext_getDirents {log : List Event} (stale : Source → Mem) (host : Host Source)
    (batches : List Batch) (n : Nat) (hn : batches.length < n) (result : TfDirEntries)
    (h : Announced (direntPackets batches) log tf) :
    let e := ((listingSource stale).env host).logged
    let run := listNext e n (getDirents e tf result)
    run.1 = (batches.flatMap Batch.entries).map (Entry.dirent e) ∧ run.2.ret = tfErrDone ∧
      deliveries successPacket run.2.tf.usb.2 =
        deliveries successPacket log + (batches.length + 1) := by
  intro e run
  induction batches generalizing n tf log result with
  | nil =>
    obtain ⟨n, rfl⟩ := Nat.exists_eq_succ_of_ne_zero (Nat.ne_of_gt (Nat.zero_lt_of_lt hn))
    obtain ⟨hret, hcount⟩ := getDirents_end stale host result h
    have hnot : (getDirents e tf result).ret ≠ 0 := by
      rw [hret]
      decide
    simp only [run, listNext, if_neg hnot]
    exact ⟨rfl, hret, hcount⟩
  | cons batch rest ih =>
    obtain ⟨n, rfl⟩ := Nat.exists_eq_succ_of_ne_zero (Nat.ne_of_gt (Nat.zero_lt_of_lt hn))
    obtain ⟨hret, hlisted, log', hcount, hnext, hsent⟩ := getDirents_batch stale host result h
    obtain ⟨hentries, hdone, htotal⟩ :=
      ih n (Nat.lt_of_succ_lt_succ hn) (getDirents e tf result).out hnext
    simp only [run, listNext, tfCmdDirNext]
    rw [if_pos hret, if_pos hsent]
    refine ⟨?_, hdone, ?_⟩
    · rw [hlisted, hentries, List.flatMap_cons, List.map_append]
    · rw [htotal, hcount, List.length_cons]
      omega

theorem deliveries_of_wireCmd_ne {bytes : List UInt8} (ret : Int) (h : wireCmd bytes ≠ tfMsgSuccess) :
    deliveries successPacket [.wrote bytes ret] = 0 := by
  rw [deliveries, List.countP_eq_zero]
  intro ev hev
  obtain rfl : ev = .wrote bytes ret := by simpa using hev
  rw [decide_eq_true_eq]
  rintro ⟨rfl, -⟩
  exact h wireCmd_success

theorem tfCmdDirFirst_source {tf : TfHandle Source} {path : CString} {packets : List Packet}
    (stale : Source → Mem) (host : Host Source) (result : TfDirEntries) (hdev : tf.dev = true)
    (hfits : (Request.dir path).Fits) (hqueue : tf.usb.queue = packets) (hcredit : tf.usb.credit = 0) :
    let e := ((listingSource stale).env host).logged
    ∃ tf' log, tfCmdDirFirst e tf.logging path result = getDirents e tf' result ∧
      Announced packets log tf' ∧ deliveries successPacket log = 0 := by
  intro e
  have hcmd : wireCmd (tfSendBytes ((Request.dir path).build (e.stack tf.logging.usb))) = tfMsgHddDir :=
    wireCmd_build hfits _
  have hdev' : tf.logging.dev = true := hdev
  have hsent := tfSend_source (fun cmd => cmd = tfMsgHddDir ∨ cmd = tfMsgSuccess) (fun _ => false) stale
    host (decide_eq_true (.inl hcmd)) hdev' rfl rfl
  have hcredit' : tf.usb.credit + 1 = 1 := by rw [hcredit]
  refine ⟨(tfSend e tf.logging ((Request.dir path).build (e.stack tf.logging.usb))).tf, _, ?_,
    ⟨?_, ?_, ?_, rfl⟩, ?_⟩
  · simp only [tfCmdDirFirst, e]
    rw [hsent, if_pos rfl]
  · rw [hsent]
    exact hdev
  · rw [hsent]
    exact hqueue
  · rw [hsent]
    exact hcredit'
  · rw [hsent]
    exact deliveries_of_wireCmd_ne _ (ne_of_eq_of_ne hcmd (by decide))

/-- **Directory listings.** However the entries are split into packets, a caller that goes on until a
call returns non-zero gets all of them in order, each once, is told that there are no more, and has sent
one SUCCESS for every packet. -/
theorem listDirectory_complete (batches : List Batch) (stale : Source → Mem) (host : Host Source)
    (tf : TfHandle Source) (path : CString) (result : TfDirEntries) (n : Nat) (hn : batches.length < n)
    (hdev : tf.dev = true) (hfits : (Request.dir path).Fits)
    (hqueue : tf.usb.queue = direntPackets batches) (hcredit : tf.usb.credit = 0) :
    let e := (listingSource stale).env host
    let run := listDirectory e.logged n tf.logging path result
    run.1 = (batches.flatMap Batch.entries).map (Entry.dirent e) ∧ run.2.ret = tfErrDone ∧
      deliveries successPacket run.2.tf.usb.2 = batches.length + 1 := by
  intro e run
  obtain ⟨tf', log, hfirst, hannounced, hnone⟩ :=
    tfCmdDirFirst_source stale host result hdev hfits hqueue hcredit
  obtain ⟨hentries, hdone, hcount⟩ := listNext_getDirents stale host batches n hn result hannounced
  rw [← hfirst] at hentries hdone hcount
  rw [hnone, Nat.zero_add] at hcount
  exact ⟨hentries, hdone, hcount⟩

/-- A directory and a file with a name of full length, in two packets with an empty one between. -/
theorem listDirectory_complete_two_entries :
    let movies : Entry := ⟨0xD2F1, 20, 15, 0, typeDir, 0, ⟨[0x4D], by decide⟩, List.replicate 93 0x20, 0,
      0, 0, by decide⟩
    let film : Entry := ⟨0xD2F2, 9, 30, 59, typeFile, 0x100000001, ⟨List.replicate 94 0x66, by decide⟩, [],
      7, 0x2041, 3, by decide⟩
    let batches : List Batch := [⟨[movies], by decide⟩, ⟨[], by decide⟩, ⟨[film], by decide⟩]
    let e := (listingSource fun _ _ => 0xAA).env (Host.blank Source)
    let tf := TfHandle.opened (Source.mk (direntPackets batches) 0 0) fun _ => 0
    let run := listDirectory e.logged 4 tf.logging ⟨[0x2F], by decide⟩ ⟨0, fun _ => ⟨0, 0, 0, [], 0, []⟩⟩
    run.1 = (batches.flatMap Batch.entries).map (Entry.dirent e) ∧ run.2.ret = tfErrDone ∧
      deliveries successPacket run.2.tf.usb.2 = batches.length + 1 :=
  listDirectory_complete _ _ _ _ _ _ _ (by decide) rfl (by decide) rfl rfl

end Topfield
