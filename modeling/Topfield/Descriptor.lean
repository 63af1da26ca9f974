import Topfield.Dates
import Topfield.Failure

/-!
# The descriptor of a file

`tf_cmd_put` describes the file it is about to send in the same record that `tf_cmd_get` and the listings
unpack. The two agree on all fields but one: the size is stored as the host has it, and read from its most
significant byte on.
-/

namespace Topfield

open Lib

variable {σ : Type} (e : Env σ)

/-- What whoever unpacks the descriptor is to see. -/
def putDirent (path : CString) (size : UInt64) (stamp : Int) : TfDirent where
  stamp
  type := 0x66
  size
  name := path.bytes.take 94
  attrib := 0
  spill := []

/-- A size in the host's byte order, read from its other end. -/
def hostOrder (size : UInt64) : UInt64 := UInt64.ofNat (ofBE (toLE 8 size.toNat))

theorem toBE_hostOrder (size : UInt64) : toBE 8 (hostOrder size).toNat = toLE 8 size.toNat := by
  have hlt := ofBE_lt (toLE 8 size.toNat)
  have hback := toBE_ofBE (toLE 8 size.toNat)
  rw [length_toLE] at hlt hback
  have hfits : ofBE (toLE 8 size.toNat) < 2 ^ 64 := hlt
  rw [hostOrder, UInt64.toNat_ofNat', Nat.mod_eq_of_lt hfits, hback]

theorem hostOrder_eq_iff (size : UInt64) : hostOrder size = size ↔ toLE 8 size.toNat = toBE 8 size.toNat := by
  constructor
  · intro h
    rw [← toBE_hostOrder, h]
  · intro h
    have hfits : size.toNat < 256 ^ 8 := size.toNat_lt
    rw [hostOrder, h, ofBE_toBE, Nat.mod_eq_of_lt hfits]
    exact UInt64.ofNat_toNat

/-! ### The record that is sent -/

/-- The part of a path that fits into the name field. -/
def shortName (path : CString) : CString :=
  ⟨path.bytes.take 94, fun h => path.nulFree (List.mem_of_mem_take h)⟩

theorem length_shortName (path : CString) : (shortName path).bytes.length ≤ 94 :=
  List.length_take_le 94 path.bytes

def putEntry (path : CString) (size : UInt64) (stamp : Int) (typefile : Mem) : Entry where
  mjd := UInt16.ofInt (tmToMjd (e.localtime stamp))
  hour := UInt8.ofInt (e.localtime stamp).hour
  minute := UInt8.ofInt (e.localtime stamp).min
  second := UInt8.ofInt (e.localtime stamp).sec
  filetype := typeFile
  size := hostOrder size
  name := shortName path
  tail := typefile.load (14 + ((shortName path).bytes.length + 1)) (94 - (shortName path).bytes.length)
  unused := 0
  attrib := 0
  spare := 0
  width := by
    have hname := length_shortName path
    rw [Mem.length_load]
    omega

theorem putTypefile_stores (path : CString) (size : UInt64) (stamp : Int) (typefile : Mem) :
    (putTypefile e path size stamp typefile).bytes =
      ((typefile.store 0 (dateBytes (e.localtime stamp) ++ [typeFile] ++ toLE 8 size.toNat ++
        ((shortName path).bytes ++ [0]))).store 109 ([0] ++ toLE 4 0)).load 0 114 := by
  have hadjacent {m : Mem} {left : List UInt8} {n : Nat} (right : List UInt8) (hn : left.length = n) :
      (m.store 0 left).store n right = m.store 0 (left ++ right) := by
    have h := Mem.store_append m 0 left right
    rwa [Nat.zero_add, hn] at h
  have hgap (m : Mem) : (m.store 109 [0]).store 110 (toLE 4 0) = m.store 109 ([0] ++ toLE 4 0) :=
    Mem.store_append m 109 [0] (toLE 4 0)
  simp only [putTypefile, timeToTfdt_eq_store, Mem.set_eq_store]
  rw [hadjacent [typeFile] (by simp [dateBytes]), hadjacent (toLE 8 size.toNat) (by simp [dateBytes]),
    hadjacent (path.bytes.take 94 ++ [0]) (by simp [dateBytes]), hgap]
  rfl

theorem putTypefile_eq_record (path : CString) (size : UInt64) (stamp : Int) (typefile : Mem) :
    (putTypefile e path size stamp typefile).bytes = (putEntry e path size stamp typefile).record := by
  have hname := length_shortName path
  have hdate : (putEntry e path size stamp typefile).date = dateBytes (e.localtime stamp) := rfl
  have hsize : toBE 8 (putEntry e path size stamp typefile).size.toNat = toLE 8 size.toNat :=
    toBE_hostOrder size
  have hlength : (dateBytes (e.localtime stamp) ++ [typeFile] ++ toLE 8 size.toNat ++
      ((shortName path).bytes ++ [0])).length = 14 + ((shortName path).bytes.length + 1) := by
    simp [dateBytes]
    omega
  rw [putTypefile_stores]
  generalize hhead : dateBytes (e.localtime stamp) ++ [typeFile] ++ toLE 8 size.toNat ++
    ((shortName path).bytes ++ [0]) = head at hlength
  have hrest : 109 = head.length + (94 - (shortName path).bytes.length) := by omega
  calc
    ((typefile.store 0 head).store 109 ([0] ++ toLE 4 0)).load 0 114
        = (typefile.store 0 head).load 0 109 ++ ([0] ++ toLE 4 0) :=
      Mem.load_store_end (typefile.store 0 head) 0 109 ([0] ++ toLE 4 0)
    _ = head ++ typefile.load head.length (94 - (shortName path).bytes.length) ++ ([0] ++ toLE 4 0) := by
      nth_rewrite 1 [hrest]
      rw [Mem.load_add, Mem.load_store_self, Nat.zero_add, Mem.load_store_disjoint _ (.inr (by omega))]
    _ = (putEntry e path size stamp typefile).record := by
      have hzeros : toLE 4 0 = toBE 2 (0 : UInt16).toNat ++ toBE 2 (0 : UInt16).toNat := by decide
      rw [Entry.record, hdate, hsize, hlength, ← hhead, hzeros]
      simp only [List.append_assoc]
      rfl

/-- Unpacking the descriptor gives back everything but the order of the bytes of the size. -/
theorem unpackDirent_putTypefile {stamp : Int} (hdated : Dated e.toHost stamp) (path : CString)
    (size : UInt64) (typefile : Mem) {reply : Mem} {a : Nat}
    (hload : reply.load a 114 = (putTypefile e path size stamp typefile).bytes) (ha : a + 114 ≤ 0xFFFF) :
    unpackDirent e reply a = putDirent path (hostOrder size) stamp := by
  rw [putTypefile_eq_record] at hload
  have hstamp : tfdtToTime e (Mem.ofList (putEntry e path size stamp typefile).date) 0 = stamp :=
    tfdtToTime_dateBytes hdated (Mem.load_ofList_self _)
  rw [unpackDirent_record e _ hload ha, Entry.dirent, hstamp]
  rfl

/-! ### The packet that is sent -/

theorem fileStart_transfers (tf : TfHandle (σ × List Event)) (req reply : Mem) :
    let started := tfSend e.logged tf req
    let answer := tfGetResponse e.logged started.tf reply
    let call := if started.ret = 0 then
        if answer.ret = 0 ∧ packetCmd answer.out ≠ tfMsgSuccess then ⟨tfErrUnexpected, answer.tf⟩
        else answer.toCall
      else started
    transfers call.tf.usb.2 = transfers tf.usb.2 ∨
      transfers call.tf.usb.2 = transfers tf.usb.2 ++ [tfSendBytes req] := by
  have hexchange := exchange e tf req reply
  simp only
  generalize tfSend e.logged tf req = started at *
  generalize tfGetResponse e.logged started.tf _ = answer at *
  cases hexchange with
  | unsent hsent _ hlog =>
    rw [if_neg (ne_of_lt hsent)]
    exact hlog.transfers_eq
  | rejected hsent hret _ hread _ hlog =>
    rw [if_pos hsent, if_neg fun h => ne_of_lt hret h.1]
    exact .inr (hlog ▸ transfers_answeredLog hread)
  | accepted hsent hret _ hread _ hlog =>
    rw [if_pos hsent]
    split_ifs
    · exact .inr (hlog ▸ transfers_answeredLog hread)
    · exact .inr (hlog ▸ transfers_answeredLog hread)

theorem tfCmdPut_descriptor (tf : TfHandle σ) (path : CString) (size : UInt64) (stamp : Int)
    (offset : UInt64) {bytes : List UInt8}
    (h : (transfers (tfCmdPut e.logged tf.logging path size stamp offset).tf.usb.2)[1]? = some bytes) :
    ∃ req typefile, bytes =
      tfSendBytes ((Request.fileStart (putTypefile e path size stamp typefile)).build req) := by
  revert h
  simp only [tfCmdPut]
  generalize (Request.filePut path offset).build (e.logged.stack tf.logging.usb) = req
  have hexchange := exchange e tf.logging req (e.logged.stack (tfSend e.logged tf.logging req).tf.usb)
  have hempty : transfers tf.logging.usb.2 = [] := rfl
  generalize tfSend e.logged tf.logging req = sent at *
  generalize tfGetResponse e.logged sent.tf _ = got at *
  cases hexchange with
  | unsent hsent _ hlog =>
    rw [if_neg (ne_of_lt hsent)]
    rcases hlog.transfers_eq with htransfers | htransfers
    · simp [htransfers, hempty]
    · simp [htransfers, hempty]
  | rejected hsent hret _ hread _ hlog =>
    rw [if_pos hsent, if_neg (ne_of_lt hret)]
    simp [hlog, transfers_answeredLog hread, hempty]
  | accepted hsent hret _ hread _ hlog =>
    have hone : transfers got.tf.usb.2 = [tfSendBytes req] := by
      rw [hlog, transfers_answeredLog hread, hempty]
      rfl
    rw [if_pos hsent, if_pos hret]
    by_cases hsuccess : packetCmd got.out = tfMsgSuccess
    · have hsecond := fileStart_transfers e got.tf
        ((Request.fileStart (putTypefile e.logged path size stamp (e.logged.stack got.tf.usb))).build req)
        got.out
      rw [if_pos hsuccess]
      intro h
      refine ⟨req, e.logged.stack got.tf.usb, ?_⟩
      rcases hsecond with htransfers | htransfers
      · simp [htransfers, hone] at h
      · rw [htransfers, hone] at h
        exact (Option.some.inj h).symm
    · rw [if_neg hsuccess]
      split_ifs
      · simp [hone]
      · simp [hone]

/-- The packet is accepted as a FILE_START, and its descriptor unpacked as the given one. -/
def DescriptorRead (nocrc : Int) (bytes : List UInt8) (dirent : TfDirent) : Prop :=
  (checkResponse nocrc bytes.length (Mem.ofList bytes)).1 = tfErrNone ∧
    packetCmd (checkResponse nocrc bytes.length (Mem.ofList bytes)).2 = tfMsgHddFileStart ∧
    unpackDirent e (checkResponse nocrc bytes.length (Mem.ofList bytes)).2 8 = dirent

theorem descriptorRead_sent (nocrc : Int) {stamp : Int} (hdated : Dated e.toHost stamp) (path : CString)
    (size : UInt64) (typefile req : Mem) :
    DescriptorRead e nocrc
      (tfSendBytes ((Request.fileStart (putTypefile e path size stamp typefile)).build req))
      (putDirent path (hostOrder size) stamp) := by
  generalize htypefile : putTypefile e path size stamp typefile = record
  have hfits := fits_fileStart record
  have hpayload : (Request.fileStart record).payload = record.bytes := rfl
  have hlength : record.bytes.length = 114 := record.length
  obtain ⟨tail, -, hbytes⟩ := Request.transfer hfits req
  rw [hpayload] at hbytes
  have hload := Mem.load_ofList (wireImage (Request.fileStart record).cmd record.bytes) tail
  rw [length_wireImage, ← hbytes] at hload
  have hret : ((8 + record.bytes.length : Nat) : Int) ≤
      (tfSendBytes ((Request.fileStart record).build req)).length := by
    rw [hbytes, List.length_append, length_wireImage, evenLength]
    omega
  obtain ⟨herror, hreceived⟩ := checkResponse_wireImage nocrc _ hfits hload hret
  have hdata := hreceived.data
  rw [hpayload, hlength] at hdata
  rw [← htypefile] at hdata
  refine ⟨herror, hreceived.cmd, ?_⟩
  rw [← htypefile]
  exact unpackDirent_putTypefile e hdated path size typefile hdata (by omega)

theorem putDirent_size {path : CString} {size size' : UInt64} {stamp : Int}
    (h : putDirent path size stamp = putDirent path size' stamp) : size = size' :=
  congrArg TfDirent.size h

/-- **Descriptors.** Unpacking the FILE_START that a put sends gives back the path, the size and the stamp
exactly if the bytes of the size are the same from either end. -/
theorem descriptorRead_iff (tf : TfHandle σ) (path : CString) (size : UInt64) (stamp : Int) (offset : UInt64)
    {bytes : List UInt8} (hdated : Dated e.toHost stamp)
    (hsent : (transfers (tfCmdPut e.logged tf.logging path size stamp offset).tf.usb.2)[1]? = some bytes) :
    DescriptorRead e tf.nocrc bytes (putDirent path size stamp) ↔ toLE 8 size.toNat = toBE 8 size.toNat := by
  obtain ⟨req, typefile, rfl⟩ := tfCmdPut_descriptor e tf path size stamp offset hsent
  have hread := descriptorRead_sent e tf.nocrc hdated path size typefile req
  rw [← hostOrder_eq_iff]
  constructor
  · intro h
    exact putDirent_size (hread.2.2.symm.trans h.2.2)
  · intro h
    rwa [h] at hread

/-- A host on which it is noon on 1 July 2005, UTC. -/
def noonHost : Host Unit where
  stack _ := fun _ => 0
  localtime _ := ⟨0, 0, 12, 1, 6, 105⟩
  mktime _ := 1120219200

theorem dated_noonHost : Dated noonHost 1120219200 :=
  ⟨⟨by decide, by decide, by decide, by decide, by decide⟩, ⟨.inl (by decide), .inl (by decide)⟩, rfl⟩

/-- A put of `/a` to a device that answers everything with SUCCESS. -/
def noonPut (size : UInt64) : Call (Unit × List Event) :=
  tfCmdPut ((replying (Packet.header tfMsgSuccess)).env noonHost).logged
    (TfHandle.opened () fun _ => 0).logging ⟨[0x2F, 0x61], by decide⟩ size 1120219200 0

theorem descriptorRead_iff_empty :
    ∃ bytes, (transfers (noonPut 0).tf.usb.2)[1]? = some bytes ∧
      (DescriptorRead ((replying (Packet.header tfMsgSuccess)).env noonHost) 0 bytes
          (putDirent ⟨[0x2F, 0x61], by decide⟩ 0 1120219200) ↔
        toLE 8 (0 : UInt64).toNat = toBE 8 (0 : UInt64).toNat) := by
  have hsome : (transfers (noonPut 0).tf.usb.2)[1]?.isSome := by
    decide +kernel
  obtain ⟨bytes, hbytes⟩ := Option.isSome_iff_exists.mp hsome
  refine ⟨bytes, hbytes, ?_⟩
  exact descriptorRead_iff ((replying (Packet.header tfMsgSuccess)).env noonHost)
    (TfHandle.opened () fun _ => 0) ⟨[0x2F, 0x61], by decide⟩ 0 1120219200 0 dated_noonHost hbytes

/-- A file of one byte is described as one of 2^56 bytes. -/
theorem not_descriptorRead_one :
    ∃ bytes, (transfers (noonPut 1).tf.usb.2)[1]? = some bytes ∧
      ¬ DescriptorRead ((replying (Packet.header tfMsgSuccess)).env noonHost) 0 bytes
          (putDirent ⟨[0x2F, 0x61], by decide⟩ 1 1120219200) := by
  have hsome : (transfers (noonPut 1).tf.usb.2)[1]?.isSome := by
    decide +kernel
  obtain ⟨bytes, hbytes⟩ := Option.isSome_iff_exists.mp hsome
  refine ⟨bytes, hbytes, fun h => ?_⟩
  obtain ⟨req, typefile, rfl⟩ := tfCmdPut_descriptor ((replying (Packet.header tfMsgSuccess)).env noonHost)
    (TfHandle.opened () fun _ => 0) ⟨[0x2F, 0x61], by decide⟩ 1 1120219200 0 hbytes
  have hread := descriptorRead_sent ((replying (Packet.header tfMsgSuccess)).env noonHost) 0 dated_noonHost
    ⟨[0x2F, 0x61], by decide⟩ 1 typefile req
  have hsize : hostOrder 1 = 1 := putDirent_size (hread.2.2.symm.trans h.2.2)
  exact absurd hsize (by decide)

end Topfield
