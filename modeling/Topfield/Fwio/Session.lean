import Topfield.Fwio.Framing
import Topfield.Lib.Reach

/-!
# Sending firmware

The boot loader asks for every block of the firmware with REQ_DATA, and the caller answers each request with
`tf_fw_upload_next`. What was asked for last is kept by the caller, in `tf_fw_data_t`.
-/

namespace Topfield

open Lib

namespace Fwio

structure TfFwData where
  seq : UInt32
  len : UInt32
  offset : UInt64
deriving DecidableEq

section Commands

variable {σ : Type} (e : Env σ)

/-- Wait for a request and fill in `fwData` with it. -/
def tfWaitForReqData (tf : TfHandle σ) (fwData : TfFwData) : CallOut σ TfFwData :=
  let got := tfGetResponse e tf (e.stack tf.usb)
  if got.ret ≠ 0 then
    { ret := -1, tf := got.tf, out := fwData }
  else if packetCmd got.out = tfFwReqData then
    { ret := 0
      tf := got.tf
      out :=
        { seq := (packetSeq got.out).toUInt32
          len := (getU16 got.out 8).toUInt32
          offset := (getU24 got.out 10).toUInt64 } }
  else if packetCmd got.out = tfFwEnd then
    { ret := 1, tf := got.tf, out := fwData }
  else
    { ret := -1, tf := got.tf, out := fwData }

def tfFwUpload (tf : TfHandle σ) (fwData : TfFwData) : CallOut σ TfFwData :=
  let sent := tfSend e tf (tfReqDone (tfReqInit (e.stack tf.usb) tfFwPcToStb 0))
  if sent.ret = 0 then
    let got := tfGetResponse e sent.tf (e.stack sent.tf.usb)
    if got.ret ≠ 0 ∨ packetCmd got.out ≠ tfFwId then
      { ret := -1, tf := got.tf, out := fwData }
    else
      tfWaitForReqData e got.tf fwData
  else
    { ret := -1, tf := sent.tf, out := fwData }

def tfFwUploadNext (tf : TfHandle σ) (buf : List UInt8) (fwData : TfFwData) : CallOut σ TfFwData :=
  if maxDataSize < buf.length then
    { ret := -1, tf, out := fwData }
  else
    let req := tfReqInit (e.stack tf.usb) tfFwData fwData.seq.toUInt8
    let sent := tfSend e tf (tfReqDone (tfReqPutdata req buf))
    if sent.ret ≠ 0 then
      { ret := -1, tf := sent.tf, out := fwData }
    else
      tfWaitForReqData e sent.tf fwData

end Commands

/-! ### Runs -/

inductive FwCall
  | upload
  | next (buf : List UInt8)

def FwCall.run {σ : Type} (e : Env σ) (tf : TfHandle σ) (fwData : TfFwData) : FwCall → CallOut σ TfFwData
  | .upload => tfFwUpload e tf fwData
  | .next buf => tfFwUploadNext e tf buf fwData

/-- What was read, with the number of bytes of each transfer. -/
def arrivals (log : List Event) : List (Int × Mem) :=
  log.filterMap fun
    | .wrote _ _ => none
    | .read ret content => some (ret, content)

/-- What a call has read where it waits for a request, behind the ID that `tf_fw_upload` reads first. -/
def FwCall.arrived (log : List Event) : FwCall → List (Int × Mem)
  | .upload => (arrivals log).tail
  | .next _ => arrivals log

/-- The packet of a transfer that `tf_get_response` accepts. -/
def acceptedPacket (r : Int × Mem) : Option Mem := if checkResponse r.1 r.2 = 0 then some r.2 else none

/-- The packets accepted where a call waits for a request. -/
def FwCall.answers (c : FwCall) (log : List Event) : List Mem := (c.arrived log).filterMap acceptedPacket

/-- The REQ_DATA among them. -/
def FwCall.accepted (c : FwCall) (log : List Event) : Option Mem :=
  (c.answers log).find? fun m => packetCmd m = tfFwReqData

/-- The caller's copy of a request. -/
structure Holds (fwData : TfFwData) (m : Mem) : Prop where
  seq : fwData.seq.toNat = (packetSeq m).toNat
  len : fwData.len.toNat = ofBE (m.load 8 2)
  offset : fwData.offset.toNat = ofBE (m.load 10 3)

theorem Holds.unique {fwData other : TfFwData} {m : Mem} (h : Holds fwData m) (hother : Holds other m) :
    fwData = other := by
  obtain ⟨seq, len, offset⟩ := fwData
  obtain ⟨seq', len', offset'⟩ := other
  obtain rfl : seq = seq' := UInt32.toNat_inj.mp (h.seq.trans hother.seq.symm)
  obtain rfl : len = len' := UInt32.toNat_inj.mp (h.len.trans hother.len.symm)
  obtain rfl : offset = offset' := UInt64.toNat_inj.mp (h.offset.trans hother.offset.symm)
  rfl

/-- The handle, the caller's `fw_data`, the REQ_DATA accepted last and what the calls returned. -/
structure FwSession (σ : Type) where
  tf : TfHandle σ
  fwData : TfFwData
  requested : Option Mem
  returned : List Int

namespace FwSession

variable {σ : Type}

def call (e : Env σ) (s : FwSession σ) (c : FwCall) : CallOut (σ × List Event) TfFwData :=
  c.run e.logged s.tf.logging s.fwData

def log (e : Env σ) (s : FwSession σ) (c : FwCall) : List Event := (s.call e c).tf.usb.2

def step (e : Env σ) (s : FwSession σ) (c : FwCall) : FwSession σ where
  tf := { (s.call e c).tf with usb := (s.call e c).tf.usb.1 }
  fwData := (s.call e c).out
  requested := (c.accepted (s.log e c)).or s.requested
  returned := s.returned ++ [(s.call e c).ret]

/-- `tf_fw_upload_next` is called once some call has returned 0. -/
def Allowed (s : FwSession σ) : FwCall → Prop
  | .upload => True
  | .next _ => 0 ∈ s.returned

def start (tf : TfHandle σ) (fwData : TfFwData) : FwSession σ := ⟨tf, fwData, none, []⟩

/-- `fw_data` holds the request that was accepted last, and one was once a call has returned 0. -/
structure Inv (s : FwSession σ) : Prop where
  requested : 0 ∈ s.returned → ∃ m, s.requested = some m
  holds : ∀ m, s.requested = some m → Holds s.fwData m

end FwSession

/-- The log of a call that sends a packet: its writes are the pieces of the padded packet, all of them or up to
the first that is not taken, and everything behind them is a read. -/
def Sends (log : List Event) (cmd seq : UInt8) (data : List UInt8) : Prop :=
  ∃ (pad : List UInt8) (ok : Bool) (sent behind : List Event), pad.length ≤ 3 ∧
    Written (pieces maxSendSize (packetImage cmd seq data ++ pad)) ok sent ∧ log = sent ++ behind ∧
    ∀ ev ∈ behind, ev.IsRead

/-- A call transmits this packet and nothing else. Without a device, or with more data than a packet has room
for, it transmits nothing. -/
def Transmits {σ : Type} (tf : TfHandle σ) (log : List Event) (cmd seq : UInt8) (data : List UInt8) : Prop :=
  if tf.dev = true ∧ data.length ≤ maxDataSize then Sends log cmd seq data else transfers log = []

/-- What a call does in a session. -/
structure Agrees {σ : Type} (e : Env σ) (s : FwSession σ) (c : FwCall) : Prop where
  result : (s.call e c).ret = 0 ∨ (s.call e c).ret = 1 ∨ (s.call e c).ret = -1
  device : (s.step e c).tf.dev = s.tf.dev
  hello : c = .upload → Transmits s.tf (s.log e c) tfFwPcToStb 0 []
  data : ∀ buf, c = .next buf →
    ∃ m, s.requested = some m ∧ Transmits s.tf (s.log e c) tfFwData (packetSeq m) buf
  filled : (s.call e c).ret = 0 → ∃ m, c.accepted (s.log e c) = some m ∧ Holds (s.call e c).out m
  ended : (s.call e c).ret = 1 → ∃ m ∈ c.answers (s.log e c), packetCmd m = tfFwEnd
  kept : (s.call e c).ret ≠ 0 → (s.call e c).out = s.fwData ∧ (s.step e c).requested = s.requested
  resent : (s.call e c).ret = -1 → ∀ buf m, s.requested = some m →
    Transmits (s.step e c).tf ((s.step e c).log e (.next buf)) tfFwData (packetSeq m) buf

/-! ### Logs -/

def readsOf (arrived : List (Int × Mem)) : List Event := arrived.map fun r => .read r.1 r.2

theorem isRead_readsOf (arrived : List (Int × Mem)) : ∀ ev ∈ readsOf arrived, ev.IsRead :=
  List.forall_mem_map.mpr fun _ _ => trivial

theorem readsOf_append (log : List Event) (arrived more : List (Int × Mem)) :
    log ++ readsOf arrived ++ readsOf more = log ++ readsOf (arrived ++ more) := by
  rw [readsOf, readsOf, readsOf, List.map_append, List.append_assoc]

theorem arrivals_append (log more : List Event) : arrivals (log ++ more) = arrivals log ++ arrivals more :=
  List.filterMap_append

theorem arrivals_written {log : List Event} (h : ∀ ev ∈ log, ¬ ev.IsRead) : arrivals log = [] := by
  refine List.filterMap_eq_nil_iff.mpr fun ev hev => ?_
  cases ev with
  | wrote _ _ => rfl
  | read _ _ => exact absurd trivial (h _ hev)

theorem arrivals_readsOf {sent : List Event} (h : ∀ ev ∈ sent, ¬ ev.IsRead) (arrived : List (Int × Mem)) :
    arrivals (sent ++ readsOf arrived) = arrived := by
  rw [arrivals_append, arrivals_written h, List.nil_append, arrivals, readsOf, List.filterMap_map]
  exact List.filterMap_some

theorem transfers_reads {log : List Event} (h : ∀ ev ∈ log, ev.IsRead) : transfers log = [] := by
  refine List.filterMap_eq_nil_iff.mpr fun ev hev => ?_
  cases ev with
  | wrote _ _ => exact (h _ hev).elim
  | read _ _ => rfl

theorem Sends.transfers_ne_nil {log : List Event} {cmd seq : UInt8} {data : List UInt8}
    (h : Sends log cmd seq data) : transfers log ≠ [] := by
  obtain ⟨_, _, sent, behind, -, hwritten, rfl, -⟩ := h
  obtain ⟨piece, -, more, -, hhead⟩ := hwritten.head
  rw [transfers_append, hhead]
  exact List.cons_ne_nil piece _

/-- Reading behind what was sent changes nothing. -/
theorem Transmits.behind {σ : Type} {tf : TfHandle σ} {log : List Event} {cmd seq : UInt8} {data : List UInt8}
    (h : Transmits tf log cmd seq data) (arrived : List (Int × Mem)) :
    Transmits tf (log ++ readsOf arrived) cmd seq data := by
  rw [Transmits] at *
  split_ifs at * with hsends
  · obtain ⟨pad, ok, sent, behind, hpad, hwritten, rfl, hreads⟩ := h
    refine ⟨pad, ok, sent, behind ++ readsOf arrived, hpad, hwritten, List.append_assoc _ _ _, ?_⟩
    exact List.forall_mem_append.mpr ⟨hreads, isRead_readsOf arrived⟩
  · rw [transfers_append, h, transfers_reads (isRead_readsOf arrived), List.append_nil]

/-! ### What a call waits for -/

/-- The result of waiting for a request, and what was read for it. -/
inductive Awaited (fwData : TfFwData) : Int → TfFwData → List (Int × Mem) → Prop
  | requested {r : Int × Mem} {filled : TfFwData} (haccepted : checkResponse r.1 r.2 = 0)
    (hcmd : packetCmd r.2 = tfFwReqData) (h : Holds filled r.2) : Awaited fwData 0 filled [r]
  | ended {r : Int × Mem} (haccepted : checkResponse r.1 r.2 = 0) (hcmd : packetCmd r.2 = tfFwEnd) :
    Awaited fwData 1 fwData [r]
  | unexpected {r : Int × Mem} (hcmd : packetCmd r.2 ≠ tfFwReqData) : Awaited fwData (-1) fwData [r]
  | refused {arrived : List (Int × Mem)} (h : ∀ r ∈ arrived, checkResponse r.1 r.2 ≠ 0) :
    Awaited fwData (-1) fwData arrived

namespace Awaited

variable {fwData filled : TfFwData} {ret : Int} {arrived : List (Int × Mem)}

theorem result (h : Awaited fwData ret filled arrived) : ret = 0 ∨ ret = 1 ∨ ret = -1 := by
  cases h with
  | requested _ _ _ => exact .inl rfl
  | ended _ _ => exact .inr (.inl rfl)
  | unexpected _ => exact .inr (.inr rfl)
  | refused _ => exact .inr (.inr rfl)

theorem of_zero (h : Awaited fwData ret filled arrived) (hret : ret = 0) :
    ∃ r, arrived = [r] ∧ checkResponse r.1 r.2 = 0 ∧ packetCmd r.2 = tfFwReqData ∧ Holds filled r.2 := by
  cases h with
  | requested haccepted hcmd h => exact ⟨_, rfl, haccepted, hcmd, h⟩
  | ended _ _ => exact absurd hret (by decide)
  | unexpected _ => exact absurd hret (by decide)
  | refused _ => exact absurd hret (by decide)

theorem of_one (h : Awaited fwData ret filled arrived) (hret : ret = 1) :
    ∃ m ∈ arrived.filterMap acceptedPacket, packetCmd m = tfFwEnd := by
  cases h with
  | requested _ _ _ => exact absurd hret (by decide)
  | ended haccepted hcmd =>
    exact ⟨_, List.mem_filterMap.mpr ⟨_, List.mem_singleton_self _, if_pos haccepted⟩, hcmd⟩
  | unexpected _ => exact absurd hret (by decide)
  | refused _ => exact absurd hret (by decide)

theorem of_ne_zero (h : Awaited fwData ret filled arrived) (hret : ret ≠ 0) :
    filled = fwData ∧ ∀ r ∈ arrived, ¬ (checkResponse r.1 r.2 = 0 ∧ packetCmd r.2 = tfFwReqData) := by
  cases h with
  | requested _ _ _ => exact absurd rfl hret
  | ended _ hcmd =>
    refine ⟨rfl, List.forall_mem_singleton.mpr fun hrequest => ?_⟩
    exact absurd (hcmd.symm.trans hrequest.2) (by decide)
  | unexpected hcmd => exact ⟨rfl, List.forall_mem_singleton.mpr fun hrequest => hcmd hrequest.2⟩
  | refused hrefused => exact ⟨rfl, fun r hr hrequest => hrefused r hr hrequest.1⟩

end Awaited

section Calls

variable {σ : Type} (e : Env σ)

/-- `tf_get_response` reads once if there is a device, and accepts or not what it reads. -/
theorem tfGetResponse_arrived (tf : TfHandle (σ × List Event)) (reply : Mem) :
    (tfGetResponse e.logged tf reply).tf.dev = tf.dev ∧
      ∃ arrived, (tfGetResponse e.logged tf reply).tf.usb.2 = tf.usb.2 ++ readsOf arrived ∧
        arrived.length ≤ 1 ∧
        (((tfGetResponse e.logged tf reply).ret = 0 ∧ ∃ ret,
            checkResponse ret (tfGetResponse e.logged tf reply).out = 0 ∧
              arrived = [(ret, (tfGetResponse e.logged tf reply).out)]) ∨
          ((tfGetResponse e.logged tf reply).ret ≠ 0 ∧ ∀ r ∈ arrived, checkResponse r.1 r.2 ≠ 0)) := by
  simp only [tfGetResponse]
  by_cases hdev : tf.dev = true
  · rw [if_pos hdev]
    refine ⟨rfl, [(e.logged.read tf.usb 0x82 tf.timeout sizeofPacket).1], rfl, Nat.le_refl 1, ?_⟩
    generalize (e.logged.read tf.usb 0x82 tf.timeout sizeofPacket).1 = r
    by_cases hret : checkResponse r.1 r.2 = 0
    · exact .inl ⟨hret, r.1, hret, rfl⟩
    · exact .inr ⟨hret, List.forall_mem_singleton.mpr hret⟩
  · rw [if_neg hdev]
    refine ⟨rfl, [], (List.append_nil _).symm, Nat.zero_le 1, .inr ⟨?_, List.forall_mem_nil _⟩⟩
    exact (by decide : (-2 : Int) ≠ 0)

/-- Waiting for a request only reads. -/
theorem tfWaitForReqData_awaited (tf : TfHandle (σ × List Event)) (fwData : TfFwData) :
    (tfWaitForReqData e.logged tf fwData).tf.dev = tf.dev ∧
      ∃ arrived, (tfWaitForReqData e.logged tf fwData).tf.usb.2 = tf.usb.2 ++ readsOf arrived ∧
        Awaited fwData (tfWaitForReqData e.logged tf fwData).ret (tfWaitForReqData e.logged tf fwData).out
          arrived := by
  obtain ⟨hdev, arrived, hlog, -, hgot⟩ := tfGetResponse_arrived e tf (e.logged.stack tf.usb)
  simp only [tfWaitForReqData]
  generalize tfGetResponse e.logged tf (e.logged.stack tf.usb) = got at *
  obtain ⟨hret, ret, haccepted, rfl⟩ | ⟨hret, hrefused⟩ := hgot
  · rw [if_neg (not_not.mpr hret)]
    by_cases hdata : packetCmd got.out = tfFwReqData
    · rw [if_pos hdata]
      refine ⟨hdev, _, hlog, .requested haccepted hdata ⟨?_, ?_, ?_⟩⟩
      · exact UInt8.toNat_toUInt32 _
      · exact (UInt16.toNat_toUInt32 _).trans (getU16_toNat _ _)
      · exact (UInt32.toNat_toUInt64 _).trans (getU24_toNat _ _)
    · rw [if_neg hdata]
      by_cases hend : packetCmd got.out = tfFwEnd
      · rw [if_pos hend]
        exact ⟨hdev, _, hlog, .ended haccepted hend⟩
      · rw [if_neg hend]
        exact ⟨hdev, _, hlog, .unexpected hdata⟩
  · rw [if_pos hret]
    exact ⟨hdev, arrived, hlog, .refused hrefused⟩

/-- A send transmits its packet and reads nothing. -/
theorem tfSend_transmits (tf : TfHandle σ) {req : Mem} {cmd seq : UInt8} {data : List UInt8}
    (himage : req.load 0 (9 + data.length) = packetImage cmd seq data) (hdata : data.length ≤ maxDataSize) :
    Transmits tf (tfSend e.logged tf.logging req).tf.usb.2 cmd seq data ∧
      (∀ ev ∈ (tfSend e.logged tf.logging req).tf.usb.2, ¬ ev.IsRead) ∧
      (tfSend e.logged tf.logging req).tf.dev = tf.dev := by
  cases hdev : tf.dev with
  | false =>
    rw [tfSend_noconn e.logged tf.logging req hdev, Transmits, hdev, if_neg fun h => Bool.false_ne_true h.1]
    exact ⟨rfl, List.forall_mem_nil _, hdev⟩
  | true =>
    obtain ⟨ok, log, hwritten, hlog, -, hdev'⟩ := tfSend_written e tf.logging req hdev
    obtain ⟨pad, hpad, hload⟩ := load_sent himage (hdata.trans_lt (by decide))
    have hlog' : (tfSend e.logged tf.logging req).tf.usb.2 = log := hlog
    rw [hload] at hwritten
    rw [hlog', Transmits, if_pos ⟨hdev, hdata⟩]
    exact ⟨⟨pad, ok, log, [], hpad, hwritten, (List.append_nil log).symm, List.forall_mem_nil _⟩,
      hwritten.not_isRead, hdev'⟩

/-! ### The calls -/

/-- What a call transmits, and what came of waiting for a request. -/
structure Handled (tf : TfHandle σ) (fwData : TfFwData) (c : FwCall) (cmd seq : UInt8) (data : List UInt8)
    (out : CallOut (σ × List Event) TfFwData) : Prop where
  transmits : Transmits tf out.tf.usb.2 cmd seq data
  awaited : Awaited fwData out.ret out.out (c.arrived out.tf.usb.2)
  device : out.tf.dev = tf.dev

theorem tfFwUpload_handled (tf : TfHandle σ) (fwData : TfFwData) :
    Handled tf fwData .upload tfFwPcToStb 0 [] (tfFwUpload e.logged tf.logging fwData) := by
  have himage := load_header_image (e.logged.stack tf.logging.usb) tfFwPcToStb 0
  have hsent := @tfSend_transmits _ e tf _ _ _ [] himage (Nat.zero_le _)
  simp only [tfFwUpload]
  generalize tfSend e.logged tf.logging _ = sent at *
  obtain ⟨htransmits, hwritten, hdev⟩ := hsent
  by_cases hret : sent.ret = 0
  · rw [if_pos hret]
    obtain ⟨hdev', first, hfirst, hone, hgot⟩ := tfGetResponse_arrived e sent.tf (e.logged.stack sent.tf.usb)
    generalize tfGetResponse e.logged sent.tf _ = got at *
    by_cases hid : got.ret ≠ 0 ∨ packetCmd got.out ≠ tfFwId
    · have hbehind : FwCall.upload.arrived got.tf.usb.2 = [] := by
        rw [FwCall.arrived, hfirst, arrivals_readsOf hwritten]
        exact List.eq_nil_of_length_eq_zero (by rw [List.length_tail]; omega)
      rw [if_pos hid]
      refine ⟨?_, ?_, hdev'.trans hdev⟩
      · simp only [hfirst]
        exact htransmits.behind first
      · simp only [hbehind]
        exact .refused (List.forall_mem_nil _)
    · obtain ⟨hzero, -⟩ := not_or.mp hid
      obtain ⟨-, ret, -, rfl⟩ := hgot.resolve_right fun h => h.1 (not_not.mp hzero)
      obtain ⟨hdev'', arrived, hlog, hawaited⟩ := tfWaitForReqData_awaited e got.tf fwData
      rw [hfirst, readsOf_append] at hlog
      rw [if_neg hid]
      refine ⟨?_, ?_, hdev''.trans (hdev'.trans hdev)⟩
      · rw [hlog]
        exact htransmits.behind _
      · rwa [hlog, FwCall.arrived, arrivals_readsOf hwritten]
  · have hbehind : FwCall.upload.arrived sent.tf.usb.2 = [] := by
      rw [FwCall.arrived, arrivals_written hwritten]
      rfl
    rw [if_neg hret]
    refine ⟨htransmits, ?_, hdev⟩
    simp only [hbehind]
    exact .refused (List.forall_mem_nil _)

theorem tfFwUploadNext_handled (tf : TfHandle σ) (buf : List UInt8) (fwData : TfFwData) :
    Handled tf fwData (.next buf) tfFwData fwData.seq.toUInt8 buf
      (tfFwUploadNext e.logged tf.logging buf fwData) := by
  simp only [tfFwUploadNext]
  by_cases hlong : maxDataSize < buf.length
  · rw [if_pos hlong]
    refine ⟨?_, .refused (List.forall_mem_nil _), rfl⟩
    rw [Transmits, if_neg fun h => Nat.not_lt.mpr h.2 hlong]
    rfl
  · rw [if_neg hlong]
    have hbuf := Nat.not_lt.mp hlong
    have himage := load_buildPacket (e.logged.stack tf.logging.usb) tfFwData fwData.seq.toUInt8 hbuf
    have hsent := tfSend_transmits e tf himage hbuf
    rw [buildPacket] at hsent
    generalize tfSend e.logged tf.logging _ = sent at *
    obtain ⟨htransmits, hwritten, hdev⟩ := hsent
    by_cases hret : sent.ret ≠ 0
    · have hnone : (FwCall.next buf).arrived sent.tf.usb.2 = [] := arrivals_written hwritten
      rw [if_pos hret]
      refine ⟨htransmits, ?_, hdev⟩
      simp only [hnone]
      exact .refused (List.forall_mem_nil _)
    · obtain ⟨hdev', arrived, hlog, hawaited⟩ := tfWaitForReqData_awaited e sent.tf fwData
      rw [if_neg hret]
      refine ⟨?_, ?_, hdev'.trans hdev⟩
      · rw [hlog]
        exact htransmits.behind arrived
      · rwa [hlog, FwCall.arrived, arrivals_readsOf hwritten]

theorem run_awaited (s : FwSession σ) (c : FwCall) :
    Awaited s.fwData (s.call e c).ret (s.call e c).out (c.arrived (s.log e c)) := by
  cases c with
  | upload => exact (tfFwUpload_handled e s.tf s.fwData).awaited
  | next buf => exact (tfFwUploadNext_handled e s.tf buf s.fwData).awaited

theorem run_device (s : FwSession σ) (c : FwCall) : (s.step e c).tf.dev = s.tf.dev := by
  cases c with
  | upload => exact (tfFwUpload_handled e s.tf s.fwData).device
  | next buf => exact (tfFwUploadNext_handled e s.tf buf s.fwData).device

theorem call_filled {s : FwSession σ} {c : FwCall} (hret : (s.call e c).ret = 0) :
    ∃ m, c.accepted (s.log e c) = some m ∧ Holds (s.call e c).out m := by
  obtain ⟨r, harrived, haccepted, hcmd, hholds⟩ := (run_awaited e s c).of_zero hret
  have hanswers : c.answers (s.log e c) = [r.2] := by
    rw [FwCall.answers, harrived]
    exact List.filterMap_cons_some (if_pos haccepted)
  refine ⟨r.2, ?_, hholds⟩
  rw [FwCall.accepted, hanswers]
  exact List.find?_cons_of_pos (decide_eq_true hcmd)

theorem accepted_eq_none {s : FwSession σ} {c : FwCall} (hret : (s.call e c).ret ≠ 0) :
    c.accepted (s.log e c) = none := by
  rw [FwCall.accepted, List.find?_eq_none]
  intro m hm hcmd
  obtain ⟨r, hr, hpacket⟩ := List.mem_filterMap.mp hm
  obtain ⟨haccepted, hm⟩ := Option.ite_none_right_eq_some.mp hpacket
  obtain rfl := Option.some.inj hm
  exact ((run_awaited e s c).of_ne_zero hret).2 r hr ⟨haccepted, of_decide_eq_true hcmd⟩

theorem call_kept {s : FwSession σ} {c : FwCall} (hret : (s.call e c).ret ≠ 0) :
    (s.call e c).out = s.fwData ∧ (s.step e c).requested = s.requested := by
  refine ⟨((run_awaited e s c).of_ne_zero hret).1, ?_⟩
  show (c.accepted (s.log e c)).or s.requested = s.requested
  rw [accepted_eq_none e hret, Option.none_or]

theorem next_transmits {s : FwSession σ} {m : Mem} (h : Holds s.fwData m) (buf : List UInt8) :
    Transmits s.tf (s.log e (.next buf)) tfFwData (packetSeq m) buf := by
  have hseq : s.fwData.seq.toUInt8 = packetSeq m := by
    apply UInt8.toNat_inj.mp
    rw [UInt32.toNat_toUInt8, h.seq]
    exact Nat.mod_eq_of_lt (packetSeq m).toNat_lt
  rw [← hseq]
  exact (tfFwUploadNext_handled e s.tf buf s.fwData).transmits

end Calls

/-! ### Every run -/

theorem inv_start {σ : Type} (tf : TfHandle σ) (fwData : TfFwData) : (FwSession.start tf fwData).Inv :=
  ⟨fun h => absurd h List.not_mem_nil, fun _ h => nomatch h⟩

theorem inv_step {σ : Type} (e : Env σ) {s : FwSession σ} (h : s.Inv) (c : FwCall) : (s.step e c).Inv := by
  by_cases hret : (s.call e c).ret = 0
  · obtain ⟨m, haccepted, hholds⟩ := call_filled e hret
    have hrequested : (s.step e c).requested = some m := by
      show (c.accepted (s.log e c)).or s.requested = some m
      rw [haccepted, Option.some_or]
    refine ⟨fun _ => ⟨m, hrequested⟩, fun m' hm' => ?_⟩
    obtain rfl := Option.some.inj (hrequested.symm.trans hm')
    exact hholds
  · obtain ⟨hout, hrequested⟩ := call_kept e hret
    refine ⟨fun hreturned => ?_, fun m hm => ?_⟩
    · rw [hrequested]
      refine h.requested ((List.mem_append.mp hreturned).resolve_right fun hlast => ?_)
      exact hret (List.mem_singleton.mp hlast).symm
    · rw [hrequested] at hm
      show Holds (s.call e c).out m
      rw [hout]
      exact h.holds m hm

/-- **Firmware sessions.** In every run, the caller's copy is the request accepted last, and each DATA packet
is sent under its sequence number. -/
theorem session_agrees {σ : Type} (e : Env σ) (tf : TfHandle σ) (fwData : TfFwData) {s : FwSession σ}
    (h : Reach (FwSession.step e) FwSession.Allowed (FwSession.start tf fwData) s) {c : FwCall}
    (hallowed : s.Allowed c) : Agrees e s c := by
  have hinv : s.Inv := h.invariant (inv_start tf fwData) fun _ c hinv _ => inv_step e hinv c
  have hawaited := run_awaited e s c
  refine ⟨hawaited.result, run_device e s c, ?_, ?_, call_filled e, hawaited.of_one, call_kept e, ?_⟩
  · rintro rfl
    exact (tfFwUpload_handled e s.tf s.fwData).transmits
  · rintro buf rfl
    obtain ⟨m, hm⟩ := hinv.requested hallowed
    exact ⟨m, hm, next_transmits e (hinv.holds m hm) buf⟩
  · intro hret buf m hm
    have hkept := (call_kept e fun hzero => absurd (hzero.symm.trans hret) (by decide)).2
    exact next_transmits e ((inv_step e hinv c).holds m (hkept.trans hm)) buf

/-- A boot loader that takes every write, and answers with its ID and then with `request`. -/
def answering (request : List UInt8) : Env Nat where
  toHost := Host.blank Nat
  write reads _ _ bytes := (bytes.length, reads)
  read reads _ _ _ :=
    let packet := if reads = 0 then packetImage tfFwId 0 [] else request
    ((packet.length, Mem.ofList packet), reads + 1)

def unasked : FwSession Nat := .start (TfHandle.opened 0 fun _ => 0) ⟨0, 0, 0⟩

theorem tfGetResponse_answering {request packet : List UInt8} {tf : TfHandle (Nat × List Event)} (reply : Mem)
    (hdev : tf.dev = true) (hpacket : (if tf.usb.1 = 0 then packetImage tfFwId 0 [] else request) = packet) :
    tfGetResponse (answering request).logged tf reply =
      { ret := checkResponse packet.length (Mem.ofList packet)
        tf := { tf with
          error := checkResponse packet.length (Mem.ofList packet)
          usb := (tf.usb.1 + 1, tf.usb.2 ++ [.read packet.length (Mem.ofList packet)]) }
        out := Mem.ofList packet } := by
  subst hpacket
  rw [tfGetResponse, if_pos hdev]
  rfl

theorem tfWaitForReqData_answering {request : List UInt8} {tf : TfHandle (Nat × List Event)} (fwData : TfFwData)
    (hdev : tf.dev = true) (hreads : tf.usb.1 ≠ 0) (hcmd : packetCmd (Mem.ofList request) = tfFwReqData)
    (haccepted : checkResponse request.length (Mem.ofList request) = 0) :
    (tfWaitForReqData (answering request).logged tf fwData).ret = 0 ∧
      arrivals (tfWaitForReqData (answering request).logged tf fwData).tf.usb.2 =
        arrivals tf.usb.2 ++ [((request.length : Int), Mem.ofList request)] := by
  rw [tfWaitForReqData, tfGetResponse_answering _ hdev (if_neg hreads)]
  simp only
  rw [haccepted, if_neg (not_not.mpr rfl), hcmd, if_pos rfl]
  exact ⟨rfl, arrivals_append _ _⟩

/-- With a HELLO that is sent and an ID for an answer, `tf_fw_upload` waits for the request. -/
theorem tfFwUpload_of_id {σ : Type} {e : Env σ} {tf : TfHandle σ} (fwData : TfFwData) {sent : Call σ}
    {got : CallOut σ Mem} (hsent : tfSend e tf (tfReqDone (tfReqInit (e.stack tf.usb) tfFwPcToStb 0)) = sent)
    (hret : sent.ret = 0) (hgot : tfGetResponse e sent.tf (e.stack sent.tf.usb) = got) (hid : got.ret = 0)
    (hcmd : packetCmd got.out = tfFwId) : tfFwUpload e tf fwData = tfWaitForReqData e got.tf fwData := by
  have hok : ¬ (got.ret ≠ 0 ∨ packetCmd got.out ≠ tfFwId) := not_or.mpr ⟨not_not.mpr hid, not_not.mpr hcmd⟩
  rw [tfFwUpload, hsent]
  simp only
  rw [if_pos hret, hgot, if_neg hok]

/-- The request is what `tf_fw_upload` reads when it waits for one, and what it tells the caller. -/
theorem upload_answering (request : List UInt8) (hcmd : packetCmd (Mem.ofList request) = tfFwReqData)
    (haccepted : checkResponse request.length (Mem.ofList request) = 0) :
    (unasked.call (answering request) .upload).ret = 0 ∧
      FwCall.upload.arrived (unasked.log (answering request) .upload) =
        [((request.length : Int), Mem.ofList request)] ∧
      Holds (unasked.call (answering request) .upload).out (Mem.ofList request) := by
  suffices hupload : (unasked.call (answering request) .upload).ret = 0 ∧
      FwCall.upload.arrived (unasked.log (answering request) .upload) =
        [((request.length : Int), Mem.ofList request)] by
    obtain ⟨r, harrived, -, -, hholds⟩ := (run_awaited (answering request) unasked .upload).of_zero hupload.1
    obtain rfl := (List.cons.inj (harrived.symm.trans hupload.2)).1
    exact ⟨hupload.1, hupload.2, hholds⟩
  have hsent := tfSend_of_le (answering request).logged unasked.tf.logging
    (tfReqDone (tfReqInit (fun _ => 0) tfFwPcToStb 0)) rfl (by decide) rfl
  have hcount := congrArg Int.ofNat (Mem.length_load (tfReqDone (tfReqInit (fun _ => 0) tfFwPcToStb 0)) 0
    (tfSendLen (tfReqDone (tfReqInit (fun _ => 0) tfFwPcToStb 0))))
  have hok : checkResponse (packetImage tfFwId 0 []).length (Mem.ofList (packetImage tfFwId 0 [])) = 0 := by decide
  have hfirst : packetCmd (Mem.ofList (packetImage tfFwId 0 [])) = tfFwId := by decide
  have hid := tfFwUpload_of_id unasked.fwData hsent (if_pos hcount : ite _ (0 : Int) (-1) = 0)
    (tfGetResponse_answering _ rfl (rfl : _ = packetImage tfFwId 0 [])) hok hfirst
  show (tfFwUpload (answering request).logged unasked.tf.logging unasked.fwData).ret = 0 ∧
    FwCall.upload.arrived (tfFwUpload (answering request).logged unasked.tf.logging unasked.fwData).tf.usb.2 = _
  rw [hid]
  refine (tfWaitForReqData_answering unasked.fwData ?_ ?_ hcmd haccepted).imp_right fun harrived => ?_
  · rfl
  · exact Nat.succ_ne_zero _
  · exact congrArg List.tail harrived

/-- A request for 512 bytes at 0x10000, with sequence number 7. -/
def firstRequest : List UInt8 := packetImage tfFwReqData 7 [2, 0, 1, 0, 0]

/-- The first block is asked for with sequence number 7 and sent. -/
theorem session_agrees_next :
    (unasked.step (answering firstRequest) .upload).fwData = ⟨7, 0x200, 0x10000⟩ ∧
      Agrees (answering firstRequest) (unasked.step (answering firstRequest) .upload) (.next [1, 2, 3]) := by
  obtain ⟨hret, -, hholds⟩ := upload_answering firstRequest (by decide) (by decide)
  have hreach : Reach (FwSession.step (answering firstRequest)) FwSession.Allowed unasked
      (unasked.step (answering firstRequest) .upload) := .next FwCall.upload .start True.intro
  have hallowed : (unasked.step (answering firstRequest) .upload).Allowed (.next [1, 2, 3]) := by
    show 0 ∈ unasked.returned ++ [(unasked.call (answering firstRequest) .upload).ret]
    rw [hret]
    exact List.mem_singleton_self 0
  exact ⟨hholds.unique ⟨by decide, by decide, by decide⟩, session_agrees _ _ _ hreach hallowed⟩

end Fwio

end Topfield
