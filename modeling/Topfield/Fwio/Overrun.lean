import Topfield.Fwio.Session

/-!
# The end of a firmware packet

`tf_packet_t` has room for `MAX_DATA_SIZE` bytes of data and the checksum. `tf_send` pads behind the checksum
and cuts what it gets into writes, so whether it stays inside the packet depends on the length of the data.
-/

namespace Topfield

open Lib

namespace Fwio

section Ranges

variable {σ : Type} (e : Env σ)

/-- The ranges of the request that the loop of `tf_send` hands to `usb_bulk_write`, each with its start and
its length. -/
def sendLoopRanges (tf : TfHandle σ) (req : Mem) (data len : Nat) : List (Nat × Nat) :=
  let tosend := if maxSendSize < len then maxSendSize else len
  let w := e.write tf.usb 0x01 tf.timeout (req.load data tosend)
  let tf := { tf with usb := w.2 }
  if w.1 ≠ tosend then
    [(data, tosend)]
  else if len - tosend ≠ 0 then
    (data, tosend) :: sendLoopRanges tf req (data + tosend) (len - tosend)
  else
    [(data, tosend)]
termination_by len
decreasing_by
  rename_i _ hleft
  simp only [tosend, maxSendSize] at hleft ⊢
  split_ifs at hleft ⊢ <;> omega

def sendRanges (tf : TfHandle σ) (req : Mem) : List (Nat × Nat) :=
  if tf.dev then sendLoopRanges e { tf with error := 0 } req 0 (tfSendLen req) else []

def rangeBytes (req : Mem) (r : Nat × Nat) : List UInt8 := req.load r.1 r.2

theorem sendLoopRanges_eq (tf : TfHandle σ) (req : Mem) (data len : Nat) {k : Nat}
    (hk : k = if maxSendSize < len then maxSendSize else len) {w : Int × σ}
    (hw : w = e.write tf.usb 0x01 tf.timeout (req.load data k)) :
    sendLoopRanges e tf req data len =
      if w.1 ≠ k then [(data, k)]
      else if len - k ≠ 0 then
        (data, k) :: sendLoopRanges e { tf with usb := w.2 } req (data + k) (len - k)
      else [(data, k)] := by
  subst hw hk
  rw [sendLoopRanges]

theorem transfers_sendLoop (tf : TfHandle (σ × List Event)) (req : Mem) (data len : Nat) :
    transfers (sendLoop e.logged tf req data len).usb.2 =
      transfers tf.usb.2 ++ (sendLoopRanges e.logged tf req data len).map (rangeBytes req) := by
  fun_induction sendLoop e.logged tf req data len with
  | case1 tf data len tosend w tf' h =>
    have hturn := sendLoopRanges_eq e.logged tf req data len (k := tosend) (w := w) rfl rfl
    rw [hturn, if_pos h]
    exact transfers_append _ _
  | case2 tf data len tosend w tf' h hleft ih =>
    have hturn := sendLoopRanges_eq e.logged tf req data len (k := tosend) (w := w) rfl rfl
    rw [hturn, if_neg h, if_pos hleft, ih, List.map_cons]
    exact (congrArg (· ++ _) (transfers_append _ _)).trans (List.append_assoc _ _ _)
  | case3 tf data len tosend w tf' h hleft =>
    have hturn := sendLoopRanges_eq e.logged tf req data len (k := tosend) (w := w) rfl rfl
    rw [hturn, if_neg h, if_neg hleft]
    exact transfers_append _ _

theorem transfers_tfSend (tf : TfHandle (σ × List Event)) (req : Mem) :
    transfers (tfSend e.logged tf req).tf.usb.2 =
      transfers tf.usb.2 ++ (sendRanges e.logged tf req).map (rangeBytes req) := by
  simp only [tfSend, sendRanges]
  by_cases hdev : tf.dev = true
  · rw [if_pos hdev, if_pos hdev]
    exact transfers_sendLoop e _ req 0 _
  · rw [if_neg hdev, if_neg hdev]
    exact (List.append_nil _).symm

/-- The ranges follow each other from `data` on and end by `data + len`. -/
theorem sendLoopRanges_contiguous (tf : TfHandle σ) (req : Mem) (data len : Nat) :
    (∀ r ∈ sendLoopRanges e tf req data len, r.1 + r.2 ≤ data + len) ∧
      ∃ n ≤ len, ((sendLoopRanges e tf req data len).map (rangeBytes req)).flatten = req.load data n := by
  have hfirst (data n : Nat) : ([(data, n)].map (rangeBytes req)).flatten = req.load data n :=
    List.append_nil _
  fun_induction sendLoopRanges e tf req data len with
  | case1 tf data len tosend w h =>
    have htosend : tosend ≤ len := by
      simp only [tosend]
      split_ifs <;> omega
    exact ⟨List.forall_mem_singleton.mpr (Nat.add_le_add_left htosend data), tosend, htosend, hfirst _ _⟩
  | case2 tf data len tosend w tf' h hleft ih =>
    have htosend : tosend ≤ len := by omega
    obtain ⟨hinside, n, hn, hflatten⟩ := ih
    refine ⟨List.forall_mem_cons.mpr ⟨Nat.add_le_add_left htosend data, fun r hr => ?_⟩, tosend + n, ?_, ?_⟩
    · have hr' := hinside r hr
      omega
    · omega
    · rw [List.map_cons, List.flatten_cons, hflatten, Mem.load_add, rangeBytes]
  | case3 tf data len tosend w h hleft =>
    have htosend : tosend ≤ len := by
      simp only [tosend]
      split_ifs <;> omega
    exact ⟨List.forall_mem_singleton.mpr (Nat.add_le_add_left htosend data), tosend, htosend, hfirst _ _⟩

theorem exists_last_range {e : Env σ} (haccepts : ∀ s ep timeout bytes,
    (e.write s ep timeout bytes).1 = (bytes.length : Int)) (tf : TfHandle σ) (req : Mem) (data len : Nat) :
    ∃ r ∈ sendLoopRanges e tf req data len, r.1 + r.2 = data + len := by
  fun_induction sendLoopRanges e tf req data len with
  | case1 tf data len tosend w h =>
    exact absurd ((haccepts _ _ _ _).trans (by rw [Mem.length_load])) h
  | case2 tf data len tosend w tf' h hleft ih =>
    obtain ⟨r, hr, hend⟩ := ih
    exact ⟨r, List.mem_cons_of_mem _ hr, by omega⟩
  | case3 tf data len tosend w h hleft =>
    refine ⟨(data, tosend), List.mem_singleton_self _, ?_⟩
    simp only [tosend] at hleft ⊢
    split_ifs at hleft ⊢ <;> omega

end Ranges

/-! ### The packets of `tf_fw_upload_next` -/

def dataPacket {σ : Type} (e : Env σ) (tf : TfHandle σ) (fwData : TfFwData) (buf : List UInt8) : Mem :=
  buildPacket (e.stack tf.usb) tfFwData fwData.seq.toUInt8 buf

/-- Whatever the device does, what is written of the request with this data lies inside the packet, and all
that is written behind the checksum is zero. -/
structure SendsInside (buf : List UInt8) : Prop where
  inside : ∀ {σ : Type} (e : Env σ) (tf : TfHandle σ) (fwData : TfFwData),
    ∀ r ∈ sendRanges e tf (dataPacket e tf fwData buf), r.1 + r.2 ≤ sizeofPacket
  zeros : ∀ {σ : Type} (e : Env σ) (tf : TfHandle σ) (fwData : TfFwData),
    ∀ b ∈ (transfers (tfFwUploadNext e.logged tf.logging buf fwData).tf.usb.2).flatten.drop (9 + buf.length),
      b = 0

/-- Behind the checksum a packet is as `tf_req_init` left it. -/
theorem buildPacket_behind (req : Mem) (cmd seq : UInt8) {data : List UInt8} (hdata : data.length ≤ maxDataSize)
    {i : Nat} (hlow : 9 + data.length ≤ i) (hhigh : i < sizeofPacket) : buildPacket req cmd seq data i = 0 := by
  have hn : (UInt16.ofNat data.length).toNat = data.length := by
    simp only [maxDataSize] at hdata
    rw [UInt16.toNat_ofNat']
    omega
  rw [buildPacket, tfReqPutdata_eq (packetLength_tfReqInit req cmd seq)]
  simp only [tfReqDone, packetLength_setPacketLength, putU16_eq_store]
  rw [hn, Mem.set_of_ne _ _ (by omega), Mem.store_above _ (by rw [length_toBE]; omega), setPacketLength,
    Mem.store_above _ (by rw [length_toLE]; omega), Mem.store_above _ (by omega)]
  simp only [tfReqInit]
  rw [Mem.set_of_ne _ _ (by omega), Mem.set_of_ne _ _ (by omega),
    Mem.store_above _ (show 0 + tofi.length ≤ i by simp only [List.length_cons, List.length_nil]; omega)]
  exact if_pos hhigh

theorem tfSendLen_le_iff (req : Mem) (cmd seq : UInt8) {data : List UInt8} (hdata : data.length ≤ maxDataSize) :
    tfSendLen (buildPacket req cmd seq data) ≤ sizeofPacket ↔ data.length < maxDataSize := by
  simp only [tfSendLen, getU16_buildPacket req cmd seq hdata, packetHeadSize, maxSendSize, sizeofPacket,
    maxDataSize] at hdata ⊢
  split_ifs <;> omega

theorem mem_sendRanges {σ : Type} {e : Env σ} {tf : TfHandle σ} {req : Mem} {r : Nat × Nat}
    (h : r ∈ sendRanges e tf req) : r.1 + r.2 ≤ tfSendLen req := by
  rw [sendRanges] at h
  by_cases hdev : tf.dev = true
  · rw [if_pos hdev] at h
    have hr := (sendLoopRanges_contiguous e { tf with error := 0 } req 0 (tfSendLen req)).1 r h
    omega
  · rw [if_neg hdev] at h
    exact absurd h List.not_mem_nil

theorem exists_transfers_tfSend {σ : Type} (e : Env σ) (tf : TfHandle σ) (req : Mem) :
    ∃ n ≤ tfSendLen req, (transfers (tfSend e.logged tf.logging req).tf.usb.2).flatten = req.load 0 n := by
  rw [transfers_tfSend]
  show ∃ n ≤ tfSendLen req, ((sendRanges e.logged tf.logging req).map (rangeBytes req)).flatten = req.load 0 n
  rw [sendRanges]
  by_cases hdev : tf.logging.dev = true
  · rw [if_pos hdev]
    exact (sendLoopRanges_contiguous e.logged _ req 0 (tfSendLen req)).2
  · rw [if_neg hdev]
    exact ⟨0, Nat.zero_le _, rfl⟩

/-- Waiting for an answer writes nothing. -/
theorem transfers_tfFwUploadNext {σ : Type} (e : Env σ) (tf : TfHandle σ) (fwData : TfFwData)
    {buf : List UInt8} (hbuf : buf.length ≤ maxDataSize) :
    transfers (tfFwUploadNext e.logged tf.logging buf fwData).tf.usb.2 =
      transfers (tfSend e.logged tf.logging (dataPacket e tf fwData buf)).tf.usb.2 := by
  have hpacket : dataPacket e tf fwData buf = tfReqDone (tfReqPutdata (tfReqInit
      (e.logged.stack tf.logging.usb) tfFwData fwData.seq.toUInt8) buf) := rfl
  rw [tfFwUploadNext, if_neg (Nat.not_lt.mpr hbuf), hpacket]
  simp only
  generalize tfSend e.logged tf.logging _ = sent
  by_cases hret : sent.ret ≠ 0
  · rw [if_pos hret]
  · obtain ⟨-, arrived, hlog, -⟩ := tfWaitForReqData_awaited e sent.tf fwData
    rw [if_neg hret, hlog, transfers_append, transfers_reads (isRead_readsOf arrived), List.append_nil]

theorem not_sendsInside {buf : List UInt8} (hbuf : buf.length = maxDataSize) : ¬ SendsInside buf := by
  intro h
  obtain ⟨r, hr, hend⟩ := exists_last_range (e := silent) (fun _ _ _ _ => rfl)
    { TfHandle.opened () fun _ => 0 with error := 0 } (dataPacket silent (TfHandle.opened () fun _ => 0)
      ⟨0, 0, 0⟩ buf) 0 (tfSendLen (dataPacket silent (TfHandle.opened () fun _ => 0) ⟨0, 0, 0⟩ buf))
  have hinside := h.inside silent (TfHandle.opened () fun _ => 0) ⟨0, 0, 0⟩ r hr
  have hlong := (tfSendLen_le_iff (silent.stack ()) tfFwData (0 : UInt32).toUInt8 (Nat.le_of_eq hbuf)).mp
    (by rw [Nat.zero_add] at hend; exact hend ▸ hinside)
  omega

/-- **The end of the packet.** What is sent stays inside the packet for all data that is accepted but the
largest. -/
theorem sendsInside_iff {buf : List UInt8} (hbuf : buf.length ≤ maxDataSize) :
    SendsInside buf ↔ buf.length < maxDataSize := by
  constructor
  · intro h
    by_contra hlong
    exact not_sendsInside (by omega) h
  · intro hshort
    have hlen {σ : Type} (e : Env σ) (tf : TfHandle σ) (fwData : TfFwData) :
        tfSendLen (dataPacket e tf fwData buf) ≤ sizeofPacket :=
      (tfSendLen_le_iff _ _ _ hbuf).mpr hshort
    refine ⟨fun e tf fwData r hr => (mem_sendRanges hr).trans (hlen e tf fwData), fun e tf fwData b hb => ?_⟩
    rw [transfers_tfFwUploadNext e tf fwData hbuf] at hb
    obtain ⟨n, hn, hload⟩ := exists_transfers_tfSend e tf (dataPacket e tf fwData buf)
    rw [hload] at hb
    obtain ⟨i, hi, rfl⟩ := List.getElem_of_mem hb
    have hin : i + (9 + buf.length) < n := by
      rw [List.length_drop, Mem.length_load] at hi
      omega
    rw [List.getElem_drop, Mem.getElem_load]
    exact buildPacket_behind _ _ _ hbuf (by omega) (by have := hlen e tf fwData; omega)

theorem sendsInside_iff_three_bytes : SendsInside [1, 2, 3] ↔ [(1 : UInt8), 2, 3].length < maxDataSize :=
  sendsInside_iff (by decide)

/-- A block of 32768 bytes is accepted, and its packet is sent with a byte too much. -/
theorem not_sendsInside_maximum :
    (List.replicate maxDataSize (0 : UInt8)).length ≤ maxDataSize ∧
      ¬ SendsInside (List.replicate maxDataSize 0) :=
  ⟨Nat.le_of_eq List.length_replicate, not_sendsInside List.length_replicate⟩

end Fwio

end Topfield
