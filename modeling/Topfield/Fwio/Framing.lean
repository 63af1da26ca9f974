import Topfield.Fwio.Packet
import Topfield.Lib.Pieces
import Topfield.Steps

/-!
# Framing of firmware packets

What `tf_send` puts on the wire for a request: the packet, a padding that keeps the length even and off the
multiples of 0x200, and the cut into the writes that the boot loader accepts.
-/

namespace Topfield

open Lib

namespace Fwio

variable {σ : Type}

def buildPacket (req : Mem) (cmd seq : UInt8) (data : List UInt8) : Mem :=
  tfReqDone (tfReqPutdata (tfReqInit req cmd seq) data)

def packetBody (cmd seq : UInt8) (data : List UInt8) : List UInt8 :=
  [seq, cmd] ++ (toBE 2 data.length ++ data)

/-- The sum of all bytes modulo 256. -/
def checksum (bytes : List UInt8) : UInt8 := UInt8.ofNat (bytes.map UInt8.toNat).sum

/-- A packet as it is on the wire, before any padding. -/
def packetImage (cmd seq : UInt8) (data : List UInt8) : List UInt8 :=
  tofi ++ (packetBody cmd seq data ++ [checksum (packetBody cmd seq data)])

structure Framed (cmd seq : UInt8) (data : List UInt8) (writes : List (List UInt8)) : Prop where
  image : writes.flatten.take (9 + data.length) = packetImage cmd seq data
  even : writes.flatten.length % 2 = 0
  short : writes.flatten.length ≤ 9 + data.length + 3
  unaligned : writes.flatten.length % 0x200 = 0 → writes.flatten.length = maxSendSize
  pieces : ∃ full last, writes = full ++ [last] ∧ (∀ piece ∈ full, piece.length = maxSendSize) ∧
    0 < last.length ∧ last.length ≤ maxSendSize

/-! ### The checksum -/

theorem foldl_sum (bytes : List UInt8) (sum : UInt8) :
    bytes.foldl (fun sum b => sum + b) sum = UInt8.ofNat (sum.toNat + (bytes.map UInt8.toNat).sum) := by
  induction bytes generalizing sum with
  | nil => exact (UInt8.ofNat_toNat).symm
  | cons b rest ih =>
    rw [List.foldl_cons, ih, List.map_cons, List.sum_cons, ← Nat.add_assoc]
    apply UInt8.toNat_inj.mp
    rw [UInt8.toNat_ofNat', UInt8.toNat_ofNat', UInt8.toNat_add]
    exact Nat.mod_add_mod _ _ _

theorem calcChecksum_eq (bytes : List UInt8) : calcChecksum bytes = checksum bytes := by
  rw [calcChecksum, foldl_sum, checksum]
  exact congrArg UInt8.ofNat (Nat.zero_add _)

/-! ### Building a packet -/

theorem packetLength_setPacketLength (m : Mem) (len : UInt16) :
    packetLength (setPacketLength m len) = len := by
  have hload : (m.store 6 (toLE 2 len.toNat)).load 6 2 = toLE 2 len.toNat :=
    Mem.load_store_self m 6 (toLE 2 len.toNat)
  apply UInt16.toNat_inj.mp
  rw [packetLength, setPacketLength, hload, ofLE_toLE, UInt16.toNat_ofNat']
  exact (Nat.mod_mod _ _).trans (Nat.mod_eq_of_lt len.toNat_lt)

theorem packetLength_tfReqInit (req : Mem) (cmd seq : UInt8) : packetLength (tfReqInit req cmd seq) = 0 := by
  have hload : (tfReqInit req cmd seq).load 6 2 = [0, 0] := rfl
  rw [packetLength, hload]
  rfl

theorem packetLength_store (req : Mem) (k : Nat) (data : List UInt8) :
    packetLength (req.store (8 + k) data) = packetLength req := by
  rw [packetLength, Mem.load_store_disjoint req (.inl (by omega)), packetLength]

theorem tfReqPutdata_eq {req : Mem} (hlength : packetLength req = 0) (data : List UInt8) :
    tfReqPutdata req data = setPacketLength (req.store 8 data) (UInt16.ofNat data.length) := by
  simp only [tfReqPutdata]
  rw [packetLength_store, hlength, UInt16.zero_add]
  rfl

/-- Finishing a packet puts the length and the checksum where they belong and keeps the rest. -/
theorem load_tfReqDone {req : Mem} {cmd seq : UInt8} {data : List UInt8}
    (hlength : (packetLength req).toNat = data.length) (hhead : req.load 0 6 = tofi ++ [seq, cmd])
    (hdata : req.load 8 data.length = data) :
    (tfReqDone req).load 0 (9 + data.length) = packetImage cmd seq data := by
  have hlen : (toBE 2 data.length).length = 2 := length_toBE 2 _
  have hput : putU16 req 6 (packetLength req) = req.store 6 (toBE 2 data.length) := by
    rw [putU16_eq_store, hlength]
  obtain ⟨htofi, hseq⟩ := Mem.load_split hhead
  simp only [tfReqDone]
  rw [hput, hlength]
  generalize hreq : req.store 6 (toBE 2 data.length) = req'
  have hstart : req'.load 0 4 = tofi := by
    rw [← hreq, Mem.load_store_disjoint req (.inl (by omega))]
    exact htofi
  have hnumber : req'.load 4 2 = [seq, cmd] := by
    rw [← hreq, Mem.load_store_disjoint req (.inl (by omega))]
    exact hseq
  have hcount : req'.load 6 2 = toBE 2 data.length := by
    rw [← hreq]
    exact Mem.load_store_self req 6 (toBE 2 data.length)
  have hpayload : req'.load 8 data.length = data := by
    rw [← hreq, Mem.load_store_disjoint req (.inr (by rw [hlen]))]
    exact hdata
  have hbody : req'.load 4 (data.length + 4) = packetBody cmd seq data := by
    rw [show data.length + 4 = 2 + (2 + data.length) by omega, Mem.load_add, Mem.load_add, hnumber, hcount,
      hpayload]
    rfl
  rw [Mem.set_eq_store, hbody, calcChecksum_eq,
    show 9 + data.length = 4 + ((data.length + 4) + 1) by omega, Mem.load_add, Mem.load_add,
    Mem.load_store_disjoint req' (.inl (by omega)), Mem.load_store_disjoint req' (.inl (by omega)), hstart,
    hbody, show 0 + 4 + (data.length + 4) = 8 + data.length by omega]
  exact congrArg (fun last => tofi ++ (packetBody cmd seq data ++ last)) (Mem.load_store_self req' _ [_])

theorem load_buildPacket (req : Mem) (cmd seq : UInt8) {data : List UInt8}
    (hdata : data.length ≤ maxDataSize) :
    (buildPacket req cmd seq data).load 0 (9 + data.length) = packetImage cmd seq data := by
  have hn : (UInt16.ofNat data.length).toNat = data.length := by
    simp only [maxDataSize] at hdata
    rw [UInt16.toNat_ofNat']
    omega
  rw [buildPacket, tfReqPutdata_eq (packetLength_tfReqInit req cmd seq)]
  apply load_tfReqDone
  · rw [packetLength_setPacketLength, hn]
  · rw [setPacketLength, Mem.load_store_disjoint _ (.inl (by omega)),
      Mem.load_store_disjoint _ (.inl (by omega))]
    rfl
  · rw [setPacketLength, Mem.load_store_disjoint _ (.inr (by rw [length_toLE])), Mem.load_store_self]

theorem load_header_image (req : Mem) (cmd seq : UInt8) :
    (tfReqDone (tfReqInit req cmd seq)).load 0 9 = packetImage cmd seq [] := by
  have hlength : (packetLength (tfReqInit req cmd seq)).toNat = ([] : List UInt8).length := by
    rw [packetLength_tfReqInit]
    rfl
  exact load_tfReqDone hlength rfl rfl

/-! ### Reading a packet -/

theorem length_packetImage (cmd seq : UInt8) (data : List UInt8) :
    (packetImage cmd seq data).length = 9 + data.length := by
  simp only [packetImage, packetBody, List.length_append, List.length_cons, List.length_nil, length_toBE]
  omega

/-- What a buffer says that starts with a packet. -/
structure Says (m : Mem) (cmd seq : UInt8) (data : List UInt8) : Prop where
  seq : packetSeq m = seq
  cmd : packetCmd m = cmd
  length : (getU16 m 6).toNat = data.length
  data : m.load 8 data.length = data

theorem says_of_image {m : Mem} {cmd seq : UInt8} {data : List UInt8}
    (himage : m.load 0 (9 + data.length) = packetImage cmd seq data) (hdata : data.length < 2 ^ 16) :
    Says m cmd seq data := by
  have hsplit : packetImage cmd seq data =
      tofi ++ ([seq] ++ ([cmd] ++ (toBE 2 data.length ++ (data ++ [checksum (packetBody cmd seq data)])))) := by
    simp only [packetImage, packetBody, List.append_assoc, List.cons_append, List.nil_append]
  obtain ⟨-, hrest⟩ := Mem.load_split (himage.trans hsplit)
  obtain ⟨hseq, hrest⟩ := Mem.load_split hrest
  obtain ⟨hcmd, hrest⟩ := Mem.load_split hrest
  obtain ⟨hcount, hrest⟩ := Mem.load_split hrest
  have hpayload := Mem.load_prefix hrest
  rw [length_toBE] at hcount hpayload
  refine ⟨(List.cons.inj hseq).1, (List.cons.inj hcmd).1, ?_, hpayload⟩
  rw [getU16_toNat]
  exact (congrArg ofBE hcount).trans ((ofBE_toBE 2 data.length).trans (Nat.mod_eq_of_lt hdata))

theorem getU16_buildPacket (req : Mem) (cmd seq : UInt8) {data : List UInt8}
    (hdata : data.length ≤ maxDataSize) :
    (getU16 (buildPacket req cmd seq data) 6).toNat = data.length :=
  (says_of_image (load_buildPacket req cmd seq hdata) (hdata.trans_lt (by decide))).length

/-! ### Sending -/

theorem tfSendLen_bounds (req : Mem) :
    tfSendLen req % 2 = 0 ∧ 9 + (getU16 req 6).toNat ≤ tfSendLen req ∧
      tfSendLen req ≤ 9 + (getU16 req 6).toNat + 3 ∧
      (tfSendLen req % 0x200 = 0 → tfSendLen req = maxSendSize) := by
  simp only [tfSendLen, packetHeadSize, maxSendSize]
  split_ifs <;> omega

theorem load_sent {req : Mem} {cmd seq : UInt8} {data : List UInt8}
    (himage : req.load 0 (9 + data.length) = packetImage cmd seq data) (hdata : data.length < 2 ^ 16) :
    ∃ pad : List UInt8, pad.length ≤ 3 ∧ req.load 0 (tfSendLen req) = packetImage cmd seq data ++ pad := by
  have hlength := (says_of_image himage hdata).length
  obtain ⟨-, hlong, hshort, -⟩ := tfSendLen_bounds req
  rw [hlength] at hlong hshort
  obtain ⟨k, hk⟩ := Nat.exists_eq_add_of_le hlong
  refine ⟨req.load (0 + (9 + data.length)) k, ?_, ?_⟩
  · rw [Mem.length_load]
    omega
  · rw [hk, Mem.load_add, himage]

theorem sendLoop_written (e : Env σ) (tf : TfHandle (σ × List Event)) (req : Mem) (data len : Nat) :
    ∃ ok log, Written (pieces maxSendSize (req.load data len)) ok log ∧
      (sendLoop e.logged tf req data len).usb.2 = tf.usb.2 ++ log ∧
      (sendLoop e.logged tf req data len).error = (if ok then tf.error else -1) ∧
      (sendLoop e.logged tf req data len).dev = tf.dev := by
  fun_induction sendLoop e.logged tf req data len with
  | case1 tf data len tosend w tf' h =>
    have hfailed : w.1 ≠ ((req.load data tosend).length : Int) := by rwa [Mem.length_load]
    have hpieces := pieces_load req data (k := tosend) (show 0 < maxSendSize by decide) rfl
    rw [hpieces]
    exact ⟨false, _, .failed _ _ hfailed, rfl, rfl, rfl⟩
  | case2 tf data len tosend w tf' h hleft ih =>
    have hwrite : w.1 = ((req.load data tosend).length : Int) := by
      rw [Mem.length_load]
      exact not_not.mp h
    have hpieces := pieces_load req data (k := tosend) (show 0 < maxSendSize by decide) rfl
    obtain ⟨ok, log, hwritten, hlog, hrest⟩ := ih
    rw [hpieces, if_pos hleft]
    refine ⟨ok, .wrote (req.load data tosend) w.1 :: log, ?_, ?_, hrest⟩
    · rw [hwrite]
      exact .next _ hwritten
    · exact hlog.trans (List.append_assoc tf.usb.2 [_] log)
  | case3 tf data len tosend w tf' h hleft =>
    have hwrite : w.1 = ((req.load data tosend).length : Int) := by
      rw [Mem.length_load]
      exact not_not.mp h
    have hpieces := pieces_load req data (k := tosend) (show 0 < maxSendSize by decide) rfl
    rw [hpieces, if_neg hleft]
    refine ⟨true, [.wrote (req.load data tosend) w.1], ?_, rfl, rfl, rfl⟩
    rw [hwrite]
    exact .done _

/-- A call of `tf_send` with a device writes the pieces of the padded packet. -/
theorem tfSend_written (e : Env σ) (tf : TfHandle (σ × List Event)) (req : Mem) (hdev : tf.dev = true) :
    ∃ ok log, Written (pieces maxSendSize (req.load 0 (tfSendLen req))) ok log ∧
      (tfSend e.logged tf req).tf.usb.2 = tf.usb.2 ++ log ∧
      (tfSend e.logged tf req).ret = (if ok then 0 else -1) ∧ (tfSend e.logged tf req).tf.dev = true := by
  obtain ⟨ok, log, hwritten, hlog, herror, hloop⟩ :=
    sendLoop_written e { tf with error := 0 } req 0 (tfSendLen req)
  simp only [tfSend]
  rw [if_pos hdev]
  exact ⟨ok, log, hwritten, hlog, herror, hloop.trans hdev⟩

theorem tfSend_of_le (e : Env σ) (tf : TfHandle σ) (req : Mem) (hdev : tf.dev = true)
    (hlen : tfSendLen req ≤ maxSendSize) {n : Int} {u : σ}
    (hwrite : e.write tf.usb 0x01 tf.timeout (req.load 0 (tfSendLen req)) = (n, u)) :
    tfSend e tf req =
      ⟨if n = tfSendLen req then 0 else -1,
        { tf with error := if n = tfSendLen req then 0 else -1, usb := u }⟩ := by
  have hloop : sendLoop e { tf with error := 0 } req 0 (tfSendLen req) =
      { tf with error := if n = tfSendLen req then 0 else -1, usb := u } := by
    rw [sendLoop]
    simp only [if_neg (Nat.not_lt.mpr hlen), hwrite, Nat.sub_self]
    by_cases h : n = tfSendLen req
    · rw [if_pos h, if_neg (not_not.mpr h)]
      rfl
    · rw [if_neg h, if_pos h]
  simp only [tfSend]
  rw [if_pos hdev, hloop]

theorem tfSend_noconn (e : Env σ) (tf : TfHandle σ) (req : Mem) (hdev : tf.dev = false) :
    tfSend e tf req = ⟨-2, { tf with error := -2 }⟩ := by
  simp only [tfSend, hdev]
  rfl

/-- **Framing.** A packet that is sent is on the wire in full, padded and cut as the boot loader wants it. -/
theorem tfSend_framed (e : Env σ) (tf : TfHandle σ) (req : Mem) (cmd seq : UInt8) (data : List UInt8)
    (hdata : data.length ≤ maxDataSize)
    (hsent : (tfSend e.logged tf.logging (buildPacket req cmd seq data)).ret = 0) :
    Framed cmd seq data (transfers (tfSend e.logged tf.logging (buildPacket req cmd seq data)).tf.usb.2) := by
  have himage := load_buildPacket req cmd seq hdata
  have hlength := getU16_buildPacket req cmd seq hdata
  obtain ⟨heven, hlong, hshort, hunaligned⟩ := tfSendLen_bounds (buildPacket req cmd seq data)
  generalize buildPacket req cmd seq data = packet at *
  rw [hlength] at hlong hshort
  cases hdev : tf.dev with
  | false =>
    rw [tfSend_noconn e.logged tf.logging packet hdev] at hsent
    exact absurd (show (-2 : Int) = 0 from hsent) (by decide)
  | true =>
    obtain ⟨ok, log, hwritten, hlog, hret, -⟩ := tfSend_written e tf.logging packet hdev
    have hok : ok = true := by
      cases ok with
      | false => exact absurd (hret.symm.trans hsent) (by decide)
      | true => rfl
    have htransfers : transfers (tfSend e.logged tf.logging packet).tf.usb.2 =
        pieces maxSendSize (packet.load 0 (tfSendLen packet)) := by
      rw [hlog, ← hwritten.transfers_eq hok]
      rfl
    have hflatten := flatten_pieces maxSendSize (packet.load 0 (tfSendLen packet))
    rw [htransfers]
    refine ⟨?_, ?_, ?_, ?_, pieces_full (by decide) ?_⟩
    · obtain ⟨pad, hpad⟩ := Nat.exists_eq_add_of_le hlong
      rw [hflatten, hpad, Mem.load_add, List.take_left' (Mem.length_load packet 0 _)]
      exact himage
    · rwa [hflatten, Mem.length_load]
    · rwa [hflatten, Mem.length_load]
    · rwa [hflatten, Mem.length_load]
    · apply List.ne_nil_of_length_pos
      rw [Mem.length_load]
      omega

theorem tfSend_accepting {e : Env σ} (haccepts : ∀ s ep timeout bytes,
    (e.write s ep timeout bytes).1 = (bytes.length : Int)) {tf : TfHandle σ} (req : Mem)
    (hdev : tf.dev = true) :
    (tfSend e tf req).ret = 0 := by
  have hloop (tf : TfHandle σ) (data len : Nat) : (sendLoop e tf req data len).error = tf.error := by
    fun_induction sendLoop e tf req data len with
    | case1 tf data len tosend w tf' h =>
      exact absurd ((haccepts _ _ _ _).trans (by rw [Mem.length_load])) h
    | case2 tf data len tosend w tf' h hleft ih => exact ih
    | case3 tf data len tosend w tf' h hleft => rfl
  simp only [tfSend]
  rw [if_pos hdev]
  exact hloop _ _ _

/-- A boot loader that takes every write and never answers. -/
def silent : Env Unit where
  toHost := Host.blank Unit
  write _ _ _ bytes := (bytes.length, ())
  read _ _ _ _ := ((-1, fun _ => 0), ())

theorem tfSend_framed_three_bytes :
    Framed tfFwData 7 [1, 2, 3] (transfers (tfSend silent.logged (TfHandle.opened () fun _ => 0).logging
      (buildPacket (fun _ => 0xAA) tfFwData 7 [1, 2, 3])).tf.usb.2) :=
  tfSend_framed silent _ _ _ _ _ (by decide) (tfSend_accepting (fun _ _ _ _ => rfl) _ rfl)

end Fwio

end Topfield
