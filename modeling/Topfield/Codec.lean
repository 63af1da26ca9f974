import Topfield.Request

/-!
# The packet codec

What goes over the wire for a request, as a plain byte string, and the two halves of the codec against
it: a finished request sends that string, and a reply whose bytes are that string is accepted and read
back. Both halves meet only in `wireImage`, so the round trip is their composition.
-/

namespace Topfield

open Lib

/-! ### The wire format -/

def packetCrc (cmd : UInt32) (payload : List UInt8) : UInt16 :=
  (toBE 4 cmd.toNat ++ payload).foldl crc16Step 0

/-- A packet in memory order. -/
def packetImage (cmd : UInt32) (payload : List UInt8) : List UInt8 :=
  toBE 2 (8 + payload.length) ++ (toBE 2 (packetCrc cmd payload).toNat ++
    (toBE 4 cmd.toNat ++ payload))

/-- A packet on the wire: padded to an even length, with neighbouring bytes exchanged. -/
def wireImage (cmd : UInt32) (payload : List UInt8) : List UInt8 :=
  swapPairs (padEven 0 (packetImage cmd payload))

def evenLength (len : Nat) : Nat := len + len % 2

theorem length_packetImage (cmd : UInt32) (payload : List UInt8) :
    (packetImage cmd payload).length = 8 + payload.length := by
  simp only [packetImage, List.length_append, length_toBE]
  omega

theorem length_wireImage (cmd : UInt32) (payload : List UInt8) :
    (wireImage cmd payload).length = evenLength (8 + payload.length) := by
  rw [wireImage, length_swapPairs, length_padEven, length_packetImage, evenLength]

/-! ### Sending -/

theorem sizeT_crcSize {len : UInt16} {n : Nat} (h : len.toNat = 8 + n) :
    sizeT (crcSize len) = 4 + n := by
  have hlen := len.toNat_lt
  simp only [sizeT, crcSize, h]
  omega

private theorem crc_eq_packetCrc {m : Mem} {cmd : UInt32} {payload : List UInt8}
    (hbody : m.load 4 (4 + payload.length) = toBE 4 cmd.toNat ++ payload) :
    crc16Ansi 0 (m.offset 4) (4 + payload.length) = packetCrc cmd payload := by
  rw [crc16Ansi_eq_foldl, Mem.load_offset, Nat.add_zero, hbody, packetCrc]

private theorem load_header {req : Mem} {cmd : UInt32} {payload : List UInt8} {len : UInt16}
    (hlen : len.toNat = 8 + payload.length)
    (hbody : req.load 4 (4 + payload.length) = toBE 4 cmd.toNat ++ payload) :
    (putU16 (putU16 req 0 len) 2
      (crc16Ansi 0 ((putU16 req 0 len).offset 4) (sizeT (crcSize len)))).load 0 (8 + payload.length) =
      packetImage cmd payload := by
  have hbody' : (putU16 req 0 len).load 4 (4 + payload.length) = toBE 4 cmd.toNat ++ payload := by
    rw [putU16_eq_store, Mem.load_store_disjoint _ (.inr (by simp)), hbody]
  rw [sizeT_crcSize hlen, crc_eq_packetCrc hbody', putU16_eq_store _ 2]
  have hlow : (putU16 req 0 len).load 0 2 = toBE 2 (8 + payload.length) := by
    rw [putU16_eq_store, hlen]
    simpa using Mem.load_store_self req 0 (toBE 2 (8 + payload.length))
  have hcrc (m : Mem) (crc : Nat) : (m.store 2 (toBE 2 crc)).load 2 2 = toBE 2 crc := by
    simpa using Mem.load_store_self m 2 (toBE 2 crc)
  rw [show 8 + payload.length = 2 + (2 + (4 + payload.length)) by omega, Mem.load_add, Mem.load_add,
    Mem.load_store_disjoint _ (.inl (by decide)), hlow, hcrc,
    Mem.load_store_disjoint _ (.inr (by simp)), hbody', packetImage]

theorem load_tfReqDone {req : Mem} {cmd : UInt32} {payload : List UInt8}
    (h : Holds req cmd payload) :
    (tfReqDone req).load 0 (evenLength (8 + payload.length)) = wireImage cmd payload := by
  have hheader := load_header h.length h.body
  simp only [tfReqDone, h.length]
  by_cases hodd : (8 + payload.length) % 2 = 1
  · rw [if_pos hodd, evenLength, hodd, byteSwap, Mem.load_swab, wireImage, padEven_eq_append,
      length_packetImage, hodd, Mem.load_add, Mem.set_eq_store,
      Mem.load_store_disjoint _ (.inl (by omega)), hheader, Nat.zero_add]
    congr 2
    exact Mem.load_store_self _ _ [0]
  · have heven : (8 + payload.length) % 2 = 0 := by omega
    rw [if_neg hodd, evenLength, heven, byteSwap, Nat.add_zero, Mem.load_swab, hheader, wireImage,
      padEven_eq_append, length_packetImage, heven, List.replicate_zero, List.append_nil]

/-! ### Receiving -/

/-- The buffer holds a readable packet with the given command and payload. -/
structure Received (reply : Mem) (cmd : UInt32) (payload : List UInt8) : Prop where
  length : (packetLength reply).toNat = 8 + payload.length
  cmd : packetCmd reply = cmd
  data : reply.load 8 payload.length = payload

theorem packetCmd_setPacketCmd (m : Mem) (cmd : UInt32) : packetCmd (setPacketCmd m cmd) = cmd := by
  apply UInt32.toNat_inj.mp
  have hcmd := cmd.toNat_lt
  have hload : (m.store 4 (toLE 4 cmd.toNat)).load 4 4 = toLE 4 cmd.toNat := by
    simpa using Mem.load_store_self m 4 (toLE 4 cmd.toNat)
  rw [packetCmd, setPacketCmd, hload, ofLE_toLE, UInt32.toNat_ofNat']
  omega

theorem getU16Raw_wireImage {content : Mem} {cmd : UInt32} {payload : List UInt8}
    (hfits : 8 + payload.length ≤ 0xFFFF)
    (hload : content.load 0 (evenLength (8 + payload.length)) = wireImage cmd payload) :
    (getU16Raw content 0).toNat = 8 + payload.length := by
  have hsplit : wireImage cmd payload = swapPairs (toBE 2 (8 + payload.length)) ++
      swapPairs (toBE 2 (packetCrc cmd payload).toNat ++ (toBE 4 cmd.toNat ++ payload) ++
        List.replicate ((packetImage cmd payload).length % 2) 0) := by
    rw [wireImage, padEven_eq_append, packetImage, List.append_assoc (toBE 2 _),
      swapPairs_append _ _ (by simp)]
  rw [hsplit] at hload
  have hlen := Mem.load_prefix hload
  rw [length_swapPairs, length_toBE] at hlen
  rw [getU16Raw_toNat, hlen, swapPairs_swapPairs, ofBE_toBE]
  omega

theorem load_byteSwap_fields {content : Mem} {cmd : UInt32} {payload : List UInt8}
    (hload : content.load 0 (evenLength (8 + payload.length)) = wireImage cmd payload) :
    (byteSwap content (evenLength (8 + payload.length))).load 2 2 =
        toBE 2 (packetCrc cmd payload).toNat ∧
      (byteSwap content (evenLength (8 + payload.length))).load 4 4 = toBE 4 cmd.toNat ∧
      (byteSwap content (evenLength (8 + payload.length))).load 8 payload.length = payload := by
  have himage := Mem.load_swab content (evenLength (8 + payload.length))
  rw [hload, wireImage, swapPairs_swapPairs, padEven_eq_append, packetImage, List.append_assoc,
    List.append_assoc, List.append_assoc] at himage
  obtain ⟨-, htail⟩ := Mem.load_split himage
  obtain ⟨hcrc, htail⟩ := Mem.load_split htail
  obtain ⟨hcmd, htail⟩ := Mem.load_split htail
  have hdata := Mem.load_prefix htail
  simp only [length_toBE, Nat.zero_add, Nat.reduceAdd] at hcrc hcmd hdata
  exact ⟨hcrc, hcmd, hdata⟩

private theorem received_of_fields {m : Mem} {len : UInt16} {cmd : UInt32} {payload : List UInt8}
    (hlen : len.toNat = 8 + payload.length) (hcmd : m.load 4 4 = toBE 4 cmd.toNat)
    (hdata : m.load 8 payload.length = payload) :
    Received (setPacketCmd (setPacketLength m len) (getU32 (setPacketLength m len) 4)) cmd payload := by
  have hget : getU32 (setPacketLength m len) 4 = cmd := by
    apply UInt32.toNat_inj.mp
    rw [getU32_toNat, load_setPacketLength _ _ (by decide), hcmd, ofBE_toBE]
    exact Nat.mod_eq_of_lt cmd.toNat_lt
  rw [hget]
  refine ⟨?_, packetCmd_setPacketCmd _ _, ?_⟩
  · rw [setPacketCmd, packetLength_store _ _ (by decide), packetLength_setPacketLength, hlen]
  · rw [setPacketCmd, Mem.load_store_disjoint _ (.inr (by simp)), load_setPacketLength _ _ (by decide),
      hdata]

theorem responseLength_eq_some {ret : Int} {content : Mem} (hhead : 8 ≤ ret)
    (hlen : (getU16Raw content 0).toNat ≤ ret) :
    responseLength ret content = some (getU16Raw content 0) := by
  have hnot : ¬ ret < packetHeadSize := by
    simp only [packetHeadSize]
    omega
  simp only [responseLength, if_neg hnot, if_neg (Int.not_lt.mpr hlen)]

/-- **A wire image is accepted and read back**, whatever follows it in the buffer. -/
theorem checkResponse_wireImage (nocrc ret : Int) {content : Mem} {cmd : UInt32}
    {payload : List UInt8} (hfits : 8 + payload.length ≤ 0xFFFF)
    (hload : content.load 0 (evenLength (8 + payload.length)) = wireImage cmd payload)
    (hret : (8 + payload.length : Nat) ≤ ret) :
    (checkResponse nocrc ret content).1 = tfErrNone ∧
      Received (checkResponse nocrc ret content).2 cmd payload := by
  have hlen := getU16Raw_wireImage hfits hload
  have hresponse : responseLength ret content = some (getU16Raw content 0) :=
    responseLength_eq_some (by omega) (by omega)
  obtain ⟨hcrc, hcmd, hdata⟩ := load_byteSwap_fields hload
  simp only [checkResponse, hresponse, hlen]
  rw [← evenLength]
  refine ⟨?_, received_of_fields hlen hcmd hdata⟩
  have hfield : getU16 (byteSwap content (evenLength (8 + payload.length))) 2 =
      packetCrc cmd payload := by
    apply UInt16.toNat_inj.mp
    rw [getU16_toNat, hcrc, ofBE_toBE]
    exact Nat.mod_eq_of_lt (packetCrc cmd payload).toNat_lt
  have hbody : (byteSwap content (evenLength (8 + payload.length))).load 4 (4 + payload.length) =
      toBE 4 cmd.toNat ++ payload := by
    rw [Mem.load_add, hcmd, hdata]
  rw [hfield, sizeT_crcSize hlen, crc_eq_packetCrc hbody]
  simp

/-! ### A finished request on the wire -/

/-- What follows the wire image in a transfer: two more bytes if the length is a multiple of 64. -/
def sendTail (len : Nat) : Nat := if len % 64 = 0 then 2 else 0

theorem tfSendLen_eq {req : Mem} {cmd : UInt32} {payload : List UInt8} (h : Holds req cmd payload) :
    tfSendLen (tfReqDone req) = evenLength (8 + payload.length) + sendTail (8 + payload.length) := by
  have hlen := getU16Raw_wireImage h.fits (load_tfReqDone h)
  simp only [tfSendLen, hlen, evenLength, sendTail]
  split_ifs <;> omega

/-- The transfer of a finished request is its wire image and perhaps two bytes of the buffer. -/
theorem transfer_eq {req : Mem} {cmd : UInt32} {payload : List UInt8} (h : Holds req cmd payload) :
    ∃ tail : List UInt8, tail.length = sendTail (8 + payload.length) ∧
      tfSendBytes (tfReqDone req) = wireImage cmd payload ++ tail := by
  refine ⟨(tfReqDone req).load (evenLength (8 + payload.length)) (sendTail (8 + payload.length)),
    by simp, ?_⟩
  rw [tfSendBytes, tfSendLen_eq h, Mem.load_add, load_tfReqDone h, Nat.zero_add]

theorem Request.holds {r : Request} (hfits : r.Fits) (req : Mem) :
    Holds (fillRequest req r.cmd r.puts) r.cmd r.payload :=
  holds_fillRequest req r.cmd r.puts hfits

/-! ### The round trip -/

/-- A transport that gives back the last bytes written to it. -/
def loopback : Env (List UInt8) where
  toHost := Host.blank _
  write _ _ _ bytes := (bytes.length, bytes)
  read s _ _ size := ((((s.take size).length : Int), Mem.ofList (s.take size)), s)

/-- **Packet round trip.** Whatever is put into a request, what `tf_send` transmits for it is accepted
by `tf_get_response` and read back as the same command and payload. -/
theorem tfGetResponse_tfSend (cmd : UInt32) (puts : List ReqPut) (req : Mem) (reply : Mem)
    (tf : TfHandle (List UInt8)) (hfits : requestLength puts ≤ 0xFFFF) (hdev : tf.dev = true) :
    let sent := tfSend loopback tf (tfReqDone (fillRequest req cmd puts))
    let got := tfGetResponse loopback sent.tf reply
    sent.ret = tfErrNone ∧ got.ret = tfErrNone ∧ got.tf.error = tfErrNone ∧
      (packetLength got.out).toNat = requestLength puts ∧ packetCmd got.out = cmd ∧
      got.out.load 8 (requestLength puts - 8) = putBytes [] puts := by
  have hholds := holds_fillRequest req cmd puts hfits
  obtain ⟨tail, htail, htransfer⟩ := transfer_eq hholds
  have hlength : (wireImage cmd (putBytes [] puts) ++ tail).length ≤ sizeofPacket := by
    have hfits' := hholds.fits
    rw [List.length_append, length_wireImage, htail]
    simp only [evenLength, sendTail, sizeofPacket]
    split_ifs <;> omega
  have hload : (Mem.ofList (wireImage cmd (putBytes [] puts) ++ tail)).load 0
      (evenLength (8 + (putBytes [] puts).length)) = wireImage cmd (putBytes [] puts) := by
    rw [← length_wireImage cmd, Mem.load_ofList]
  have hcheck := checkResponse_wireImage tf.nocrc
    (wireImage cmd (putBytes [] puts) ++ tail).length hholds.fits hload
    (by rw [List.length_append, length_wireImage, evenLength]; omega)
  obtain ⟨hret, hreceived⟩ := hcheck
  have hsent : (wireImage cmd (putBytes [] puts) ++ tail).length =
      tfSendLen (tfReqDone (fillRequest req cmd puts)) := by
    rw [← htransfer, tfSendBytes, Mem.length_load]
  simp only [tfSend, hdev, if_true, tfGetResponse, loopback, htransfer, List.take_of_length_le hlength]
  refine ⟨by rw [hsent, if_pos rfl], hret, hret, hreceived.length, hreceived.cmd, ?_⟩
  rw [requestLength, Nat.add_sub_cancel_left]
  exact hreceived.data

theorem tfGetResponse_tfSend_three_bytes :
    let puts := [ReqPut.put64 7, .putdata [1, 2, 3]]
    let tf := TfHandle.opened [] fun _ => 0
    let sent := tfSend loopback tf (tfReqDone (fillRequest (fun _ => 0xAA) tfMsgHddFileData puts))
    let got := tfGetResponse loopback sent.tf fun _ => 0x55
    sent.ret = tfErrNone ∧ got.ret = tfErrNone ∧ got.tf.error = tfErrNone ∧
      (packetLength got.out).toNat = requestLength puts ∧ packetCmd got.out = tfMsgHddFileData ∧
      got.out.load 8 (requestLength puts - 8) = putBytes [] puts :=
  tfGetResponse_tfSend _ _ _ _ _ (by decide) rfl

end Topfield
