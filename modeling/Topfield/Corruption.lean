import Topfield.Checksum
import Topfield.Peer
import Topfield.Validation

/-!
# Damaged replies

What `tf_get_response` makes of a packet that has not arrived as it was sent. Bytes changed within two
neighbours are always noticed by the checksum. A transfer that has been cut off is noticed by its length,
with one exception: the last byte of a packet of odd length goes behind the padding on the wire, and the
received count is compared with the length that has not been rounded up. Then only the checksum is left to
notice that this byte is missing.
-/

namespace Topfield

open Lib

variable {σ : Type}

def Packet.length (packet : Packet) : Nat := 8 + packet.payload.length

/-- A byte of a received packet of length `len`, once the exchange of neighbours is undone. -/
def decodedByte (len : Nat) (content : Mem) (i : Nat) : UInt8 := byteSwap content (evenLength len) i

def Changed (packet : Packet) (content : Mem) (i : Nat) : Prop :=
  decodedByte packet.length content i ≠ decodedByte packet.length (Mem.ofList packet.wire) i

/-- The packet has arrived with its length intact and other bytes changed: some in the checksum, or
some within two neighbours of what it covers. -/
structure Corrupts (packet : Packet) (content : Mem) : Prop where
  length : ∀ i < 2, content i = Mem.ofList packet.wire i
  changed : ∃ i, 2 ≤ i ∧ i < packet.length ∧ Changed packet content i
  within : (∀ i, 2 ≤ i → i < packet.length → Changed packet content i → i < 4) ∨
    ∃ k, 4 ≤ k ∧ ∀ i, 2 ≤ i → i < packet.length → Changed packet content i → k ≤ i ∧ i ≤ k + 1

/-! ### The intact packet -/

theorem load_wire (packet : Packet) :
    (Mem.ofList packet.wire).load 0 (evenLength packet.length) = packet.wire := by
  have h := Mem.load_ofList_self packet.wire
  rwa [Packet.wire, length_wireImage] at h

theorem getU16Raw_of_header {packet : Packet} {content : Mem}
    (h : ∀ i < 2, content i = Mem.ofList packet.wire i) :
    (getU16Raw content 0).toNat = packet.length := by
  rw [getU16Raw, h 0 (by decide), h 1 (by decide)]
  exact getU16Raw_wireImage packet.fits (load_wire packet)

/-! ### The checksum of a packet -/

def CrcHolds (m : Mem) (n : Nat) : Prop :=
  ofBE (m.load 2 2) = ((m.load 4 (4 + n)).foldl crc16Step 0).toNat

theorem storedCrc_eq_iff (content : Mem) {len : UInt16} {n : Nat} (hlen : len.toNat = 8 + n) :
    storedCrc content len = computedCrc content len ↔
      CrcHolds (byteSwap content (evenLength (8 + n))) n := by
  rw [← UInt16.toNat_inj, storedCrc, getU16_toNat, computedCrc, sizeT_crcSize hlen, crc16Ansi_eq_foldl,
    Mem.load_offset, hlen]
  rfl

theorem crcHolds_wire (packet : Packet) :
    CrcHolds (byteSwap (Mem.ofList packet.wire) (evenLength packet.length)) packet.payload.length := by
  obtain ⟨hcrc, hcmd, hdata⟩ := load_byteSwap_fields (load_wire packet)
  have hlength : packet.length = 8 + packet.payload.length := rfl
  rw [CrcHolds, hlength, hcrc, Mem.load_add, hcmd, hdata, ofBE_toBE]
  exact Nat.mod_eq_of_lt (packetCrc packet.cmd packet.payload).toNat_lt

theorem foldl_load_burst {m m' : Mem} {a n k i : Nat} (crc : UInt16) (hk : a ≤ k)
    (hwithin : ∀ j, a ≤ j → j < a + n → m j ≠ m' j → k ≤ j ∧ j ≤ k + 1) (hlow : a ≤ i)
    (hhigh : i < a + n) (hne : m i ≠ m' i) :
    (m.load a n).foldl crc16Step crc ≠ (m'.load a n).foldl crc16Step crc := by
  have hi := hwithin i hlow hhigh hne
  obtain ⟨before, rfl⟩ : ∃ before, k = a + before := ⟨k - a, by omega⟩
  obtain ⟨size, hsize⟩ : ∃ size, size = min 2 (n - before) := ⟨_, rfl⟩
  obtain ⟨after, hafter⟩ : ∃ after, after = n - before - size := ⟨_, rfl⟩
  have hn : n = before + size + after := by omega
  have hbefore : m.load a before = m'.load a before := by
    refine Mem.load_congr fun j hj => ?_
    by_contra hdiff
    have hj := hwithin (a + j) (by omega) (by omega) hdiff
    omega
  have hrest : m.load (a + (before + size)) after = m'.load (a + (before + size)) after := by
    refine Mem.load_congr fun j hj => ?_
    by_contra hdiff
    have hj := hwithin (a + (before + size) + j) (by omega) (by omega) hdiff
    omega
  have hstretch : m.load (a + before) size ≠ m'.load (a + before) size :=
    Mem.load_ne hi.1 (by omega) hne
  rw [hn, Mem.load_add, Mem.load_add, Mem.load_add m', Mem.load_add m' a before, hbefore, hrest]
  refine foldl_crc16Step_burst crc _ _ (by simp) ?_ hstretch
  rw [Mem.length_load]
  omega

section Damage

variable {sent m : Mem} {n i : Nat}

/-- A packet with a right checksum does not keep it when only the field is changed. -/
theorem not_crcHolds_of_field (hsent : CrcHolds sent n)
    (hwithin : ∀ j, 2 ≤ j → j < 8 + n → m j ≠ sent j → j < 4) (hlow : 2 ≤ i) (hhigh : i < 8 + n)
    (hne : m i ≠ sent i) : ¬ CrcHolds m n := by
  intro h
  have hcovered : m.load 4 (4 + n) = sent.load 4 (4 + n) := by
    refine Mem.load_congr fun j hj => ?_
    by_contra hdiff
    have hj := hwithin (4 + j) (by omega) (by omega) hdiff
    omega
  have hfour := hwithin i hlow hhigh hne
  rw [CrcHolds, hcovered, ← hsent] at h
  exact Mem.load_ne hlow (by omega) hne (eq_of_ofBE_eq (by simp) h)

theorem not_crcHolds_of_covered {k : Nat} (hsent : CrcHolds sent n) (hk : 4 ≤ k)
    (hwithin : ∀ j, 2 ≤ j → j < 8 + n → m j ≠ sent j → k ≤ j ∧ j ≤ k + 1) (hlow : 2 ≤ i)
    (hhigh : i < 8 + n) (hne : m i ≠ sent i) : ¬ CrcHolds m n := by
  intro h
  have hfield : m.load 2 2 = sent.load 2 2 := by
    refine Mem.load_congr fun j hj => ?_
    by_contra hdiff
    have hj := hwithin (2 + j) (by omega) (by omega) hdiff
    omega
  have hi := hwithin i hlow hhigh hne
  rw [CrcHolds, hfield, hsent, UInt16.toNat_inj] at h
  refine foldl_load_burst 0 hk ?_ (by omega) (by omega) hne h.symm
  intro j hj hj' hdiff
  exact hwithin j (by omega) (by omega) hdiff

end Damage

/-! ### Changed bytes -/

theorem Corrupts.not_crcHolds {packet : Packet} {content : Mem} (h : Corrupts packet content) :
    ¬ CrcHolds (byteSwap content (evenLength packet.length)) packet.payload.length := by
  obtain ⟨i, hlow, hhigh, hchanged⟩ := h.changed
  rcases h.within with hfield | ⟨k, hk, hcovered⟩
  · exact not_crcHolds_of_field (crcHolds_wire packet) hfield hlow hhigh hchanged
  · exact not_crcHolds_of_covered (crcHolds_wire packet) hk hcovered hlow hhigh hchanged

theorem checkResponse_corrupted {packet : Packet} {content : Mem} {ret : Int}
    (hret : (packet.length : Int) ≤ ret) (h : Corrupts packet content) :
    (checkResponse 0 ret content).1 = tfErrCrc := by
  have hlen := getU16Raw_of_header h.length
  have hlength : packet.length = 8 + packet.payload.length := rfl
  have hresponse : responseLength ret content = some (getU16Raw content 0) :=
    responseLength_eq_some (by omega) (by omega)
  rw [(checkResponse_of_some 0 hresponse).1, if_pos]
  refine ⟨rfl, ?_⟩
  rw [Ne, storedCrc_eq_iff content (hlen.trans hlength)]
  exact h.not_crcHolds

/-- **Corruption.** A packet that arrives with its length intact is rejected if its checksum field has
been changed, or up to two neighbours of what it covers. -/
theorem tfGetResponse_corrupted (e : Env σ) (tf : TfHandle σ) (reply : Mem) (packet : Packet)
    (hdev : tf.dev = true) (hnocrc : tf.nocrc = 0)
    (hret : (packet.length : Int) ≤ (received e tf).1) (h : Corrupts packet (received e tf).2) :
    (tfGetResponse e tf reply).ret = tfErrCrc := by
  rw [(tfGetResponse_of_dev e reply hdev).1, hnocrc]
  exact checkResponse_corrupted hret h

def delivering (bytes : List UInt8) : Env Unit where
  toHost := Host.blank _
  write _ _ _ sent := (sent.length, ())
  read _ _ _ _ := ((bytes.length, Mem.ofList bytes), ())

instance (packet : Packet) (content : Mem) (i : Nat) : Decidable (Changed packet content i) :=
  inferInstanceAs (Decidable (_ ≠ _))

/-- A READY packet whose command word has lost its only bit. -/
theorem tfGetResponse_corrupted_ready :
    (tfGetResponse (delivering [0x08, 0x00, 0x01, 0x90, 0x00, 0x00, 0x00, 0x00])
      (TfHandle.opened () fun _ => 0) fun _ => 0).ret = tfErrCrc := by
  have hwithin : ∀ i < 8, Changed (Packet.header tfMsgReady)
      (Mem.ofList [0x08, 0x00, 0x01, 0x90, 0x00, 0x00, 0x00, 0x00]) i → 6 ≤ i ∧ i ≤ 7 := by
    decide +kernel
  refine tfGetResponse_corrupted _ _ _ (Packet.header tfMsgReady) rfl rfl (by decide)
    ⟨by decide +kernel, ⟨6, by decide, by decide, ?_⟩, .inr ⟨6, by decide, fun i _ hi => hwithin i hi⟩⟩
  decide +kernel

/-! ### Missing bytes -/

/-- What has arrived of a packet is rejected, or it is the packet. -/
def Caught (e : Env σ) (tf : TfHandle σ) (reply : Mem) (packet : Packet) : Prop :=
  (tfGetResponse e tf reply).ret ≠ 0 ∨
    Received (tfGetResponse e tf reply).out packet.cmd packet.payload

/-- Only the last byte of a packet of odd length is missing, it is not the zero found in its place, and
checksums are not looked at. -/
def LastByteLost (nocrc : Int) (packet : Packet) (bytes : List UInt8) : Prop :=
  nocrc ≠ 0 ∧ packet.length % 2 = 1 ∧ bytes.length = packet.length ∧ packet.payload.getLast? ≠ some 0

theorem ofList_of_prefix {bytes whole : List UInt8} (h : bytes <+: whole) {i : Nat}
    (hi : i < bytes.length) : Mem.ofList bytes i = Mem.ofList whole i := by
  obtain ⟨rest, rfl⟩ := h
  simp [Mem.ofList, List.getElem?_append_left hi]

theorem ofList_past {bytes : List UInt8} {i : Nat} (hi : bytes.length ≤ i) : Mem.ofList bytes i = 0 :=
  List.getD_eq_default bytes 0 hi

theorem wire_of_odd {packet : Packet} (hodd : packet.length % 2 = 1) :
    ∃ front last, packet.payload.getLast? = some last ∧ packet.wire = front ++ [last] ∧
      front.length = packet.length := by
  have hlength : packet.length = 8 + packet.payload.length := rfl
  obtain ⟨init, last, hpayload⟩ : ∃ init last, packet.payload = init ++ [last] := by
    rcases List.eq_nil_or_concat' packet.payload with hnil | h
    · rw [hlength, hnil] at hodd
      exact absurd hodd (by decide)
    · exact h
  obtain ⟨image, himage⟩ : ∃ image, packetImage packet.cmd packet.payload = image ++ [last] := by
    refine ⟨toBE 2 (8 + packet.payload.length) ++
      (toBE 2 (packetCrc packet.cmd packet.payload).toNat ++ (toBE 4 packet.cmd.toNat ++ init)), ?_⟩
    rw [packetImage]
    nth_rewrite 3 [hpayload]
    simp only [List.append_assoc]
  have hwhole := length_packetImage packet.cmd packet.payload
  rw [himage, List.length_append, List.length_singleton, ← hlength] at hwhole
  refine ⟨swapPairs image ++ [0], last, by rw [hpayload, List.getLast?_concat], ?_, by simpa using hwhole⟩
  rw [Packet.wire, wireImage, himage, padEven_eq_append, List.length_append, List.length_singleton,
    hwhole, hodd, List.append_assoc, swapPairs_append _ _ (by omega), List.append_assoc]
  rfl

theorem cut_of_length {packet : Packet} {bytes : List UInt8} (hbegin : bytes <+: packet.wire)
    (hproper : bytes ≠ packet.wire) (hlong : packet.length ≤ bytes.length) :
    packet.length % 2 = 1 ∧ ∃ last, packet.payload.getLast? = some last ∧ packet.wire = bytes ++ [last] ∧
      bytes.length = packet.length := by
  have hwire : packet.wire.length = evenLength packet.length := length_wireImage _ _
  have hle := hbegin.length_le
  have hne : bytes.length ≠ packet.wire.length := fun h => hproper (hbegin.eq_of_length h)
  rw [evenLength] at hwire
  have hodd : packet.length % 2 = 1 := by omega
  obtain ⟨front, last, hlast, hfront, hlength⟩ := wire_of_odd hodd
  have hsize : bytes.length = front.length := by omega
  rw [hfront] at hbegin
  have hbytes : bytes = front := List.prefix_of_prefix_length_le hbegin (List.prefix_append _ _)
    hsize.le |>.eq_of_length hsize
  exact ⟨hodd, last, hlast, by rw [hbytes, hfront], by rw [hbytes, hlength]⟩

theorem decodedByte_last {len : Nat} (content : Mem) (hodd : len % 2 = 1) :
    decodedByte len content (len - 1) = content len := by
  have hpartner : partner (evenLength len) (len - 1) = len := by
    rw [partner, if_neg (by omega), if_pos (by rw [evenLength]; omega)]
    omega
  have hinside : len - 1 < evenLength len := by
    rw [evenLength]
    omega
  rw [decodedByte, byteSwap, Mem.swab, if_pos hinside, hpartner]

theorem decodedByte_congr {len i : Nat} {m m' : Mem} (hi : i + 1 < len) (h : ∀ j < len, m j = m' j) :
    decodedByte len m i = decodedByte len m' i := by
  have hpartner : partner (evenLength len) i < len := by
    unfold partner
    split_ifs <;> omega
  have hinside : i < evenLength len := by
    rw [evenLength]
    omega
  simp only [decodedByte, byteSwap, Mem.swab, if_pos hinside]
  exact h _ hpartner

theorem corrupts_of_cut {packet : Packet} {bytes : List UInt8} {last : UInt8}
    (hodd : packet.length % 2 = 1) (hwire : packet.wire = bytes ++ [last])
    (hlength : bytes.length = packet.length) (hlast : last ≠ 0) :
    Corrupts packet (Mem.ofList bytes) := by
  have hsame : ∀ i < packet.length, Mem.ofList bytes i = Mem.ofList packet.wire i := fun i hi =>
    ofList_of_prefix (hwire ▸ List.prefix_append _ _) (by omega)
  have height : 8 ≤ packet.length := Nat.le_add_right _ _
  have hmissing : Mem.ofList packet.wire packet.length = last := by
    rw [hwire, ← hlength]
    simp [Mem.ofList]
  refine ⟨fun i hi => hsame i (by omega), ⟨packet.length - 1, by omega, by omega, ?_⟩,
    .inr ⟨packet.length - 1, by omega, fun i _ hi hchanged => ⟨?_, by omega⟩⟩⟩
  · rw [Changed, decodedByte_last _ hodd, decodedByte_last _ hodd, ofList_past hlength.le, hmissing]
    exact hlast.symm
  · by_contra hbefore
    exact hchanged (decodedByte_congr (by omega) hsame)

theorem checkResponse_data (nocrc : Int) {ret : Int} {content : Mem} {len : UInt16} {i : Nat}
    (h : responseLength ret content = some len) (hi : 8 ≤ i) :
    (checkResponse nocrc ret content).2 i = decodedByte len.toNat content i := by
  simp only [checkResponse, h]
  rw [setPacketCmd, Mem.store_above _ (by simpa using hi), setPacketLength,
    Mem.store_above _ (by rw [length_toLE]; omega)]
  rfl

theorem caught_cut_iff {nocrc : Int} {packet : Packet} {bytes : List UInt8} {last : UInt8}
    (hodd : packet.length % 2 = 1) (hpayload : packet.payload.getLast? = some last)
    (hwire : packet.wire = bytes ++ [last]) (hlength : bytes.length = packet.length) :
    ((checkResponse nocrc bytes.length (Mem.ofList bytes)).1 ≠ 0 ∨
        Received (checkResponse nocrc bytes.length (Mem.ofList bytes)).2 packet.cmd packet.payload) ↔
      nocrc = 0 ∨ last = 0 := by
  have hlen8 : packet.length = 8 + packet.payload.length := rfl
  have hret : (packet.length : Int) ≤ bytes.length := by omega
  by_cases hlast : last = 0
  · -- the zero of the cleared buffer is the missing byte
    refine iff_of_true (.inr ?_) (.inr hlast)
    have hload : (Mem.ofList bytes).load 0 (evenLength packet.length) = packet.wire := by
      have heven : evenLength packet.length = bytes.length + 1 := by
        rw [evenLength, hodd, hlength]
      rw [heven, Mem.load_add, Mem.load_ofList_self, Nat.zero_add, hwire, hlast, Mem.load_succ,
        ofList_past le_rfl]
      rfl
    exact (checkResponse_wireImage nocrc _ packet.fits hload hret).2
  · have hcorrupts := corrupts_of_cut hodd hwire hlength hlast
    by_cases hnocrc : nocrc = 0
    · refine iff_of_true (.inl ?_) (.inl hnocrc)
      rw [hnocrc, checkResponse_corrupted hret hcorrupts]
      decide
    · refine iff_of_false ?_ (by simp [hnocrc, hlast])
      have hannounced := getU16Raw_of_header hcorrupts.length
      have hresponse : responseLength bytes.length (Mem.ofList bytes) =
          some (getU16Raw (Mem.ofList bytes) 0) :=
        responseLength_eq_some (by omega) (by omega)
      rintro (herror | hreceived)
      · rw [(checkResponse_of_some nocrc hresponse).1, if_neg fun h => hnocrc h.1] at herror
        exact herror rfl
      · -- the last byte that was sent is not zero, and the one that is read is
        have hzero := checkResponse_data nocrc hresponse (show 8 ≤ packet.length - 1 by omega)
        rw [hannounced, decodedByte_last _ hodd, ofList_past hlength.le] at hzero
        have hdata := congrArg List.getLast? hreceived.data
        rw [hpayload, List.getLast?_eq_getElem?, Mem.length_load,
          List.getElem?_eq_getElem (by rw [Mem.length_load]; omega), Mem.getElem_load,
          show 8 + (packet.payload.length - 1) = packet.length - 1 by omega, hzero] at hdata
        exact hlast (Option.some.inj hdata).symm

/-- **Cut off transfers.** A packet of which only a beginning has arrived is rejected or read as it was
sent, unless its last byte is missing, was not zero, and checksums are not looked at. -/
theorem caught_iff (e : Env σ) (tf : TfHandle σ) (reply : Mem) (packet : Packet) {bytes : List UInt8}
    (hdev : tf.dev = true) (hread : received e tf = ((bytes.length : Int), Mem.ofList bytes))
    (hbegin : bytes <+: packet.wire) (hproper : bytes ≠ packet.wire) :
    Caught e tf reply packet ↔ ¬ LastByteLost tf.nocrc packet bytes := by
  obtain ⟨hret, hout⟩ := tfGetResponse_of_dev e reply hdev
  rw [hread] at hret hout
  rw [Caught, hret, hout]
  by_cases hlong : packet.length ≤ bytes.length
  · obtain ⟨hodd, last, hpayload, hwire, hlength⟩ := cut_of_length hbegin hproper hlong
    rw [caught_cut_iff hodd hpayload hwire hlength, LastByteLost, hpayload]
    simp only [hodd, hlength, true_and, Ne, Option.some.injEq, not_and, not_not]
    exact Decidable.or_iff_not_imp_left
  · refine iff_of_true (.inl ?_) fun hlost => hlong hlost.2.2.1.ge
    have hnone : responseLength bytes.length (Mem.ofList bytes) = none := by
      by_cases hhead : bytes.length < 8
      · rw [responseLength, if_pos (by simp only [packetHeadSize]; omega)]
      · have hannounced : (getU16Raw (Mem.ofList bytes) 0).toNat = packet.length :=
          getU16Raw_of_header fun i hi => ofList_of_prefix hbegin (by omega)
        rw [responseLength, if_neg (by simp only [packetHeadSize]; omega)]
        simp only
        rw [if_pos (by omega)]
    rw [checkResponse_of_none _ hnone]
    exact tfErrIo_neg.ne

/-- The FAIL packet of nine bytes that the next two statements cut off. -/
def oddPacket : Packet := ⟨tfMsgFail, [0x2A], by decide⟩

theorem caught_iff_odd :
    Caught (delivering (oddPacket.wire.take 9)) (TfHandle.opened () fun _ => 0) (fun _ => 0) oddPacket ↔
      ¬ LastByteLost 0 oddPacket (oddPacket.wire.take 9) :=
  caught_iff (delivering (oddPacket.wire.take 9)) (TfHandle.opened () fun _ => 0) (fun _ => 0) oddPacket rfl
    rfl (List.take_prefix 9 _) (by decide +kernel)

/-- When checksums are not looked at, a 0 is read for the byte that is missing. -/
theorem not_caught_odd :
    oddPacket.wire.take 9 <+: oddPacket.wire ∧ oddPacket.wire.take 9 ≠ oddPacket.wire ∧
      ¬ Caught (delivering (oddPacket.wire.take 9)) { TfHandle.opened () fun _ => 0 with nocrc := 1 }
        (fun _ => 0) oddPacket := by
  refine ⟨List.take_prefix 9 _, by decide +kernel, ?_⟩
  rintro (herror | hreceived)
  · exact herror (by decide +kernel)
  · have hdata := hreceived.data
    exact absurd hdata (by decide +kernel)

end Topfield
