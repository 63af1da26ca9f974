import Topfield.Packet

/-!
# Requests

Every request of the library is a command word and a sequence of `tf_req_put...` calls between
`tf_req_init` and `tf_req_done`. A request is kept as that sequence, and built from it in whatever the
packet buffer held before.
-/

namespace Topfield

open Lib

/-- A `tf_req_put...` call. -/
inductive ReqPut
  | put8 (value : UInt8)
  | put16 (value : UInt16)
  | put32 (value : UInt32)
  | put64 (value : UInt64)
  | putdata (data : List UInt8)
  | putfilename (str : CString) (addlength : Bool)

def ReqPut.run (req : Mem) : ReqPut → Mem
  | put8 value => tfReqPut8 req value
  | put16 value => tfReqPut16 req value
  | put32 value => tfReqPut32 req value
  | put64 value => tfReqPut64 req value
  | putdata data => tfReqPutdata req data
  | putfilename str addlength => tfReqPutfilename req str addlength

/-- A packet buffer filled by a sequence of calls after `tf_req_init`. -/
def fillRequest (req : Mem) (cmd : UInt32) (puts : List ReqPut) : Mem :=
  puts.foldl ReqPut.run (tfReqInit req cmd)

/-- Direction for `TF_MSG_HDD_FILE_SEND`. -/
abbrev dirPut : UInt8 := 0
abbrev dirGet : UInt8 := 1

/-- The bytes of a `tf_typefile_t`. -/
structure Typefile where
  bytes : List UInt8
  length : bytes.length = 114

/-- The requests the library builds, with the arguments that go into them. -/
inductive Request
  | hddSize
  | cancel
  | ready
  | reset
  | turbo (on : Int)
  | delete (path : CString)
  | mkdir (path : CString)
  | rename (src dest : CString)
  | dir (path : CString)
  | filePut (path : CString) (offset : UInt64)
  | fileGet (path : CString) (offset : UInt64)
  | fileStart (typefile : Typefile)
  | fileData (offset : UInt64) (data : List UInt8)
  | fileEnd
  | fail (reason : Int)

namespace Request

def cmd : Request → UInt32
  | hddSize => tfMsgHddSize
  | cancel => tfMsgCancel
  | ready => tfMsgReady
  | reset => tfMsgReset
  | turbo _ => tfMsgTurbo
  | delete _ => tfMsgHddDelete
  | mkdir _ => tfMsgHddMkdir
  | rename _ _ => tfMsgHddRename
  | dir _ => tfMsgHddDir
  | filePut _ _ => tfMsgHddFileSend
  | fileGet _ _ => tfMsgHddFileSend
  | fileStart _ => tfMsgHddFileStart
  | fileData _ _ => tfMsgHddFileData
  | fileEnd => tfMsgHddFileEnd
  | fail _ => tfMsgFail

def puts : Request → List ReqPut
  | hddSize => []
  | cancel => []
  | ready => []
  | reset => []
  | turbo on => [.put32 (UInt32.ofInt on)]
  | delete path => [.putfilename path false]
  | mkdir path => [.putfilename path true]
  | rename src dest => [.putfilename src true, .putfilename dest true]
  | dir path => [.putfilename path false]
  | filePut path offset => [.put8 dirPut, .putfilename path true, .put64 offset]
  | fileGet path offset => [.put8 dirGet, .putfilename path true, .put64 offset]
  | fileStart typefile => [.putdata typefile.bytes]
  | fileData offset data => [.put64 offset, .putdata data]
  | fileEnd => []
  | fail reason => [.put32 (UInt32.ofInt reason)]

/-- The finished request, built in the buffer `req`. -/
def build (r : Request) (req : Mem) : Mem := tfReqDone (fillRequest req r.cmd r.puts)

end Request

/-! ### What a request says

The bytes a call appends to a packet of length `pos`, as long as they fit. -/

def ReqPut.bytes (pos : Nat) : ReqPut → List UInt8
  | put8 value => [value]
  | put16 value => toBE 2 value.toNat
  | put32 value => toBE 4 value.toNat
  | put64 value => toBE 8 value.toNat
  | putdata data => data
  | putfilename str addlength =>
    let pad := (str.strlen + 1 + pos) % 2
    (if addlength then toBE 2 (str.strlen + 1 + pad) else []) ++
      (str.bytes.map translateSlash ++ [0]) ++ List.replicate pad 0

/-- The bytes put by a sequence of calls, in order, after those in `payload`. -/
def putBytes (payload : List UInt8) (puts : List ReqPut) : List UInt8 :=
  puts.foldl (fun payload put => payload ++ put.bytes (8 + payload.length)) payload

/-- The length of a packet, counted without wrapping. -/
def requestLength (puts : List ReqPut) : Nat := 8 + (putBytes [] puts).length

namespace Request

def payload (r : Request) : List UInt8 := putBytes [] r.puts

def length (r : Request) : Nat := 8 + r.payload.length

/-- The request does not exceed the largest packet. -/
def Fits (r : Request) : Prop := r.length ≤ 0xFFFF

instance (r : Request) : Decidable r.Fits := inferInstanceAs (Decidable (_ ≤ _))

end Request

theorem length_le_putBytes (payload : List UInt8) (puts : List ReqPut) :
    payload.length ≤ (putBytes payload puts).length := by
  induction puts generalizing payload with
  | nil => exact le_rfl
  | cons put rest ih =>
    have h := ih (payload ++ put.bytes (8 + payload.length))
    rw [List.length_append] at h
    rw [putBytes, List.foldl_cons]
    exact le_trans (Nat.le_add_right _ _) h

/-! ### A packet under construction -/

/-- The buffer holds an unfinished packet with the given command and payload. -/
structure Holds (req : Mem) (cmd : UInt32) (payload : List UInt8) : Prop where
  length : (packetLength req).toNat = 8 + payload.length
  fits : 8 + payload.length ≤ 0xFFFF
  body : req.load 4 (4 + payload.length) = toBE 4 cmd.toNat ++ payload

theorem packetLength_setPacketLength (m : Mem) (len : UInt16) :
    packetLength (setPacketLength m len) = len := by
  apply UInt16.toNat_inj.mp
  have hlen := len.toNat_lt
  have hload : (m.store 0 (toLE 2 len.toNat)).load 0 2 = toLE 2 len.toNat := by
    simpa using Mem.load_store_self m 0 (toLE 2 len.toNat)
  rw [packetLength, setPacketLength, hload, ofLE_toLE, UInt16.toNat_ofNat']
  omega

theorem load_setPacketLength (m : Mem) (len : UInt16) {a n : Nat} (ha : 2 ≤ a) :
    (setPacketLength m len).load a n = m.load a n :=
  Mem.load_store_disjoint m (.inr (by simpa using ha))

theorem packetLength_store (m : Mem) {a : Nat} (bytes : List UInt8) (ha : 2 ≤ a) :
    packetLength (m.store a bytes) = packetLength m := by
  rw [packetLength, packetLength, Mem.load_store_disjoint m (.inl ha)]

theorem tfReqPut8_eq (req : Mem) (value : UInt8) : tfReqPut8 req value = tfReqPutdata req [value] := by
  simp only [tfReqPut8, tfReqPutdata, Mem.set_eq_store]
  rfl

theorem tfReqPut16_eq (req : Mem) (value : UInt16) :
    tfReqPut16 req value = tfReqPutdata req (toBE 2 value.toNat) := by
  simp only [tfReqPut16, tfReqPutdata, putU16_eq_store]
  rfl

theorem tfReqPut32_eq (req : Mem) (value : UInt32) :
    tfReqPut32 req value = tfReqPutdata req (toBE 4 value.toNat) := by
  simp only [tfReqPut32, tfReqPutdata, putU32_eq_store]
  rfl

theorem tfReqPut64_eq (req : Mem) (value : UInt64) :
    tfReqPut64 req value = tfReqPutdata req (toBE 8 value.toNat) := by
  simp only [tfReqPut64, tfReqPutdata, putU64_eq_store]
  rfl

theorem holds_init (req : Mem) (cmd : UInt32) : Holds (tfReqInit req cmd) cmd [] := by
  refine ⟨?_, by decide, ?_⟩
  · simp only [tfReqInit, putU32_eq_store, Mem.set_eq_store]
    rw [packetLength_store _ _ (by decide), packetLength_store _ _ (by decide), setPacketCrc,
      packetLength_store _ _ (by decide), packetLength_setPacketLength]
    rfl
  · simp only [tfReqInit, putU32_eq_store, Mem.set_eq_store, List.length_nil, List.append_nil]
    rw [Mem.load_store_disjoint _ (.inl (by decide))]
    simpa using Mem.load_store_self (setPacketCrc (setPacketLength req 8) 0) 4 (toBE 4 cmd.toNat)

theorem holds_putdata {req : Mem} {cmd : UInt32} {payload : List UInt8} (h : Holds req cmd payload)
    (data : List UInt8) (hfits : 8 + payload.length + data.length ≤ 0xFFFF) :
    Holds (tfReqPutdata req data) cmd (payload ++ data) := by
  have hlen := h.length
  have hpos : 2 ≤ (packetLength req).toNat := by omega
  refine ⟨?_, by rw [List.length_append]; omega, ?_⟩
  · rw [tfReqPutdata, packetLength_setPacketLength, packetLength_store _ _ hpos, UInt16.toNat_add, hlen,
      UInt16.toNat_ofNat', List.length_append]
    omega
  · have hpast : (packetLength req).toNat = 4 + (4 + payload.length) := by omega
    rw [tfReqPutdata, load_setPacketLength _ _ (by decide), List.length_append, ← Nat.add_assoc,
      Mem.load_add, Mem.load_store_disjoint _ (.inl (by omega)), h.body, ← hpast,
      Mem.load_store_self, List.append_assoc]

theorem holds_putchars {req : Mem} {cmd : UInt32} {payload : List UInt8} (h : Holds req cmd payload)
    (chars : List UInt8) (hfits : 8 + payload.length + chars.length ≤ 0xFFFF) :
    Holds (chars.foldl (fun req c => tfReqPut8 req (translateSlash c)) req) cmd
      (payload ++ chars.map translateSlash) := by
  induction chars generalizing req payload with
  | nil => simpa using h
  | cons c rest ih =>
    rw [List.length_cons] at hfits
    have hstep := holds_putdata h [translateSlash c] (by rw [List.length_singleton]; omega)
    rw [← tfReqPut8_eq] at hstep
    have hrest := ih hstep (by rw [List.length_append, List.length_singleton]; omega)
    rwa [List.append_assoc] at hrest

theorem holds_putlength {req : Mem} {cmd : UInt32} {payload : List UInt8}
    (h : Holds req cmd payload) (addlength : Bool) (n : Nat)
    (hfits : 8 + payload.length + (if addlength then toBE 2 n else []).length ≤ 0xFFFF)
    (hn : n < 0x10000) :
    Holds (if addlength then tfReqPut16 req (UInt16.ofNat n) else req) cmd
      (payload ++ if addlength then toBE 2 n else []) := by
  cases addlength with
  | false => simpa using h
  | true =>
    have hval : (UInt16.ofNat n).toNat = n := by
      rw [UInt16.toNat_ofNat']
      omega
    simp only [if_true] at hfits ⊢
    rw [tfReqPut16_eq, hval]
    exact holds_putdata h _ hfits

theorem holds_putpad {req : Mem} {cmd : UInt32} {payload : List UInt8} (h : Holds req cmd payload)
    (pad : Nat) (hpad : pad < 2) (hfits : 8 + payload.length + pad ≤ 0xFFFF) :
    Holds (if pad = 1 then tfReqPut8 req 0 else req) cmd (payload ++ List.replicate pad 0) := by
  by_cases hone : pad = 1
  · rw [if_pos hone, tfReqPut8_eq, hone]
    exact holds_putdata h [0] (by rw [List.length_singleton]; omega)
  · have hzero : pad = 0 := by omega
    rw [if_neg hone, hzero, List.replicate_zero, List.append_nil]
    exact h

theorem holds_putfilename {req : Mem} {cmd : UInt32} {payload : List UInt8}
    (h : Holds req cmd payload) (str : CString) (addlength : Bool)
    (hfits : 8 + payload.length +
      ((ReqPut.putfilename str addlength).bytes (8 + payload.length)).length ≤ 0xFFFF) :
    Holds (tfReqPutfilename req str addlength) cmd
      (payload ++ (ReqPut.putfilename str addlength).bytes (8 + payload.length)) := by
  have hlen := h.length
  have hstrlen : str.strlen = str.bytes.length := rfl
  have hpad : (str.strlen + 1 + (8 + payload.length)) % 2 < 2 := Nat.mod_lt _ (by decide)
  have htotal : 8 + payload.length + (str.strlen + 1) ≤ 0xFFFF := by
    simp only [ReqPut.bytes, List.length_append, List.length_map, List.length_singleton] at hfits
    omega
  have hwrap : (str.strlen + 1) % 2 ^ 32 = str.strlen + 1 := Nat.mod_eq_of_lt (by omega)
  have htake : (str.bytes ++ [0]).take (str.strlen + 1) = str.bytes ++ [0] :=
    List.take_of_length_le (by rw [List.length_append, List.length_singleton, hstrlen])
  simp only [tfReqPutfilename, hwrap, hlen, htake]
  simp only [ReqPut.bytes] at hfits ⊢
  generalize (str.strlen + 1 + (8 + payload.length)) % 2 = pad at hpad hfits ⊢
  simp only [List.length_append, List.length_map, List.length_singleton, List.length_replicate]
    at hfits
  have hprefix := holds_putlength h addlength (str.strlen + 1 + pad) (by omega) (by omega)
  have hchars := holds_putchars hprefix (str.bytes ++ [0])
    (by simp only [List.length_append, List.length_singleton]; omega)
  have hlast := holds_putpad hchars pad hpad
    (by simp only [List.length_append, List.length_map, List.length_singleton]; omega)
  have hnul : ([0] : List UInt8).map translateSlash = [0] := rfl
  simpa only [List.map_append, hnul, List.append_assoc] using hlast

theorem holds_run {req : Mem} {cmd : UInt32} {payload : List UInt8} (h : Holds req cmd payload)
    (put : ReqPut) (hfits : 8 + payload.length + (put.bytes (8 + payload.length)).length ≤ 0xFFFF) :
    Holds (put.run req) cmd (payload ++ put.bytes (8 + payload.length)) := by
  cases put with
  | put8 value =>
    rw [ReqPut.run, tfReqPut8_eq]
    exact holds_putdata h _ hfits
  | put16 value =>
    rw [ReqPut.run, tfReqPut16_eq]
    exact holds_putdata h _ hfits
  | put32 value =>
    rw [ReqPut.run, tfReqPut32_eq]
    exact holds_putdata h _ hfits
  | put64 value =>
    rw [ReqPut.run, tfReqPut64_eq]
    exact holds_putdata h _ hfits
  | putdata data => exact holds_putdata h data hfits
  | putfilename str addlength => exact holds_putfilename h str addlength hfits

theorem holds_puts {req : Mem} {cmd : UInt32} {payload : List UInt8} (h : Holds req cmd payload)
    (puts : List ReqPut) (hfits : 8 + (putBytes payload puts).length ≤ 0xFFFF) :
    Holds (puts.foldl ReqPut.run req) cmd (putBytes payload puts) := by
  induction puts generalizing req payload with
  | nil => exact h
  | cons put rest ih =>
    have hle := length_le_putBytes (payload ++ put.bytes (8 + payload.length)) rest
    rw [List.length_append] at hle
    rw [putBytes, List.foldl_cons] at hfits
    exact ih (holds_run h put (by rw [putBytes] at hle; omega)) hfits

/-- After `tf_req_init` and any calls that fit, the buffer holds exactly what was put. -/
theorem holds_fillRequest (req : Mem) (cmd : UInt32) (puts : List ReqPut)
    (hfits : requestLength puts ≤ 0xFFFF) :
    Holds (fillRequest req cmd puts) cmd (putBytes [] puts) :=
  holds_puts (holds_init req cmd) puts hfits

end Topfield
