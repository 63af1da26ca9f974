import Topfield.Request

/-!
# Requests write by write

Every `tf_req_put...` call stores some bytes at the end of the packet and moves the end behind them, a
filename in several such writes. The end is the 16-bit length in the packet itself. As long as it does not
wrap, a write stays between the header and the end of the structure; once it would, it does not.
-/

namespace Topfield

open Lib

/-- The bytes stored by the single writes of a call on a packet of length `pos`: for a filename these are
the writes of `tf_req_put16` and `tf_req_put8`. -/
def ReqPut.writes (pos : Nat) : ReqPut → List (List UInt8)
  | put8 value => [[value]]
  | put16 value => [toBE 2 value.toNat]
  | put32 value => [toBE 4 value.toNat]
  | put64 value => [toBE 8 value.toNat]
  | putdata data => [data]
  | putfilename str addlength =>
    let len := (str.strlen + 1) % 2 ^ 32
    let pad := (len + pos) % 2
    (if addlength then [toBE 2 (UInt16.ofNat (len + pad)).toNat] else []) ++
      ((str.bytes ++ [0]).take len).map (fun c => [translateSlash c]) ++ (if pad = 1 then [[0]] else [])

def writtenBytes (writes : List (List UInt8)) : Nat := (writes.map List.length).sum

def writtenLength (pos : Nat) (puts : List ReqPut) : Nat :=
  puts.foldl (fun pos put => pos + writtenBytes (put.writes pos)) pos

/-- Every call is the sequence of its writes. -/
theorem ReqPut.run_eq_foldl (req : Mem) (put : ReqPut) :
    put.run req = (put.writes (packetLength req).toNat).foldl tfReqPutdata req := by
  cases put with
  | put8 value => exact tfReqPut8_eq req value
  | put16 value => exact tfReqPut16_eq req value
  | put32 value => exact tfReqPut32_eq req value
  | put64 value => exact tfReqPut64_eq req value
  | putdata data => rfl
  | putfilename str addlength =>
    simp only [ReqPut.run, ReqPut.writes, tfReqPutfilename, List.foldl_append, List.foldl_map,
      tfReqPut8_eq, tfReqPut16_eq]
    cases addlength
    · split_ifs <;> rfl
    · split_ifs <;> rfl

theorem writtenBytes_cons (data : List UInt8) (rest : List (List UInt8)) :
    writtenBytes (data :: rest) = data.length + writtenBytes rest := by
  rw [writtenBytes, List.map_cons, List.sum_cons, writtenBytes]

theorem writtenBytes_append (left right : List (List UInt8)) :
    writtenBytes (left ++ right) = writtenBytes left + writtenBytes right := by
  rw [writtenBytes, List.map_append, List.sum_append, writtenBytes, writtenBytes]

theorem writtenBytes_chars (f : UInt8 → UInt8) (chars : List UInt8) :
    writtenBytes (chars.map fun c => [f c]) = chars.length := by
  induction chars with
  | nil => rfl
  | cons c rest ih =>
    rw [List.map_cons, writtenBytes_cons, ih, List.length_singleton, List.length_cons, Nat.add_comm]

theorem writtenLength_cons (pos : Nat) (put : ReqPut) (rest : List ReqPut) :
    writtenLength pos (put :: rest) = writtenLength (pos + writtenBytes (put.writes pos)) rest :=
  rfl

theorem le_writtenLength (pos : Nat) (puts : List ReqPut) : pos ≤ writtenLength pos puts := by
  induction puts generalizing pos with
  | nil => exact le_rfl
  | cons put rest ih =>
    rw [writtenLength_cons]
    exact (Nat.le_add_right _ _).trans (ih _)

/-! ### One write -/

theorem packetLength_putdata {req : Mem} (data : List UInt8) (hpos : 2 ≤ (packetLength req).toNat) :
    (packetLength (tfReqPutdata req data)).toNat = ((packetLength req).toNat + data.length) % 0x10000 := by
  rw [tfReqPutdata, packetLength_setPacketLength, packetLength_store _ _ hpos, UInt16.toNat_add,
    UInt16.toNat_ofNat']
  omega

theorem tfReqPutdata_apply (req : Mem) (data : List UInt8) {i : Nat} (hi : 2 ≤ i) :
    tfReqPutdata req data i = req.store (packetLength req).toNat data i := by
  rw [tfReqPutdata, setPacketLength]
  exact Mem.store_above _ (by simpa using hi)

/-- A write that stays in the packet: the length does not wrap, the rest of the header keeps its bytes, and
nothing behind the structure changes. -/
structure WriteInside (req : Mem) (data : List UInt8) : Prop where
  length : (packetLength (tfReqPutdata req data)).toNat = (packetLength req).toNat + data.length
  header : (tfReqPutdata req data).load 2 6 = req.load 2 6
  behind : ∀ i, sizeofPacket ≤ i → tfReqPutdata req data i = req i

theorem writeInside_iff {req : Mem} (data : List UInt8) (hpos : packetHeadSize ≤ (packetLength req).toNat) :
    WriteInside req data ↔ (packetLength req).toNat + data.length ≤ 0xFFFF := by
  simp only [packetHeadSize] at hpos
  constructor
  · intro h
    have hlt := (packetLength (tfReqPutdata req data)).toNat_lt
    rw [h.length] at hlt
    omega
  · intro h
    refine ⟨?_, ?_, fun i hi => ?_⟩
    · rw [packetLength_putdata data (by omega)]
      omega
    · refine Mem.load_congr fun i hi => ?_
      rw [tfReqPutdata_apply req data (by omega)]
      exact Mem.store_below req (by omega)
    · simp only [sizeofPacket] at hi
      rw [tfReqPutdata_apply req data (by omega)]
      exact Mem.store_above req (by omega)

/-! ### All writes of a request -/

def WritesInside (req : Mem) : List (List UInt8) → Prop
  | [] => True
  | data :: rest => WriteInside req data ∧ WritesInside (tfReqPutdata req data) rest

def BuildsInside (req : Mem) : List ReqPut → Prop
  | [] => True
  | put :: rest => WritesInside req (put.writes (packetLength req).toNat) ∧ BuildsInside (put.run req) rest

theorem writesInside_iff {req : Mem} (writes : List (List UInt8))
    (hpos : packetHeadSize ≤ (packetLength req).toNat) :
    WritesInside req writes ↔
      (packetLength req).toNat + writtenBytes writes ≤ 0xFFFF := by
  induction writes generalizing req with
  | nil =>
    have hlt := (packetLength req).toNat_lt
    refine iff_of_true trivial ?_
    show (packetLength req).toNat + 0 ≤ 0xFFFF
    omega
  | cons data rest ih =>
    rw [WritesInside, writeInside_iff data hpos, writtenBytes_cons]
    constructor
    · rintro ⟨hfits, hrest⟩
      have hlength := ((writeInside_iff data hpos).mpr hfits).length
      rw [ih (by omega), hlength] at hrest
      omega
    · intro h
      have hfits : (packetLength req).toNat + data.length ≤ 0xFFFF := by omega
      have hlength := ((writeInside_iff data hpos).mpr hfits).length
      refine ⟨hfits, (ih (by omega)).mpr ?_⟩
      omega

theorem packetLength_writes {req : Mem} {writes : List (List UInt8)}
    (h : WritesInside req writes) :
    (packetLength (writes.foldl tfReqPutdata req)).toNat =
      (packetLength req).toNat + writtenBytes writes := by
  induction writes generalizing req with
  | nil => rfl
  | cons data rest ih =>
    obtain ⟨hfirst, hrest⟩ := h
    rw [List.foldl_cons, ih hrest, hfirst.length, writtenBytes_cons, Nat.add_assoc]

theorem packetLength_run {req : Mem} {put : ReqPut}
    (h : WritesInside req (put.writes (packetLength req).toNat)) :
    (packetLength (put.run req)).toNat =
      (packetLength req).toNat + writtenBytes (put.writes (packetLength req).toNat) := by
  rw [ReqPut.run_eq_foldl, packetLength_writes h]

/-- **Building.** All writes of a sequence of calls stay in the packet exactly if the length, counted
without wrapping, is at most `0xFFFF`. -/
theorem buildsInside_iff {req : Mem} (puts : List ReqPut) (hpos : packetHeadSize ≤ (packetLength req).toNat) :
    BuildsInside req puts ↔ writtenLength (packetLength req).toNat puts ≤ 0xFFFF := by
  induction puts generalizing req with
  | nil =>
    have hlt := (packetLength req).toNat_lt
    refine iff_of_true trivial ?_
    show (packetLength req).toNat ≤ 0xFFFF
    omega
  | cons put rest ih =>
    have hwrites := writesInside_iff (put.writes (packetLength req).toNat) hpos
    rw [BuildsInside, writtenLength_cons]
    constructor
    · rintro ⟨hput, hrest⟩
      have hlength := packetLength_run hput
      rwa [ih (by omega), hlength] at hrest
    · intro h
      have hle := le_writtenLength
        ((packetLength req).toNat + writtenBytes (put.writes (packetLength req).toNat)) rest
      have hput := hwrites.mpr (by omega)
      have hlength := packetLength_run hput
      refine ⟨hput, (ih (by omega)).mpr ?_⟩
      rwa [hlength]

theorem packetLength_tfReqInit (req : Mem) (cmd : UInt32) :
    (packetLength (tfReqInit req cmd)).toNat = packetHeadSize := (holds_init req cmd).length

theorem tfReqInit_eq_store (req : Mem) (cmd : UInt32) :
    tfReqInit req cmd =
      (((req.store 0 (toLE 2 8)).store 2 (toLE 2 0)).store 4 (toBE 4 cmd.toNat)).store 0xFFFF [0] := by
  simp only [tfReqInit, putU32_eq_store, Mem.set_eq_store]
  rfl

theorem tfReqInit_above (req : Mem) (cmd : UInt32) {i : Nat} (hi : packetHeadSize ≤ i) (hdummy : i ≠ 0xFFFF) :
    tfReqInit req cmd i = req i := by
  simp only [packetHeadSize] at hi
  rw [tfReqInit_eq_store, ← Mem.set_eq_store, Mem.set_of_ne _ _ hdummy,
    Mem.store_above _ (by rw [length_toBE]; omega), Mem.store_above _ (by rw [length_toLE]; omega),
    Mem.store_above _ (by rw [length_toLE]; omega)]

/-! ### Against the bytes of a request -/

theorem writtenBytes_eq {put : ReqPut} {pos : Nat} (h : (put.bytes pos).length ≤ 0xFFFF) :
    writtenBytes (put.writes pos) = (put.bytes pos).length := by
  cases put with
  | putfilename str addlength =>
    have hlen : str.strlen + 1 ≤ 0xFFFF := by
      simp only [ReqPut.bytes, List.length_append, List.length_map, List.length_singleton] at h
      have hstrlen : str.strlen = str.bytes.length := rfl
      omega
    have hwrap : (str.strlen + 1) % 2 ^ 32 = str.strlen + 1 := Nat.mod_eq_of_lt (by omega)
    have htake : (str.bytes ++ [0]).take (str.strlen + 1) = str.bytes ++ [0] :=
      List.take_of_length_le (by rw [List.length_append, List.length_singleton]; exact le_rfl)
    have hpad : (str.strlen + 1 + pos) % 2 < 2 := Nat.mod_lt _ (by decide)
    simp only [ReqPut.writes, ReqPut.bytes, hwrap, htake, writtenBytes_append, writtenBytes_chars,
      List.length_append, List.length_map, List.length_replicate, List.length_singleton]
    generalize (str.strlen + 1 + pos) % 2 = pad at hpad
    have hcount :
        writtenBytes (if addlength then [toBE 2 (UInt16.ofNat (str.strlen + 1 + pad)).toNat] else []) =
          (if addlength then toBE 2 (str.strlen + 1 + pad) else []).length := by
      cases addlength
      · rfl
      · simp [writtenBytes]
    have hlast : writtenBytes (if pad = 1 then [[0]] else []) = pad := by
      rcases (by omega : pad = 0 ∨ pad = 1) with rfl | rfl
      · rfl
      · rfl
    rw [hcount, hlast]
  | _ => rfl

theorem writtenLength_eq_putBytes (payload : List UInt8) (puts : List ReqPut)
    (h : 8 + (putBytes payload puts).length ≤ 0xFFFF) :
    writtenLength (8 + payload.length) puts = 8 + (putBytes payload puts).length := by
  induction puts generalizing payload with
  | nil => rfl
  | cons put rest ih =>
    have hcons : putBytes payload (put :: rest) =
        putBytes (payload ++ put.bytes (8 + payload.length)) rest := rfl
    rw [hcons] at h ⊢
    have hle := length_le_putBytes (payload ++ put.bytes (8 + payload.length)) rest
    rw [List.length_append] at hle
    have hnext := ih (payload ++ put.bytes (8 + payload.length)) h
    rw [List.length_append, ← Nat.add_assoc] at hnext
    rwa [writtenLength_cons, writtenBytes_eq (by omega)]

theorem writtenLength_eq_length {r : Request} (hfits : r.Fits) :
    writtenLength packetHeadSize r.puts = r.length :=
  writtenLength_eq_putBytes [] r.puts hfits

end Topfield
