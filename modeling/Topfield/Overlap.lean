import Topfield.Building
import Topfield.Filenames

/-!
# One request in two buffers

A request is built in a local buffer that nobody clears. All bytes up to its length are written, so two
buffers that start differently hold the same packet, and once the length has wrapped they are the same
altogether. What is sent beyond the packet, and what a file descriptor's name field holds behind the name,
is left from before.
-/

namespace Topfield

open Lib

variable {σ : Type}

/-- Two buffers that hold the same packet of length `pos` and differ only behind it, inside the structure. -/
structure Overlap (pos : Nat) (m m' : Mem) : Prop where
  length : (packetLength m).toNat = pos
  header : packetHeadSize ≤ pos
  below : ∀ i < pos, m i = m' i
  above : ∀ i, 0xFFFF ≤ i → m i = m' i

/-- The requests of which no byte is left to the stack: the length wraps, which takes a write to every byte of
the structure, or it is not a multiple of 64. -/
def Request.Covered (r : Request) : Prop :=
  0xFFFF < writtenLength packetHeadSize r.puts ∨ writtenLength packetHeadSize r.puts % 64 ≠ 0

instance (r : Request) : Decidable r.Covered := inferInstanceAs (Decidable (_ ∨ _))

namespace Overlap

variable {pos : Nat} {m m' : Mem}

theorem length_right (h : Overlap pos m m') : (packetLength m').toNat = pos := by
  have hheader := h.header
  simp only [packetHeadSize] at hheader
  rw [← h.length, packetLength, packetLength]
  congr 3
  refine Mem.load_congr fun i hi => (h.below _ ?_).symm
  omega

theorem load (h : Overlap pos m m') {a n : Nat} (ha : a + n ≤ pos) : m.load a n = m'.load a n :=
  Mem.load_congr fun i hi => h.below _ (by omega)

theorem putdata_low (h : Overlap pos m m') (data : List UInt8) {i : Nat} (hi : i < 2) :
    tfReqPutdata m data i = tfReqPutdata m' data i := by
  have hheader := h.header
  simp only [packetHeadSize] at hheader
  have hlength : packetLength m = packetLength m' := UInt16.toNat_inj.mp (h.length.trans h.length_right.symm)
  have hpos : 2 ≤ (packetLength m).toNat := by
    rw [h.length]
    omega
  rw [tfReqPutdata, tfReqPutdata, packetLength_store _ _ hpos,
    packetLength_store _ _ (hlength ▸ hpos), hlength,
    setPacketLength, setPacketLength, Mem.store_inside _ (Nat.zero_le i) (by rw [length_toLE]; omega),
    Mem.store_inside _ (Nat.zero_le i) (by rw [length_toLE]; omega)]

theorem putdata_apply (h : Overlap pos m m') (data : List UInt8) {i : Nat}
    (hi : i < pos + data.length ∨ 0xFFFF ≤ i) : tfReqPutdata m data i = tfReqPutdata m' data i := by
  by_cases hlow : i < 2
  · exact h.putdata_low data hlow
  · rw [tfReqPutdata_apply m data (by omega), tfReqPutdata_apply m' data (by omega), h.length, h.length_right]
    apply Mem.store_congr
    rcases hi with hi | hi
    · by_cases hbelow : i < pos
      · exact .inl (h.below i hbelow)
      · exact .inr ⟨by omega, hi⟩
    · exact .inl (h.above i hi)

theorem putdata (h : Overlap pos m m') {data : List UInt8} (hfits : pos + data.length ≤ 0xFFFF) :
    Overlap (pos + data.length) (tfReqPutdata m data) (tfReqPutdata m' data) := by
  have hheader := h.header
  simp only [packetHeadSize] at hheader
  refine ⟨?_, ?_, fun i hi => h.putdata_apply data (.inl hi), fun i hi => h.putdata_apply data (.inr hi)⟩
  · rw [packetLength_putdata data (by rw [h.length]; omega), h.length]
    omega
  · simp only [packetHeadSize]
    omega

/-- A write that makes the length wrap has written everything that was different. -/
theorem putdata_wrap (h : Overlap pos m m') {data : List UInt8} (hwrap : 0xFFFF < pos + data.length) :
    tfReqPutdata m data = tfReqPutdata m' data := by
  funext i
  refine h.putdata_apply data ?_
  omega

theorem writes (h : Overlap pos m m') (writes : List (List UInt8)) :
    (pos + writtenBytes writes ≤ 0xFFFF →
      Overlap (pos + writtenBytes writes) (writes.foldl tfReqPutdata m) (writes.foldl tfReqPutdata m')) ∧
    (0xFFFF < pos + writtenBytes writes →
      writes.foldl tfReqPutdata m = writes.foldl tfReqPutdata m') := by
  induction writes generalizing pos m m' with
  | nil =>
    refine ⟨fun _ => h, fun hwrap => ?_⟩
    funext i
    have hlt := (packetLength m).toNat_lt
    rw [h.length] at hlt
    have hnil : writtenBytes [] = 0 := rfl
    omega
  | cons data rest ih =>
    rw [writtenBytes_cons, ← Nat.add_assoc, List.foldl_cons, List.foldl_cons]
    by_cases hfits : pos + data.length ≤ 0xFFFF
    · exact ih (h.putdata hfits)
    · refine ⟨fun hall => absurd hall (by omega), fun _ => ?_⟩
      rw [h.putdata_wrap (by omega)]

theorem puts (h : Overlap pos m m') (puts : List ReqPut) :
    (writtenLength pos puts ≤ 0xFFFF →
      Overlap (writtenLength pos puts) (puts.foldl ReqPut.run m) (puts.foldl ReqPut.run m')) ∧
    (0xFFFF < writtenLength pos puts → puts.foldl ReqPut.run m = puts.foldl ReqPut.run m') := by
  induction puts generalizing pos m m' with
  | nil =>
    refine ⟨fun _ => h, fun hwrap => ?_⟩
    have hlt := (packetLength m).toNat_lt
    rw [h.length] at hlt
    have hnil : writtenLength pos [] = pos := rfl
    omega
  | cons put rest ih =>
    obtain ⟨hstep, hwrap⟩ := h.writes (put.writes pos)
    have hrun : put.run m = (put.writes pos).foldl tfReqPutdata m := by
      rw [ReqPut.run_eq_foldl, h.length]
    have hrun' : put.run m' = (put.writes pos).foldl tfReqPutdata m' := by
      rw [ReqPut.run_eq_foldl, h.length_right]
    rw [writtenLength_cons, List.foldl_cons, List.foldl_cons, hrun, hrun']
    by_cases hfits : pos + writtenBytes (put.writes pos) ≤ 0xFFFF
    · exact ih (hstep hfits)
    · have hle := le_writtenLength (pos + writtenBytes (put.writes pos)) rest
      refine ⟨fun hall => absurd hall (by omega), fun _ => ?_⟩
      rw [hwrap (by omega)]

end Overlap

/-- Two contents of the memory from a buffer on that differ only in the buffer. -/
def SameBehind (m m' : Mem) : Prop := ∀ i, sizeofPacket ≤ i → m i = m' i

theorem overlap_init {m m' : Mem} (h : SameBehind m m') (cmd : UInt32) :
    Overlap packetHeadSize (tfReqInit m cmd) (tfReqInit m' cmd) := by
  refine ⟨packetLength_tfReqInit m cmd, le_rfl, fun i hi => ?_, fun i hi => ?_⟩
  · simp only [packetHeadSize] at hi
    rw [tfReqInit_eq_store, tfReqInit_eq_store]
    refine Mem.store_congr_below (by omega) fun _ => ?_
    refine Mem.store_congr_below (by rw [length_toBE]; omega) fun hi => ?_
    refine Mem.store_congr_below (by rw [length_toLE]; omega) fun hi => ?_
    exact Mem.store_congr_below (by rw [length_toLE]; omega) fun hi => absurd hi (Nat.not_lt_zero i)
  · by_cases hdummy : i = 0xFFFF
    · rw [hdummy, tfReqInit, tfReqInit, Mem.set_self, Mem.set_self]
    · have hhead : packetHeadSize ≤ i := by
        simp only [packetHeadSize]
        omega
      rw [tfReqInit_above m cmd hhead hdummy, tfReqInit_above m' cmd hhead hdummy]
      refine h i ?_
      simp only [sizeofPacket]
      omega

theorem overlap_fill {m m' : Mem} (h : SameBehind m m') (r : Request) :
    (writtenLength packetHeadSize r.puts ≤ 0xFFFF →
      Overlap (writtenLength packetHeadSize r.puts) (fillRequest m r.cmd r.puts)
        (fillRequest m' r.cmd r.puts)) ∧
    (0xFFFF < writtenLength packetHeadSize r.puts →
      fillRequest m r.cmd r.puts = fillRequest m' r.cmd r.puts) :=
  (overlap_init h r.cmd).puts r.puts

theorem tfReqDone_behind (req : Mem) {i : Nat} (hi : sizeofPacket ≤ i) : tfReqDone req i = req i := by
  have hlt := (packetLength req).toNat_lt
  simp only [sizeofPacket] at hi
  have hheader : putU16 (putU16 req 0 (packetLength req)) 2
      (crc16Ansi 0 ((putU16 req 0 (packetLength req)).offset 4) (sizeT (crcSize (packetLength req)))) i =
        req i := by
    simp only [putU16_eq_store]
    rw [Mem.store_above _ (by rw [length_toBE]; omega), Mem.store_above _ (by rw [length_toBE]; omega)]
  simp only [tfReqDone, byteSwap]
  split
  · rw [Mem.swab_above _ (by omega), Mem.set_of_ne _ _ (by omega), hheader]
  · rw [Mem.swab_above _ (by omega), hheader]

theorem sameBehind_build {m m' : Mem} (h : SameBehind m m') (r : Request) :
    SameBehind (r.build m) (r.build m') := by
  intro i hi
  obtain ⟨hfill, hwrap⟩ := overlap_fill h r
  rw [Request.build, Request.build, tfReqDone_behind _ hi, tfReqDone_behind _ hi]
  by_cases hlong : 0xFFFF < writtenLength packetHeadSize r.puts
  · rw [hwrap hlong]
  · refine (hfill (by omega)).above i ?_
    simp only [sizeofPacket] at hi
    omega

theorem Overlap.holds {pos : Nat} {m m' : Mem} (h : Overlap pos m m') :
    ∃ cmd payload, 8 + payload.length = pos ∧ Holds m cmd payload ∧ Holds m' cmd payload := by
  have hheader := h.header
  have hholds := holds_of_length (h.length ▸ hheader)
  have hholds' := holds_of_length (h.length_right ▸ hheader)
  simp only [packetHeadSize] at hheader
  rw [h.length] at hholds
  rw [h.length_right] at hholds'
  have hpayload : m.load 8 (pos - 8) = m'.load 8 (pos - 8) := h.load (by omega)
  have hcmd : getU32 m 4 = getU32 m' 4 := by
    apply UInt32.toNat_inj.mp
    rw [getU32_toNat, getU32_toNat, h.load (by omega)]
  refine ⟨getU32 m 4, m.load 8 (pos - 8), ?_, hholds, ?_⟩
  · rw [Mem.length_load]
    omega
  · rwa [hcmd, hpayload]

/-- A request that is covered is sent as the same bytes from any buffer. -/
theorem transfer_of_covered {m m' : Mem} (h : SameBehind m m') {r : Request} (hcovered : r.Covered) :
    tfSendBytes (r.build m) = tfSendBytes (r.build m') := by
  obtain ⟨hfill, hwrap⟩ := overlap_fill h r
  by_cases hlong : 0xFFFF < writtenLength packetHeadSize r.puts
  · rw [Request.build, Request.build, hwrap hlong]
  · have hoverlap := hfill (by omega)
    obtain ⟨cmd, payload, hlength, hholds, hholds'⟩ := hoverlap.holds
    obtain ⟨tail, htail, htransfer⟩ := transfer_eq hholds
    obtain ⟨tail', htail', htransfer'⟩ := transfer_eq hholds'
    have hnot : ¬ (8 + payload.length) % 64 = 0 := by
      rw [hlength]
      exact hcovered.resolve_left hlong
    rw [sendTail, if_neg hnot, List.length_eq_zero_iff] at htail htail'
    rw [Request.build, Request.build, htransfer, htransfer', htail, htail']

theorem covered_turbo (on : Int) : (Request.turbo on).Covered := by
  refine .inr ?_
  show (8 + writtenBytes [toBE 4 (UInt32.ofInt on).toNat]) % 64 ≠ 0
  rw [writtenBytes_cons, length_toBE]
  decide

theorem covered_fail (reason : Int) : (Request.fail reason).Covered := by
  refine .inr ?_
  show (8 + writtenBytes [toBE 4 (UInt32.ofInt reason).toNat]) % 64 ≠ 0
  rw [writtenBytes_cons, length_toBE]
  decide

theorem covered_fileStart (typefile : Typefile) : (Request.fileStart typefile).Covered := by
  refine .inr ?_
  show (8 + writtenBytes [typefile.bytes]) % 64 ≠ 0
  rw [writtenBytes_cons, typefile.length]
  decide

/-! ### The two bytes of padding -/

theorem foldl_writes_above {req : Mem} {writes : List (List UInt8)} (h : WritesInside req writes)
    (hpos : 2 ≤ (packetLength req).toNat) {i : Nat}
    (hi : (packetLength req).toNat + writtenBytes writes ≤ i) :
    writes.foldl tfReqPutdata req i = req i := by
  induction writes generalizing req with
  | nil => rfl
  | cons data rest ih =>
    obtain ⟨hfirst, hrest⟩ := h
    have hlength := hfirst.length
    rw [writtenBytes_cons] at hi
    rw [List.foldl_cons, ih hrest (by omega) (by omega), tfReqPutdata_apply req data (by omega)]
    exact Mem.store_above req (by omega)

theorem foldl_puts_above {req : Mem} {puts : List ReqPut} (h : BuildsInside req puts)
    (hpos : 2 ≤ (packetLength req).toNat) {i : Nat} (hi : writtenLength (packetLength req).toNat puts ≤ i) :
    puts.foldl ReqPut.run req i = req i := by
  induction puts generalizing req with
  | nil => rfl
  | cons put rest ih =>
    obtain ⟨hput, hrest⟩ := h
    have hlength := packetLength_run hput
    rw [writtenLength_cons] at hi
    have hle := le_writtenLength
      ((packetLength req).toNat + writtenBytes (put.writes (packetLength req).toNat)) rest
    rw [List.foldl_cons, ih hrest (by omega) (by rwa [hlength]), ReqPut.run_eq_foldl]
    exact foldl_writes_above hput hpos (by omega)

theorem build_above {r : Request} {m : Mem} {i : Nat}
    (hlength : writtenLength packetHeadSize r.puts ≤ 0xFFFF)
    (heven : writtenLength packetHeadSize r.puts % 2 = 0)
    (hi : writtenLength packetHeadSize r.puts ≤ i) (hdummy : i ≠ 0xFFFF) : r.build m i = m i := by
  have hhead := packetLength_tfReqInit m r.cmd
  have hinside : BuildsInside (tfReqInit m r.cmd) r.puts := by
    rwa [buildsInside_iff r.puts (le_of_eq hhead.symm), hhead]
  have hle := le_writtenLength packetHeadSize r.puts
  have hfilled : (packetLength (fillRequest m r.cmd r.puts)).toNat = writtenLength packetHeadSize r.puts :=
    ((overlap_fill (fun _ _ => rfl : SameBehind m m) r).1 hlength).length
  have hfill : fillRequest m r.cmd r.puts i = m i := by
    rw [fillRequest, foldl_puts_above hinside (by rw [hhead]; decide) (by rwa [hhead])]
    exact tfReqInit_above m r.cmd (by omega) hdummy
  simp only [packetHeadSize] at hle hlength heven hi hfilled
  rw [Request.build, tfReqDone]
  simp only [hfilled, heven]
  rw [if_neg (by decide), byteSwap, Mem.swab_above _ hi]
  simp only [putU16_eq_store]
  rw [Mem.store_above _ (by rw [length_toBE]; omega), Mem.store_above _ (by rw [length_toBE]; omega), hfill]

/-- The last byte of a transfer that is not covered comes from the stack. -/
theorem transfer_of_uncovered {m m' : Mem} {r : Request} (hcovered : ¬ r.Covered)
    (h : tfSendBytes (r.build m) = tfSendBytes (r.build m')) :
    m (writtenLength packetHeadSize r.puts) = m' (writtenLength packetHeadSize r.puts) := by
  simp only [Request.Covered, not_or, not_lt, not_not] at hcovered
  obtain ⟨hlength, h64⟩ := hcovered
  have hfilled (m : Mem) :
      (tfSendBytes (r.build m)).length = writtenLength packetHeadSize r.puts + 2 := by
    obtain ⟨cmd, payload, hpos, hholds, -⟩ :=
      ((overlap_fill (fun _ _ => rfl : SameBehind m m) r).1 hlength).holds
    rw [tfSendBytes_length, Request.build, tfSendLen_eq hholds, hpos, evenLength, sendTail, if_pos h64]
    omega
  have hbyte (m : Mem) : (tfSendBytes (r.build m))[writtenLength packetHeadSize r.puts]? =
      some (m (writtenLength packetHeadSize r.puts)) := by
    rw [List.getElem?_eq_getElem (by rw [hfilled]; omega)]
    simp only [tfSendBytes]
    rw [Mem.getElem_load, Nat.zero_add, build_above hlength (by omega) le_rfl (by omega)]
  have hsame := congrArg (fun bytes : List UInt8 => bytes[writtenLength packetHeadSize r.puts]?) h
  exact Option.some.inj ((hbyte m).symm.trans (hsame.trans (hbyte m')))

/-! ### The name of a file to put -/

/-- The descriptor of a put as stores into what the stack held. -/
def storeTypefile (e : Env σ) (path : CString) (size : UInt64) (stamp : Int) (typefile : Mem) : Mem :=
  let tm := e.localtime stamp
  (((((((typefile.store 0 (toBE 2 (UInt16.ofInt (tmToMjd tm)).toNat)).store 2 [UInt8.ofInt tm.hour]).store 3
    [UInt8.ofInt tm.min]).store 4 [UInt8.ofInt tm.sec]).store 5 [typeFile]).store 6
      (toLE 8 size.toNat)).store 14 (path.bytes.take 94 ++ [0])).store 109 [0] |>.store 110 (toLE 4 0)

theorem putTypefile_bytes (e : Env σ) (path : CString) (size : UInt64) (stamp : Int) (typefile : Mem) :
    (putTypefile e path size stamp typefile).bytes =
      (storeTypefile e path size stamp typefile).load 0 sizeofTypefile := by
  simp only [putTypefile, storeTypefile, timeToTfdt, putU16_eq_store, Mem.set_eq_store]

theorem putTypefile_congr (e : Env σ) {path : CString} (size : UInt64) (stamp : Int)
    (typefile typefile' : Mem) (h : 94 ≤ path.strlen) :
    putTypefile e path size stamp typefile = putTypefile e path size stamp typefile' := by
  have hname : (path.bytes.take 94 ++ [0]).length = 95 := by
    rw [List.length_append, List.length_take, List.length_singleton]
    simp only [CString.strlen] at h
    omega
  have hbytes : (putTypefile e path size stamp typefile).bytes =
      (putTypefile e path size stamp typefile').bytes := by
    rw [putTypefile_bytes, putTypefile_bytes]
    refine Mem.load_congr fun i hi => ?_
    simp only [sizeofTypefile] at hi
    simp only [storeTypefile, Nat.zero_add]
    refine Mem.store_congr_below (by rw [length_toLE]; omega) fun hi => ?_
    refine Mem.store_congr_below (by rw [List.length_singleton]; omega) fun hi => ?_
    refine Mem.store_congr_below (by rw [hname]; omega) fun hi => ?_
    refine Mem.store_congr_below (by rw [length_toLE]; omega) fun hi => ?_
    refine Mem.store_congr_below (by rw [List.length_singleton]; omega) fun hi => ?_
    refine Mem.store_congr_below (by rw [List.length_singleton]; omega) fun hi => ?_
    refine Mem.store_congr_below (by rw [List.length_singleton]; omega) fun hi => ?_
    refine Mem.store_congr_below (by rw [List.length_singleton]; omega) fun hi => ?_
    exact Mem.store_congr_below (by rw [length_toBE]; omega) fun hi => absurd hi (Nat.not_lt_zero i)
  rwa [Typefile.mk.injEq] at *

theorem putTypefile_tail (e : Env σ) {path : CString} (size : UInt64) (stamp : Int) (typefile : Mem)
    (h : path.strlen < 94) :
    (putTypefile e path size stamp typefile).bytes[14 + path.strlen + 1]? =
      some (typefile (14 + path.strlen + 1)) := by
  have hname : (path.bytes.take 94 ++ [0]).length = path.strlen + 1 := by
    rw [List.length_append, List.length_take, List.length_singleton, CString.strlen]
    simp only [CString.strlen] at h
    omega
  have hinside : 14 + path.strlen + 1 <
      ((storeTypefile e path size stamp typefile).load 0 sizeofTypefile).length := by
    rw [Mem.length_load]
    simp only [sizeofTypefile]
    omega
  rw [putTypefile_bytes, List.getElem?_eq_getElem hinside, Mem.getElem_load, Nat.zero_add]
  simp only [storeTypefile]
  rw [Mem.store_below _ (by omega), Mem.store_below _ (by omega), Mem.store_above _ (by rw [hname]; omega),
    Mem.store_above _ (by rw [length_toLE]; omega), Mem.store_above _ (by rw [List.length_singleton]; omega),
    Mem.store_above _ (by rw [List.length_singleton]; omega),
    Mem.store_above _ (by rw [List.length_singleton]; omega),
    Mem.store_above _ (by rw [List.length_singleton]; omega), Mem.store_above _ (by rw [length_toBE]; omega)]

/-- The transfer of a FILE_START determines the descriptor. -/
theorem fileStart_injective {typefile typefile' : Typefile} {req req' : Mem}
    (h : tfSendBytes ((Request.fileStart typefile).build req) =
      tfSendBytes ((Request.fileStart typefile').build req')) : typefile.bytes = typefile'.bytes := by
  obtain ⟨rest, hbody⟩ := wireBody_transfer (fits_fileStart typefile) req
  obtain ⟨rest', hbody'⟩ := wireBody_transfer (fits_fileStart typefile') req'
  have hpayload (typefile : Typefile) : (Request.fileStart typefile).payload = typefile.bytes :=
    List.nil_append _
  rw [h, hbody', hpayload, hpayload] at hbody
  exact (List.append_inj hbody.symm (typefile.length.trans typefile'.length.symm)).1

end Topfield
