import Topfield.Packet

/-!
# Bulk transfers

`usb_io.c` moves a buffer by ioctls on the device's file, each for a part of it that the kernel may take or
fill only partly, or not at all. Below the transfers of the protocol code is a kernel that answers these
ioctls; every such kernel makes one transport. The messages on `stderr` are left out.
-/

namespace Topfield

open Lib

/-- The kernels the code is built for, and what they move in one request. -/
inductive KernelVersion
  | before26
  | from26

def maxRead : KernelVersion → Nat
  | .before26 => 4096
  | .from26 => 16384

def maxWrite : KernelVersion → Nat
  | .before26 => 4096
  | .from26 => 16384

/-- `struct usbdevfs_bulktransfer`, with `data` counted from the start of the caller's buffer. -/
structure BulkTransfer where
  ep : UInt32
  len : UInt32
  timeout : UInt32
  data : Nat

/-- The ioctl USBDEVFS_BULK. To an endpoint for output it is given the bytes at `data`, from one for input it
stores there what it returns beside its result. It fails, or moves some of the bytes requested. -/
structure Usbfs (σ : Type) where
  write : σ → BulkTransfer → List UInt8 → Int × σ
  read : σ → BulkTransfer → (Int × List UInt8) × σ
  write_le : ∀ s bulk bytes, (write s bulk bytes).1 ≤ bulk.len.toNat
  read_le : ∀ s bulk, (read s bulk).1.1 ≤ bulk.len.toNat
  length_read : ∀ s bulk, (read s bulk).1.2.length = (read s bulk).1.1.toNat

/-- An ioctl that was issued, with its result and the bytes it moved. -/
structure Ioctl where
  bulk : BulkTransfer
  ret : Int
  moved : List UInt8

def movedBytes (log : List Ioctl) : List UInt8 := (log.map Ioctl.moved).flatten

/-- The same kernel with the list of its ioctls, the oldest first, beside its state. -/
def Usbfs.logged {σ : Type} (k : Usbfs σ) : Usbfs (σ × List Ioctl) where
  write s bulk bytes :=
    let r := k.write s.1 bulk bytes
    (r.1, r.2, s.2 ++ [⟨bulk, r.1, bytes.take r.1.toNat⟩])
  read s bulk :=
    let r := k.read s.1 bulk
    (r.1, r.2, s.2 ++ [⟨bulk, r.1.1, r.1.2⟩])
  write_le s bulk bytes := k.write_le s.1 bulk bytes
  read_le s bulk := k.read_le s.1 bulk
  length_read s bulk := k.length_read s.1 bulk

/-- `sent` or `retrieved` after an ioctl. -/
def advance (count : Nat) (ret : Int) : Nat := if ret < 0 then count else count + ret.toNat

theorem advance_eq (count : Nat) (ret : Int) : advance count ret = count + ret.toNat := by
  unfold advance
  split <;> omega

theorem lt_advance (count : Nat) {ret : Int} (hpos : 0 < ret) : count < advance count ret := by
  rw [advance_eq]
  omega

theorem left_lt {count total : Nat} {ret : Int} (hpos : 0 < ret) (hmore : advance count ret < total) :
    total - advance count ret < total - count := by
  rw [advance_eq] at hmore ⊢
  omega

section Code

variable {σ : Type} (k : Usbfs σ) (v : KernelVersion)

def bulkWriteLoop (ep : UInt32) (bytes : Mem) (length : Nat) (timeout : Int) (s : σ) (sent : Nat) : Nat × σ :=
  let len := UInt32.ofNat (length - sent)
  let len := if maxWrite v < len.toNat then UInt32.ofNat (maxWrite v) else len
  let r := k.write s ⟨ep, len, UInt32.ofInt timeout, sent⟩ (bytes.load sent len.toNat)
  let sent' := advance sent r.1
  if 0 < r.1 ∧ sent' < length then bulkWriteLoop ep bytes length timeout r.2 sent' else (sent', r.2)
termination_by length - sent
decreasing_by
  rename_i h
  exact left_lt h.1 h.2

def usbBulkWrite (ep : UInt32) (bytes : Mem) (length : Nat) (timeout : Int) (s : σ) : Int × σ :=
  let w := bulkWriteLoop k v (ep &&& 0xFFFFFF7F) bytes length timeout s 0
  (w.1, w.2)

def bulkReadLoop (ep : UInt32) (bytes : Mem) (size : Nat) (timeout : Int) (s : σ) (retrieved : Nat) :
    (Nat × Mem) × σ :=
  let requested := size - retrieved
  let requested := if maxRead v < requested then maxRead v else requested
  let r := k.read s ⟨ep, UInt32.ofNat requested, UInt32.ofInt timeout, retrieved⟩
  let bytes := bytes.store retrieved r.1.2
  let retrieved' := advance retrieved r.1.1
  if 0 < r.1.1 ∧ retrieved' < size ∧ r.1.1 = requested then
    bulkReadLoop ep bytes size timeout r.2 retrieved'
  else
    ((retrieved', bytes), r.2)
termination_by size - retrieved
decreasing_by
  rename_i h
  exact left_lt h.1 h.2.1

def usbBulkRead (ep : UInt32) (bytes : Mem) (size : Nat) (timeout : Int) (s : σ) : (Int × Mem) × σ :=
  -- the buffer is cleared first
  let bytes := bytes.store 0 (List.replicate size 0)
  let r := bulkReadLoop k v (ep ||| 0x80) bytes size timeout s 0
  ((r.1.1, r.1.2), r.2)

/-- The transport that the protocol code runs on. -/
def Usbfs.transport : Transport σ where
  write s ep timeout bytes := usbBulkWrite k v ep.toUInt32 (Mem.ofList bytes) bytes.length timeout s
  read s ep timeout size := usbBulkRead k v ep.toUInt32 (fun _ => 0) size timeout s

end Code

theorem movedBytes_cons (io : Ioctl) (log : List Ioctl) : movedBytes (io :: log) = io.moved ++ movedBytes log :=
  rfl

/-! ### Writing -/

/-- What is said of a loop that has issued the ioctls `log` and got from `sent` to `sent'`. -/
structure WritesFrom (v : KernelVersion) (bytes : Mem) (length sent : Nat) (log : List Ioctl) (sent' : Nat) :
    Prop where
  taken : movedBytes log = bytes.load sent (sent' - sent)
  low : sent ≤ sent'
  high : sent' ≤ length
  limit : ∀ io ∈ log, io.bulk.len.toNat ≤ maxWrite v
  inside : ∀ io ∈ log, io.bulk.data + io.bulk.len.toNat ≤ length
  count : log.length ≤ length - sent

theorem writeRequest_le {v : KernelVersion} {len : UInt32} (left : Nat) (hlen : len =
    if maxWrite v < (UInt32.ofNat left).toNat then UInt32.ofNat (maxWrite v) else UInt32.ofNat left) :
    len.toNat ≤ maxWrite v ∧ len.toNat ≤ left := by
  have hleft : (UInt32.ofNat left).toNat ≤ left := by
    rw [UInt32.toNat_ofNat']
    exact Nat.mod_le _ _
  have hmax : (UInt32.ofNat (maxWrite v)).toNat = maxWrite v := by cases v <;> rfl
  subst hlen
  split_ifs <;> omega

theorem writesFrom_one {v : KernelVersion} {length sent : Nat} {ret : Int} (bytes : Mem) (bulk : BulkTransfer)
    (h : sent < length) (hdata : bulk.data = sent) (hlen : bulk.len =
      if maxWrite v < (UInt32.ofNat (length - sent)).toNat then UInt32.ofNat (maxWrite v)
      else UInt32.ofNat (length - sent))
    (hret : ret ≤ bulk.len.toNat) :
    WritesFrom v bytes length sent [⟨bulk, ret, (bytes.load sent bulk.len.toNat).take ret.toNat⟩]
      (advance sent ret) := by
  obtain ⟨hlimit, hleft⟩ := writeRequest_le (length - sent) hlen
  rw [advance_eq]
  have hmoved : ret.toNat ≤ bulk.len.toNat := Int.toNat_le.mpr hret
  obtain ⟨rest, hrest⟩ := Nat.exists_eq_add_of_le hmoved
  refine ⟨?_, Nat.le_add_right _ _, by omega, List.forall_mem_singleton.mpr hlimit,
    List.forall_mem_singleton.mpr ?_, ?_⟩
  · rw [movedBytes_cons, hrest, Mem.load_add, List.take_left' (Mem.length_load _ _ _), Nat.add_sub_cancel_left]
    exact List.append_nil _
  · show bulk.data + bulk.len.toNat ≤ length
    omega
  · rw [List.length_singleton]
    omega

theorem WritesFrom.cons {v : KernelVersion} {bytes : Mem} {length sent sent' sent'' : Nat} {io : Ioctl}
    {log : List Ioctl} (hfirst : WritesFrom v bytes length sent [io] sent')
    (hrest : WritesFrom v bytes length sent' log sent'') (hmore : sent < sent') :
    WritesFrom v bytes length sent (io :: log) sent'' := by
  have hlow := hrest.low
  have hhigh := hrest.high
  refine ⟨?_, hfirst.low.trans hlow, hhigh, ?_, ?_, ?_⟩
  · have htaken : io.moved = bytes.load sent (sent' - sent) := (List.append_nil _).symm.trans hfirst.taken
    rw [movedBytes_cons, htaken, hrest.taken, show sent'' - sent = sent' - sent + (sent'' - sent') by omega,
      Mem.load_add, Nat.add_sub_cancel' hfirst.low]
  · exact List.forall_mem_cons.mpr ⟨hfirst.limit io (List.mem_singleton_self _), hrest.limit⟩
  · exact List.forall_mem_cons.mpr ⟨hfirst.inside io (List.mem_singleton_self _), hrest.inside⟩
  · have hcount := hrest.count
    rw [List.length_cons]
    omega

theorem bulkWriteLoop_writes {σ : Type} (k : Usbfs σ) (v : KernelVersion) (ep : UInt32) (bytes : Mem)
    {length : Nat} (timeout : Int) (s : σ × List Ioctl) {sent : Nat} (h : sent < length) :
    ∃ log, (bulkWriteLoop k.logged v ep bytes length timeout s sent).2.2 = s.2 ++ log ∧
      WritesFrom v bytes length sent log (bulkWriteLoop k.logged v ep bytes length timeout s sent).1 := by
  fun_induction bulkWriteLoop k.logged v ep bytes length timeout s sent with
  | case1 s sent whole len r sent' hturn ih =>
    obtain ⟨log, hlog, hwrites⟩ := ih hturn.2
    have hfirst := writesFrom_one bytes ⟨ep, len, UInt32.ofInt timeout, sent⟩ h rfl rfl
      (k.logged.write_le s _ (bytes.load sent len.toNat))
    exact ⟨_ :: log, hlog.trans (List.append_assoc s.2 [_] log), hfirst.cons hwrites (lt_advance sent hturn.1)⟩
  | case2 s sent whole len r sent' hturn =>
    exact ⟨[_], rfl, writesFrom_one bytes ⟨ep, len, UInt32.ofInt timeout, sent⟩ h rfl rfl
      (k.logged.write_le s _ (bytes.load sent len.toNat))⟩

/-- What is taken of a buffer, and how it is asked for. -/
structure WritesInOrder (v : KernelVersion) (bytes : Mem) (length : Nat) (sent : Int) (log : List Ioctl) :
    Prop where
  taken : movedBytes log = bytes.load 0 sent.toNat
  bounds : 0 ≤ sent ∧ sent ≤ length
  limit : ∀ io ∈ log, io.bulk.len.toNat ≤ maxWrite v
  inside : ∀ io ∈ log, io.bulk.data + io.bulk.len.toNat ≤ length
  count : log.length ≤ length

theorem usbBulkWrite_writes {σ : Type} (k : Usbfs σ) (v : KernelVersion) (ep : UInt32) (bytes : Mem)
    {length : Nat} (timeout : Int) (s : σ × List Ioctl) (hlength : 0 < length) :
    ∃ log, (usbBulkWrite k.logged v ep bytes length timeout s).2.2 = s.2 ++ log ∧
      WritesInOrder v bytes length (usbBulkWrite k.logged v ep bytes length timeout s).1 log := by
  obtain ⟨log, hlog, h⟩ := bulkWriteLoop_writes k v (ep &&& 0xFFFFFF7F) bytes timeout s hlength
  exact ⟨log, hlog, h.taken, ⟨Int.natCast_nonneg _, Int.ofNat_le.mpr h.high⟩, h.limit, h.inside, h.count⟩

/-! ### What `tf_send` makes of it -/

/-- A buffer is taken as a whole exactly if the count is its length. -/
theorem WritesInOrder.taken_iff {v : KernelVersion} {bytes : List UInt8} {sent : Int} {log : List Ioctl}
    (h : WritesInOrder v (Mem.ofList bytes) bytes.length sent log) :
    sent = bytes.length ↔ movedBytes log = bytes := by
  rw [h.taken]
  constructor
  · rintro rfl
    rw [Int.toNat_natCast, Mem.load_ofList_self]
  · intro hall
    have hcount := congrArg List.length hall
    rw [Mem.length_load] at hcount
    have hpos := h.bounds.1
    omega

theorem tfSendLen_pos (req : Mem) : 0 < tfSendLen req := by
  rw [tfSendLen]
  split_ifs <;> omega

/-- `tf_send` succeeds exactly if every byte of the padded packet was taken. -/
theorem tfSend_taken_iff {σ : Type} (k : Usbfs σ) (v : KernelVersion) (host : Host (σ × List Ioctl))
    (tf : TfHandle (σ × List Ioctl)) (req : Mem) :
    ∃ log, (tfSend ⟨k.logged.transport v, host⟩ tf req).tf.usb.2 = tf.usb.2 ++ log ∧
      ((tfSend ⟨k.logged.transport v, host⟩ tf req).tf.error = tfErrNone ↔ movedBytes log = tfSendBytes req) := by
  have hlength : (tfSendBytes req).length = tfSendLen req := Mem.length_load req 0 _
  by_cases hdev : tf.dev = true
  · obtain ⟨log, hlog, h⟩ := usbBulkWrite_writes k v 1 (Mem.ofList (tfSendBytes req)) tf.timeout tf.usb
      (hlength ▸ tfSendLen_pos req)
    simp only [tfSend]
    rw [if_pos hdev]
    refine ⟨log, hlog, ?_⟩
    show (if (usbBulkWrite k.logged v 1 (Mem.ofList (tfSendBytes req)) (tfSendBytes req).length tf.timeout
      tf.usb).1 = tfSendLen req then tfErrNone else tfErrIo) = tfErrNone ↔ _
    generalize (usbBulkWrite k.logged v 1 (Mem.ofList (tfSendBytes req)) (tfSendBytes req).length tf.timeout
      tf.usb).1 = sent at h ⊢
    rw [← h.taken_iff, hlength]
    by_cases hall : sent = tfSendLen req
    · exact iff_of_true (if_pos hall) hall
    · exact iff_of_false (fun h => absurd ((if_neg hall).symm.trans h) (by decide)) hall
  · simp only [tfSend]
    rw [if_neg hdev]
    refine ⟨[], (List.append_nil _).symm, iff_of_false (by decide : tfErrNoconn ≠ tfErrNone) fun hnil => ?_⟩
    have hpos := tfSendLen_pos req
    rw [← hlength, ← hnil] at hpos
    exact absurd hpos (Nat.lt_irrefl 0)

/-- **Bulk writing.** Whatever the ioctls return, the bytes that are taken are the first ones of the buffer,
each once and in order, no request is too long or reaches past the buffer, and `tf_send` succeeds exactly if
all bytes of its packet are taken. -/
theorem usbBulkWrite_inOrder {σ : Type} (k : Usbfs σ) (v : KernelVersion) :
    (∀ (ep : UInt32) (bytes : Mem) (length : Nat) (timeout : Int) (s : σ × List Ioctl), 0 < length →
      ∃ log, (usbBulkWrite k.logged v ep bytes length timeout s).2.2 = s.2 ++ log ∧
        WritesInOrder v bytes length (usbBulkWrite k.logged v ep bytes length timeout s).1 log) ∧
    ∀ (host : Host (σ × List Ioctl)) (tf : TfHandle (σ × List Ioctl)) (req : Mem),
      ∃ log, (tfSend ⟨k.logged.transport v, host⟩ tf req).tf.usb.2 = tf.usb.2 ++ log ∧
        ((tfSend ⟨k.logged.transport v, host⟩ tf req).tf.error = tfErrNone ↔
          movedBytes log = tfSendBytes req) :=
  ⟨fun ep bytes _ timeout s hlength => usbBulkWrite_writes k v ep bytes timeout s hlength,
    tfSend_taken_iff k v⟩

/-! ### Reading -/

/-- What is said of a loop that has issued the ioctls `log`, got from `retrieved` to `retrieved'` and changed
the buffer from `bytes` to `bytes'`. -/
structure ReadsFrom (v : KernelVersion) (size retrieved : Nat) (bytes : Mem) (log : List Ioctl)
    (retrieved' : Nat) (bytes' : Mem) : Prop where
  stored : bytes' = bytes.store retrieved (movedBytes log)
  counted : retrieved' = retrieved + (movedBytes log).length
  high : retrieved' ≤ size
  count : log.length ≤ (size - retrieved + maxRead v - 1) / maxRead v
  full : ∀ io ∈ log.dropLast, (io.bulk.len.toNat : Int) ≤ io.ret

theorem readRequest_eq {v : KernelVersion} {requested : Nat} (left : Nat) (hrequested : requested =
    if maxRead v < left then maxRead v else left) :
    (UInt32.ofNat requested).toNat = requested ∧ requested ≤ left ∧
      (requested = maxRead v ∨ requested = left) := by
  have hmax : maxRead v ≤ 16384 := by cases v <;> decide
  rw [UInt32.toNat_ofNat']
  subst hrequested
  split_ifs <;> omega

theorem maxRead_pos (v : KernelVersion) : 0 < maxRead v := by
  cases v <;> decide

theorem readsFrom_one {v : KernelVersion} {size retrieved : Nat} {ret : Int} {data : List UInt8} (bytes : Mem)
    (bulk : BulkTransfer) (h : retrieved < size) (hleft : bulk.len.toNat ≤ size - retrieved)
    (hret : ret ≤ bulk.len.toNat) (hdata : data.length = ret.toNat) :
    ReadsFrom v size retrieved bytes [⟨bulk, ret, data⟩] (advance retrieved ret)
      (bytes.store retrieved data) := by
  rw [advance_eq]
  have hmoved : movedBytes [⟨bulk, ret, data⟩] = data := List.append_nil data
  have hmax := maxRead_pos v
  refine ⟨?_, ?_, by omega, ?_, List.forall_mem_nil _⟩
  · rw [hmoved]
  · rw [hmoved, hdata]
  · rw [List.length_singleton, Nat.le_div_iff_mul_le hmax]
    omega

theorem ReadsFrom.cons {v : KernelVersion} {size retrieved retrieved' retrieved'' : Nat}
    {bytes bytes' bytes'' : Mem} {io : Ioctl} {log : List Ioctl}
    (hfirst : ReadsFrom v size retrieved bytes [io] retrieved' bytes')
    (hrest : ReadsFrom v size retrieved' bytes' log retrieved'' bytes'')
    (hwhole : retrieved' = retrieved + maxRead v) (hfull : (io.bulk.len.toNat : Int) ≤ io.ret) :
    ReadsFrom v size retrieved bytes (io :: log) retrieved'' bytes'' := by
  have hmoved : movedBytes [io] = io.moved := List.append_nil io.moved
  have hcounted := hfirst.counted
  rw [hmoved] at hcounted
  refine ⟨?_, ?_, hrest.high, ?_, ?_⟩
  · rw [hrest.stored, hfirst.stored, hmoved, hcounted, Mem.store_append, movedBytes_cons]
  · rw [hrest.counted, hcounted, movedBytes_cons, List.length_append, Nat.add_assoc]
  · have hmax := maxRead_pos v
    have hhigh := hfirst.high
    have hcount := hrest.count
    have hceil : (size - retrieved + maxRead v - 1) / maxRead v =
        (size - retrieved' + maxRead v - 1) / maxRead v + 1 := by
      rw [← Nat.add_div_right _ hmax]
      congr 1
      omega
    rw [List.length_cons, hceil]
    exact Nat.succ_le_succ hcount
  · cases log with
    | nil => exact List.forall_mem_nil _
    | cons next rest => exact List.forall_mem_cons.mpr ⟨hfull, hrest.full⟩

theorem bulkReadLoop_reads {σ : Type} (k : Usbfs σ) (v : KernelVersion) (ep : UInt32) (bytes : Mem)
    {size : Nat} (timeout : Int) (s : σ × List Ioctl) {retrieved : Nat} (h : retrieved < size) :
    ∃ log, (bulkReadLoop k.logged v ep bytes size timeout s retrieved).2.2 = s.2 ++ log ∧
      ReadsFrom v size retrieved bytes log (bulkReadLoop k.logged v ep bytes size timeout s retrieved).1.1
        (bulkReadLoop k.logged v ep bytes size timeout s retrieved).1.2 := by
  fun_induction bulkReadLoop k.logged v ep bytes size timeout s retrieved with
  | case1 bytes s retrieved whole requested r bytes' retrieved' hturn ih =>
    obtain ⟨hlen, hleft, hwhole⟩ := readRequest_eq (v := v) (size - retrieved) (rfl : requested = _)
    obtain ⟨log, hlog, hreads⟩ := ih hturn.2.1
    have hret := k.logged.read_le s ⟨ep, UInt32.ofNat requested, UInt32.ofInt timeout, retrieved⟩
    have hfirst := readsFrom_one (v := v) bytes ⟨ep, UInt32.ofNat requested, UInt32.ofInt timeout, retrieved⟩ h
      (hlen.trans_le hleft) hret (k.logged.length_read s _)
    have hall : r.1.1 = requested := hturn.2.2
    have hmore : retrieved' < size := hturn.2.1
    have hretrieved' : retrieved' = retrieved + requested := by
      rw [← Int.toNat_natCast requested, ← hall]
      exact advance_eq retrieved r.1.1
    refine ⟨_ :: log, hlog.trans (List.append_assoc s.2 [_] log), hfirst.cons hreads ?_ ?_⟩
    · exact hretrieved'.trans (congrArg _ (hwhole.resolve_right (by omega)))
    · show ((UInt32.ofNat requested).toNat : Int) ≤ r.1.1
      rw [hlen, hall]
  | case2 bytes s retrieved whole requested r bytes' retrieved' hturn =>
    obtain ⟨hlen, hleft, -⟩ := readRequest_eq (v := v) (size - retrieved) (rfl : requested = _)
    have hret := k.logged.read_le s ⟨ep, UInt32.ofNat requested, UInt32.ofInt timeout, retrieved⟩
    exact ⟨[_], rfl, readsFrom_one bytes ⟨ep, UInt32.ofNat requested, UInt32.ofInt timeout, retrieved⟩ h
      (hlen.trans_le hleft) hret (k.logged.length_read s _)⟩

/-- What is read into a buffer, and how it is asked for. -/
structure AssemblesTransfer (v : KernelVersion) (size : Nat) (retrieved : Int) (bytes : Mem) (log : List Ioctl) :
    Prop where
  count : log.length ≤ (size + maxRead v - 1) / maxRead v
  bounds : 0 ≤ retrieved ∧ retrieved ≤ size
  data : bytes.load 0 retrieved.toNat = movedBytes log
  zeros : ∀ i, retrieved.toNat ≤ i → i < size → bytes i = 0
  last : ∀ before io after, log = before ++ io :: after → io.ret < 0 ∨ io.ret < io.bulk.len.toNat → after = []

/-- **Bulk reading.** Whatever the ioctls return, what they store is put together at the start of the buffer and
followed by zeros, and reading ends with the first one that fails or is not complete. -/
theorem usbBulkRead_assembles {σ : Type} (k : Usbfs σ) (v : KernelVersion) (ep : UInt32) (bytes : Mem)
    {size : Nat} (timeout : Int) (s : σ × List Ioctl) (hsize : 0 < size) :
    ∃ log, (usbBulkRead k.logged v ep bytes size timeout s).2.2 = s.2 ++ log ∧
      AssemblesTransfer v size (usbBulkRead k.logged v ep bytes size timeout s).1.1
        (usbBulkRead k.logged v ep bytes size timeout s).1.2 log := by
  obtain ⟨log, hlog, h⟩ := bulkReadLoop_reads k v (ep ||| 0x80) (bytes.store 0 (List.replicate size 0)) timeout s
    hsize
  have hstored := h.stored
  have hcounted := h.counted
  simp only [usbBulkRead]
  generalize bulkReadLoop k.logged v _ _ size timeout s 0 = r at *
  rw [Nat.zero_add] at hcounted
  refine ⟨log, hlog, h.count, ⟨Int.natCast_nonneg _, Int.ofNat_le.mpr h.high⟩, ?_, fun i hlow hhigh => ?_, ?_⟩
  · rw [Int.toNat_natCast, hstored, hcounted, Mem.load_store_self]
  · rw [Int.toNat_natCast, hcounted] at hlow
    have hcleared : i - 0 < (List.replicate size (0 : UInt8)).length := by
      rwa [List.length_replicate, Nat.sub_zero]
    rw [hstored, Mem.store_above _ (by omega), Mem.store_inside _ (Nat.zero_le i) hcleared]
    exact List.getElem_replicate _
  · rintro before io after rfl hshort
    by_contra hafter
    have hio : io ∈ (before ++ io :: after).dropLast := by
      rw [List.dropLast_append_of_ne_nil (List.cons_ne_nil io after), List.dropLast_cons_of_ne_nil hafter]
      exact List.mem_append_right _ List.mem_cons_self
    have hfull := h.full io hio
    omega

/-- A kernel that takes every request in full, and has three bytes to read. -/
def threeBytes : Usbfs Unit where
  write _ bulk _ := (bulk.len.toNat, ())
  read _ bulk := ((([1, 2, 3].take bulk.len.toNat).length, [1, 2, 3].take bulk.len.toNat), ())
  write_le _ _ _ := Int.le_refl _
  read_le _ _ := Int.ofNat_le.mpr (List.length_take_le _ _)
  length_read _ _ := (Int.toNat_natCast _).symm

theorem usbBulkWrite_inOrder_two_requests :
    ∃ log, (usbBulkWrite threeBytes.logged .from26 1 (fun _ => 7) 0x5000 1000 ((), [])).2.2 = [] ++ log ∧
      WritesInOrder .from26 (fun _ => 7) 0x5000
        (usbBulkWrite threeBytes.logged .from26 1 (fun _ => 7) 0x5000 1000 ((), [])).1 log :=
  (usbBulkWrite_inOrder threeBytes .from26).1 _ _ _ _ _ (by decide)

theorem usbBulkRead_assembles_three_bytes :
    ∃ log, (usbBulkRead threeBytes.logged .from26 0x82 (fun _ => 7) 0x10000 1000 ((), [])).2.2 = [] ++ log ∧
      AssemblesTransfer .from26 0x10000
        (usbBulkRead threeBytes.logged .from26 0x82 (fun _ => 7) 0x10000 1000 ((), [])).1.1
        (usbBulkRead threeBytes.logged .from26 0x82 (fun _ => 7) 0x10000 1000 ((), [])).1.2 log :=
  usbBulkRead_assembles threeBytes .from26 _ _ _ _ (by decide)

end Topfield
