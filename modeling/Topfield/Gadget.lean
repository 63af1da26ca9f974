import Topfield.Lib.Pieces
import Topfield.Simulation

/-!
# The requests to the kernel do not matter

A device sees USB packets. In which ioctls the host asks for them depends on the kernel that `usb_io.c` is built
for, and no packet shows it: a request is a multiple of the packet size, and a transfer from the device ends with
a packet that is not full. So both builds look to every client as if each transfer were made as a whole.
-/

namespace Topfield

open Lib

variable {δ : Type}

/-- What a device sends in one transfer. A buffer of the protocol code has room for more, so the last packet is
not full. -/
structure InTransfer where
  bytes : List UInt8
  short : bytes.length < sizeofPacket

/-- A device on the bus. It takes or refuses each packet from the host, and when the host asks for data it sends
a transfer, or nothing before the time is up. -/
structure Gadget (δ : Type) where
  maxPacketSize : Nat
  maxPacketSize_dvd : maxPacketSize ∣ 4096
  receive : δ → (ep timeout : UInt32) → (packet : List UInt8) → Bool × δ
  send : δ → (ep timeout : UInt32) → Option InTransfer × δ

namespace Gadget

variable (g : Gadget δ)

/-- Packets from the host, up to the first one that is refused. -/
def take (s : δ) (ep timeout : UInt32) : List (List UInt8) → Bool × δ
  | [] => (true, s)
  | packet :: rest =>
    let r := g.receive s ep timeout packet
    if r.1 then take r.2 ep timeout rest else r

def takeBytes (s : δ) (ep timeout : UInt32) (bytes : List UInt8) : Bool × δ :=
  g.take s ep timeout (pieces g.maxPacketSize bytes)

/-- What is left of the transfer that a request for data meets, one that was begun or a new one. -/
def pending (s : δ × Option (List UInt8)) (ep timeout : UInt32) : Option (List UInt8) × δ :=
  match s.2 with
  | some rest => (some rest, s.1)
  | none => ((g.send s.1 ep timeout).1.map InTransfer.bytes, (g.send s.1 ep timeout).2)

/-- A request for `len` bytes ends with a packet that is not full, or when it has them all. -/
def deliver (s : δ) (rest : List UInt8) (len : Nat) : (Int × List UInt8) × δ × Option (List UInt8) :=
  if rest.length < len then ((rest.length, rest), s, none) else ((len, rest.take len), s, some (rest.drop len))

theorem deliver_le (s : δ) (rest : List UInt8) (len : Nat) : (deliver s rest len).1.1 ≤ len := by
  rw [deliver]
  split_ifs with h
  · exact Int.ofNat_le.mpr (Nat.le_of_lt h)
  · exact Int.le_refl _

theorem length_deliver (s : δ) (rest : List UInt8) (len : Nat) :
    (deliver s rest len).1.2.length = (deliver s rest len).1.1.toNat := by
  rw [deliver]
  split_ifs with h
  · exact (Int.toNat_natCast _).symm
  · exact (List.length_take_of_le (Nat.not_lt.mp h)).trans (Int.toNat_natCast _).symm

/-- The kernel that serves the ioctls for the device, with what is left of a transfer that was begun. -/
def usbfs : Usbfs (δ × Option (List UInt8)) where
  write s bulk bytes :=
    let r := g.takeBytes s.1 bulk.ep bulk.timeout bytes
    (if r.1 then bulk.len.toNat else -1, r.2, s.2)
  read s bulk :=
    match g.pending s bulk.ep bulk.timeout with
    | (none, s') => ((-1, []), s', none)
    | (some rest, s') => deliver s' rest bulk.len.toNat
  write_le s bulk bytes := by
    simp only
    split_ifs <;> omega
  read_le s bulk := by
    rcases g.pending s bulk.ep bulk.timeout with ⟨_ | rest, s'⟩
    · exact Int.le_trans (by decide : (-1 : Int) ≤ 0) (Int.natCast_nonneg _)
    · exact deliver_le s' rest _
  length_read s bulk := by
    rcases g.pending s bulk.ep bulk.timeout with ⟨_ | rest, s'⟩
    · rfl
    · exact length_deliver s' rest _

/-- Each transfer as a whole. A buffer for input is cleared first. -/
def transport : Transport δ where
  write s ep timeout bytes :=
    let r := g.takeBytes s (ep.toUInt32 &&& 0xFFFFFF7F) (UInt32.ofInt timeout) bytes
    (if r.1 then bytes.length else -1, r.2)
  read s ep timeout _ :=
    match g.send s (ep.toUInt32 ||| 0x80) (UInt32.ofInt timeout) with
    | (none, s') => ((-1, fun _ => 0), s')
    | (some data, s') => ((data.bytes.length, Mem.ofList data.bytes), s')

/-! ### Writing -/

theorem take_append (s : δ) (ep timeout : UInt32) (packets more : List (List UInt8)) :
    g.take s ep timeout (packets ++ more) =
      if (g.take s ep timeout packets).1 then g.take (g.take s ep timeout packets).2 ep timeout more
      else g.take s ep timeout packets := by
  induction packets generalizing s with
  | nil => rfl
  | cons packet rest ih =>
    simp only [List.cons_append, take]
    split_ifs with h
    · rw [ih, if_pos ‹_›]
    · rw [ih, if_neg ‹_›]
    · rfl

theorem takeBytes_append (s : δ) (ep timeout : UInt32) {bytes more : List UInt8}
    (hpackets : g.maxPacketSize ∣ bytes.length) (hbytes : bytes ≠ []) (hmore : more ≠ []) :
    g.takeBytes s ep timeout (bytes ++ more) =
      if (g.takeBytes s ep timeout bytes).1 then g.takeBytes (g.takeBytes s ep timeout bytes).2 ep timeout more
      else g.takeBytes s ep timeout bytes := by
  rw [takeBytes, pieces_append hpackets hbytes hmore, take_append]
  rfl

theorem maxPacketSize_dvd_maxWrite (v : KernelVersion) : g.maxPacketSize ∣ maxWrite v := by
  cases v with
  | before26 => exact g.maxPacketSize_dvd
  | from26 => exact g.maxPacketSize_dvd.trans (by decide : 4096 ∣ 16384)

theorem maxWrite_pos (v : KernelVersion) : 0 < maxWrite v := by
  cases v <;> decide

theorem writeRequest_eq {v : KernelVersion} {len : UInt32} {left : Nat} (hleft : left < 2 ^ 32) (hlen : len =
    if maxWrite v < (UInt32.ofNat left).toNat then UInt32.ofNat (maxWrite v) else UInt32.ofNat left) :
    len.toNat = if maxWrite v < left then maxWrite v else left := by
  have hwhole : (UInt32.ofNat left).toNat = left := by
    rw [UInt32.toNat_ofNat']
    exact Nat.mod_eq_of_lt hleft
  have hmax : (UInt32.ofNat (maxWrite v)).toNat = maxWrite v := by cases v <;> rfl
  subst hlen
  rw [hwhole]
  split_ifs
  · exact hmax
  · exact hwhole

theorem takeBytes_load (v : KernelVersion) (s : δ) (ep timeout : UInt32) (bytes : Mem) {length sent n : Nat}
    (h : sent < length) (hn : n = if maxWrite v < length - sent then maxWrite v else length - sent) :
    g.takeBytes s ep timeout (bytes.load sent (length - sent)) =
      if (g.takeBytes s ep timeout (bytes.load sent n)).1 = true ∧ sent + n < length then
        g.takeBytes (g.takeBytes s ep timeout (bytes.load sent n)).2 ep timeout
          (bytes.load (sent + n) (length - (sent + n)))
      else g.takeBytes s ep timeout (bytes.load sent n) := by
  have hmax := maxWrite_pos v
  by_cases hmore : maxWrite v < length - sent
  · rw [if_pos hmore] at hn
    have hsplit : bytes.load sent (length - sent) =
        bytes.load sent n ++ bytes.load (sent + n) (length - (sent + n)) := by
      rw [show length - sent = n + (length - (sent + n)) by omega, Mem.load_add]
    have hfirst : bytes.load sent n ≠ [] := List.ne_nil_of_length_pos (by rw [Mem.length_load]; omega)
    have hrest : bytes.load (sent + n) (length - (sent + n)) ≠ [] :=
      List.ne_nil_of_length_pos (by rw [Mem.length_load]; omega)
    have hpackets : g.maxPacketSize ∣ (bytes.load sent n).length := by
      rw [Mem.length_load, hn]
      exact g.maxPacketSize_dvd_maxWrite v
    rw [hsplit, g.takeBytes_append s ep timeout hpackets hfirst hrest]
    exact if_congr (iff_self_and.mpr fun _ => by omega) rfl rfl
  · rw [if_neg hmore] at hn
    rw [if_neg (by omega), hn]

/-- The loop hands on the packets of all the bytes, up to the first one that is refused. -/
theorem bulkWriteLoop_eq (v : KernelVersion) (ep : UInt32) (bytes : Mem) {length : Nat} (timeout : Int)
    (s : δ × Option (List UInt8)) {sent : Nat} (h : sent < length) (hlength : length < 2 ^ 32) :
    ((bulkWriteLoop g.usbfs v ep bytes length timeout s sent).1 = length ↔
        (g.takeBytes s.1 ep (UInt32.ofInt timeout) (bytes.load sent (length - sent))).1 = true) ∧
      (bulkWriteLoop g.usbfs v ep bytes length timeout s sent).2 =
        ((g.takeBytes s.1 ep (UInt32.ofInt timeout) (bytes.load sent (length - sent))).2, s.2) := by
  fun_induction bulkWriteLoop g.usbfs v ep bytes length timeout s sent with
  | case1 s sent whole len r sent' hturn ih =>
    have hlen := writeRequest_eq (v := v) (show length - sent < 2 ^ 32 by omega) (rfl : len = _)
    have hwhole := g.takeBytes_load v s.1 ep (UInt32.ofInt timeout) bytes h hlen
    have hret : r = (if (g.takeBytes s.1 ep (UInt32.ofInt timeout) (bytes.load sent len.toNat)).1 then
      (len.toNat : Int) else -1, (g.takeBytes s.1 ep (UInt32.ofInt timeout) (bytes.load sent len.toNat)).2, s.2) := rfl
    generalize g.takeBytes s.1 ep (UInt32.ofInt timeout) (bytes.load sent len.toNat) = taken at *
    have htaken : taken.1 = true := by
      by_contra hrefused
      have hfailed : r.1 = -1 := by rw [hret, if_neg hrefused]
      exact absurd (hfailed ▸ hturn.1) (by decide)
    have hsent' : sent' = sent + len.toNat := by
      show advance sent r.1 = _
      rw [hret, if_pos htaken, advance_eq, Int.toNat_natCast]
    have hmore : sent + len.toNat < length := hsent' ▸ hturn.2
    rw [if_pos ⟨htaken, hmore⟩, ← hsent'] at hwhole
    rw [hwhole]
    have hnext : r.2 = (taken.2, s.2) := congrArg Prod.snd hret
    have hrest := ih hturn.2
    rw [hnext] at hrest ⊢
    exact hrest
  | case2 s sent whole len r sent' hturn =>
    have hlen := writeRequest_eq (v := v) (show length - sent < 2 ^ 32 by omega) (rfl : len = _)
    have hwhole := g.takeBytes_load v s.1 ep (UInt32.ofInt timeout) bytes h hlen
    have hret : r = (if (g.takeBytes s.1 ep (UInt32.ofInt timeout) (bytes.load sent len.toNat)).1 then
      (len.toNat : Int) else -1, (g.takeBytes s.1 ep (UInt32.ofInt timeout) (bytes.load sent len.toNat)).2, s.2) := rfl
    generalize g.takeBytes s.1 ep (UInt32.ofInt timeout) (bytes.load sent len.toNat) = taken at *
    have hsent' : sent' = sent + r.1.toNat := advance_eq sent r.1
    have hmax := maxWrite_pos v
    have hpos : 0 < len.toNat := by
      rw [hlen]
      split_ifs <;> omega
    have hhigh : len.toNat ≤ length - sent := by
      rw [hlen]
      split_ifs <;> omega
    by_cases htaken : taken.1 = true
    · rw [hret, if_pos htaken] at hturn hsent'
      rw [Int.toNat_natCast] at hsent'
      have hlast : sent' = length := by
        by_contra hmore
        exact hturn ⟨Int.natCast_pos.mpr hpos, by omega⟩
      rw [if_neg fun hmore => absurd hmore.2 (by omega)] at hwhole
      rw [hwhole]
      exact ⟨iff_of_true hlast htaken, congrArg Prod.snd hret⟩
    · rw [hret, if_neg htaken] at hsent'
      rw [if_neg fun hmore => htaken hmore.1] at hwhole
      rw [hwhole]
      refine ⟨iff_of_false (fun hlast => ?_) htaken, congrArg Prod.snd hret⟩
      have hsame : (-1 : Int).toNat = 0 := rfl
      rw [hsame] at hsent'
      omega

/-! ### Reading -/

theorem maxRead_dvd (v : KernelVersion) : maxRead v ∣ sizeofPacket := by
  cases v <;> decide

theorem readRequest_full {v : KernelVersion} {left requested : Nat} (hleft : maxRead v ∣ left) (hpos : 0 < left)
    (hrequested : requested = if maxRead v < left then maxRead v else left) :
    requested = maxRead v ∧ (UInt32.ofNat requested).toNat = maxRead v := by
  obtain ⟨hwhole, -, -⟩ := readRequest_eq left hrequested
  have hle := Nat.le_of_dvd hpos hleft
  have hfull : requested = maxRead v := by
    rw [hrequested]
    split_ifs <;> omega
  exact ⟨hfull, hwhole.trans hfull⟩

/-- A transfer that was begun is read up to its end, and nothing of the next one. -/
theorem bulkReadLoop_eq (v : KernelVersion) (ep : UInt32) (bytes : Mem) {size : Nat} (timeout : Int) (s : δ)
    (rest : List UInt8) {retrieved : Nat} (hsize : maxRead v ∣ size - retrieved)
    (hrest : retrieved + rest.length < size) :
    bulkReadLoop g.usbfs v ep bytes size timeout (s, some rest) retrieved =
      ((retrieved + rest.length, bytes.store retrieved rest), s, none) := by
  generalize hstate : (s, some rest) = state
  fun_induction bulkReadLoop g.usbfs v ep bytes size timeout state retrieved generalizing s rest with
  | case1 bytes state retrieved whole requested r bytes' retrieved' hturn ih =>
    subst hstate
    obtain ⟨hrequested, hlen⟩ := readRequest_full hsize (by omega) (rfl : requested = _)
    have hread : r = deliver s rest (maxRead v) := congrArg (deliver s rest) hlen
    have hmore : ¬ rest.length < maxRead v := by
      intro hlast
      have hret : r.1.1 = rest.length := by rw [hread, deliver, if_pos hlast]
      have hfull := hturn.2.2
      rw [hret, hrequested] at hfull
      omega
    rw [deliver, if_neg hmore] at hread
    have hretrieved' : retrieved' = retrieved + maxRead v := by
      show advance retrieved r.1.1 = _
      rw [hread, advance_eq, Int.toNat_natCast]
    have hbytes' : bytes' = bytes.store retrieved (rest.take (maxRead v)) := by
      show bytes.store retrieved r.1.2 = _
      rw [hread]
    have hdrop : retrieved' + (rest.drop (maxRead v)).length < size := by
      rw [List.length_drop]
      omega
    have hsize' : maxRead v ∣ size - retrieved' := by
      rw [hretrieved', Nat.sub_add_eq]
      exact Nat.dvd_sub hsize (Nat.dvd_refl _)
    have hnext := ih s (rest.drop (maxRead v)) hsize' hdrop (congrArg Prod.snd hread).symm
    have htake : (rest.take (maxRead v)).length = maxRead v := List.length_take_of_le (Nat.not_lt.mp hmore)
    have hstore := Mem.store_append bytes retrieved (rest.take (maxRead v)) (rest.drop (maxRead v))
    rw [htake, List.take_append_drop] at hstore
    rw [hnext, hbytes', hretrieved', hstore, List.length_drop]
    congr 2
    omega
  | case2 bytes state retrieved whole requested r bytes' retrieved' hturn =>
    subst hstate
    obtain ⟨hrequested, hlen⟩ := readRequest_full hsize (by omega) (rfl : requested = _)
    have hread : r = deliver s rest (maxRead v) := congrArg (deliver s rest) hlen
    have hretrieved' : retrieved' = retrieved + r.1.1.toNat := advance_eq retrieved r.1.1
    have hlast : rest.length < maxRead v := by
      by_contra hmore
      rw [deliver, if_neg hmore] at hread
      have hret : r.1.1 = maxRead v := by rw [hread]
      have hmax := maxRead_pos v
      refine hturn ⟨by omega, by omega, ?_⟩
      rw [hret, hrequested]
    rw [deliver, if_pos hlast] at hread
    have hbytes' : bytes' = bytes.store retrieved rest := by
      show bytes.store retrieved r.1.2 = _
      rw [hread]
    rw [hread, Int.toNat_natCast] at hretrieved'
    rw [hretrieved', hbytes', hread]

theorem store_zeros (size : Nat) : Mem.store (fun _ => 0) 0 (List.replicate size 0) = fun _ => 0 := by
  funext i
  rw [Mem.store]
  split_ifs with h
  · rw [List.getD_eq_getElem?_getD, List.getElem?_replicate_of_lt (by rw [List.length_replicate] at h; omega)]
    rfl
  · rfl

theorem store_ofList (bytes : List UInt8) : Mem.store (fun _ => 0) 0 bytes = Mem.ofList bytes := by
  funext i
  rw [Mem.store, Mem.ofList]
  split_ifs with h
  · rfl
  · rw [List.getD_eq_getElem?_getD, List.getElem?_eq_none (by omega)]
    rfl

theorem bulkReadLoop_start (v : KernelVersion) (ep : UInt32) (bytes : Mem) (size : Nat) (timeout : Int) {s s' : δ}
    {data : InTransfer} (retrieved : Nat) (hsend : g.send s ep (UInt32.ofInt timeout) = (some data, s')) :
    bulkReadLoop g.usbfs v ep bytes size timeout (s, none) retrieved =
      bulkReadLoop g.usbfs v ep bytes size timeout (s', some data.bytes) retrieved := by
  have hread (len : UInt32) (k : Nat) : g.usbfs.read (s, none) ⟨ep, len, UInt32.ofInt timeout, k⟩ =
      g.usbfs.read (s', some data.bytes) ⟨ep, len, UInt32.ofInt timeout, k⟩ := by
    simp only [usbfs, pending]
    rw [hsend]
    rfl
  rw [bulkReadLoop]
  conv_rhs => rw [bulkReadLoop]
  simp only [hread]

theorem usbBulkRead_eq (v : KernelVersion) (ep : UInt32) (timeout : Int) (s : δ) :
    usbBulkRead g.usbfs v ep (fun _ => 0) sizeofPacket timeout (s, none) =
      match g.send s (ep ||| 0x80) (UInt32.ofInt timeout) with
      | (none, s') => ((0, fun _ => 0), s', none)
      | (some data, s') => ((data.bytes.length, Mem.ofList data.bytes), s', none) := by
  simp only [usbBulkRead, store_zeros]
  rcases hsend : g.send s (ep ||| 0x80) (UInt32.ofInt timeout) with ⟨_ | data, s'⟩
  · have hread (len : UInt32) (k : Nat) : g.usbfs.read (s, none) ⟨ep ||| 0x80, len, UInt32.ofInt timeout, k⟩ =
        ((-1, []), s', none) := by
      simp only [usbfs, pending]
      rw [hsend]
      rfl
    rw [bulkReadLoop]
    simp only [hread]
    rfl
  · have hshort : 0 + data.bytes.length < sizeofPacket := by
      rw [Nat.zero_add]
      exact data.short
    rw [g.bulkReadLoop_start v _ _ _ _ 0 hsend, g.bulkReadLoop_eq v _ _ timeout s' data.bytes (maxRead_dvd v) hshort,
      Nat.zero_add, store_ofList]

/-! ### Both builds -/

/-- The bytes of each transfer, whichever requests they came in. -/
theorem simulates (v : KernelVersion) (nocrc : Int) :
    (g.usbfs.transport v).Simulates g.transport sizeofPacket (SameResponse nocrc nocrc)
      (fun s s' => s = (s', none)) where
  write {s s'} ep timeout bytes hs hpos hsize := by
    subst hs
    obtain ⟨hwhole, hstate⟩ := g.bulkWriteLoop_eq v (ep.toUInt32 &&& 0xFFFFFF7F) (Mem.ofList bytes) timeout
      (s', none) hpos (hsize.trans_lt (by decide))
    rw [Nat.sub_zero, Mem.load_ofList_self] at hwhole hstate
    refine ⟨?_, hstate⟩
    show ((bulkWriteLoop g.usbfs v (ep.toUInt32 &&& 0xFFFFFF7F) (Mem.ofList bytes) bytes.length timeout (s', none)
      0).1 : Int) = bytes.length ↔ (if (g.takeBytes s' (ep.toUInt32 &&& 0xFFFFFF7F) (UInt32.ofInt timeout) bytes).1
        then (bytes.length : Int) else -1) = bytes.length
    rw [Int.ofNat_inj, hwhole]
    by_cases htaken : (g.takeBytes s' (ep.toUInt32 &&& 0xFFFFFF7F) (UInt32.ofInt timeout) bytes).1 = true
    · rw [if_pos htaken]
      exact iff_of_true htaken rfl
    · rw [if_neg htaken]
      exact iff_of_false htaken (by omega)
  read {s s'} ep timeout hs := by
    subst hs
    have hread := g.usbBulkRead_eq v ep.toUInt32 timeout s'
    simp only [Usbfs.transport, transport]
    rw [hread]
    rcases g.send s' (ep.toUInt32 ||| 0x80) (UInt32.ofInt timeout) with ⟨_ | data, s''⟩
    · exact ⟨rfl, rfl⟩
    · exact ⟨rfl, rfl⟩

def usbEnv (v : KernelVersion) (host : Host δ) : Env (δ × Option (List UInt8)) where
  toTransport := g.usbfs.transport v
  stack s := host.stack s.1
  localtime := host.localtime
  mktime := host.mktime

def env (host : Host δ) : Env δ where
  toTransport := g.transport
  toHost := host

theorem env_simulates (v : KernelVersion) (host : Host δ) (nocrc : Int) :
    (g.usbEnv v host).Simulates nocrc nocrc (g.env host) fun s s' => s = (s', none) where
  transport := g.simulates v nocrc
  stack hs := by
    rw [hs]
    rfl
  localtime := rfl
  mktime := rfl

end Gadget

/-- The handle of a device on the bus, with no transfer begun. -/
def TfHandle.onBus (tf : TfHandle δ) : TfHandle (δ × Option (List UInt8)) where
  timeout := tf.timeout
  nocrc := tf.nocrc
  error := tf.error
  dev := tf.dev
  pending := tf.pending
  buf := tf.buf
  usb := (tf.usb, none)

/-- **Both builds.** Whatever the kernel, a client sees what it would see if each transfer were made as a whole,
and no transfer is left half read. -/
theorem client_onBus (g : Gadget δ) (v : KernelVersion) (host : Host δ) (tf : TfHandle δ)
    (client : Client PublicCall Observed) (n : Nat) :
    (client.run (PublicCall.observe (g.usbEnv v host)) n [] tf.onBus).1 =
        (client.run (PublicCall.observe (g.env host)) n [] tf).1 ∧
      (client.run (PublicCall.observe (g.usbEnv v host)) n [] tf.onBus).2.usb =
        ((client.run (PublicCall.observe (g.env host)) n [] tf).2.usb, none) := by
  have hlike : tf.onBus.Like tf.nocrc tf.nocrc (fun s s' => s = (s', none)) tf :=
    ⟨rfl, rfl, rfl, rfl, rfl, rfl, rfl, rfl⟩
  obtain ⟨hseen, hleft⟩ := (g.env_simulates v host tf.nocrc).observe.run client n [] hlike
  exact ⟨hseen, hleft.usb⟩

/-- A device with packets of 64 bytes that takes all of them, and answers with SUCCESS. -/
def agreeing : Gadget Unit where
  maxPacketSize := 64
  maxPacketSize_dvd := by decide
  receive _ _ _ _ := (true, ())
  send _ _ _ := (some ⟨successPacket, by decide⟩, ())

theorem take_agreeing (ep timeout : UInt32) (packets : List (List UInt8)) :
    agreeing.take () ep timeout packets = (true, ()) := by
  induction packets with
  | nil => rfl
  | cons packet rest ih => exact ih

theorem tfSend_agreeing (host : Host Unit) {tf : TfHandle Unit} (req : Mem) (hdev : tf.dev = true) :
    tfSend (agreeing.env host) tf req = ⟨0, { tf with error := 0 }⟩ := by
  have hwrite : (agreeing.env host).write tf.usb 0x01 tf.timeout (tfSendBytes req) =
      (((tfSendBytes req).length : Int), ()) := by
    show (if (agreeing.take () _ _ _).1 then _ else _, (agreeing.take () _ _ _).2) = _
    rw [take_agreeing]
    rfl
  simp only [tfSend]
  rw [if_pos hdev, hwrite, tfSendBytes_length, if_pos rfl]

/-- A block of 5000 bytes is sent, which takes two requests to an old kernel. -/
theorem client_onBus_putData :
    let block : List UInt8 := List.replicate 5000 0
    let client : Client PublicCall Observed := fun seen => if seen = [] then some (.putData 0 block) else none
    let run := client.run (PublicCall.observe (agreeing.usbEnv .before26 (Host.blank Unit))) 2 []
      (TfHandle.opened () fun _ => 0).onBus
    run.1.map Observed.ret = [0] ∧ run.2.usb = ((), none) := by
  intro block client run
  obtain ⟨hseen, husb⟩ := client_onBus agreeing .before26 (Host.blank Unit) (TfHandle.opened () fun _ => 0) client 2
  refine ⟨?_, husb⟩
  rw [hseen]
  have hret : (tfCmdPutData (agreeing.env (Host.blank Unit)) (TfHandle.opened () fun _ => 0) 0 block).ret = 0 := by
    simp only [tfCmdPutData]
    rw [tfSend_agreeing _ _ rfl]
    decide +kernel
  exact congrArg (fun ret => [ret]) hret

end Topfield
