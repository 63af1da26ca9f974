import Topfield.Peer

/-!
# Downloading a file

A device that has answered with FILE_START holds the pieces of the file and sends the next packet for
each SUCCESS. `tf_cmd_get_next` acknowledges a piece before it returns it and remembers in `pending` that
it has, so between two calls either the device owes a packet and `pending` is set, or an acknowledgement
is due and it is not. That is the invariant of a download, and it survives every failed send.
-/

namespace Topfield

open Lib

structure Chunk where
  offset : UInt64
  data : List UInt8
  fits : 16 + data.length ≤ 0xFFFF

def Chunk.packet (chunk : Chunk) : Packet where
  cmd := tfMsgHddFileData
  payload := toBE 8 chunk.offset.toNat ++ chunk.data
  fits := by
    rw [List.length_append, length_toBE, ← Nat.add_assoc]
    exact chunk.fits

def fileEndPacket : Packet := .header tfMsgHddFileEnd

def filePackets (chunks : List Chunk) : List Packet := chunks.map Chunk.packet ++ [fileEndPacket]

/-- What a caller makes of one call of `tf_cmd_get_next`. -/
inductive Outcome
  | chunk (offset : UInt64) (size : Nat) (data : List UInt8)
  | ended (ret : Int)
deriving DecidableEq

def Chunk.outcome (chunk : Chunk) : Outcome := .chunk chunk.offset chunk.data.length chunk.data

/-- A caller that makes at most `n` calls. It looks at each piece before the next call, calls again when
nothing was read, because then the send at the entry failed, and stops at any other result. -/
def download {σ : Type} (e : Env σ) (buf : TfBuffer) :
    Nat → TfHandle (σ × List Event) → List Outcome × TfHandle (σ × List Event)
  | 0, tf => ([], tf)
  | n + 1, tf =>
    let next := tfCmdGetNext e.logged tf buf
    if next.ret = tfErrNone then
      let rest := download e buf n next.tf
      (.chunk next.out.offset next.out.size (next.tf.buf.load next.out.data next.out.size) :: rest.1,
        rest.2)
    else if reads next.tf.usb.2 = reads tf.usb.2 then
      download e buf n next.tf
    else
      ([.ended next.ret], next.tf)

/-- The SUCCESS packets delivered are as many as the packets received, FILE_START among them. -/
def Acknowledged (log : List Event) : Prop := deliveries successPacket log = reads log + 1

/-- The state between two calls with `packets` still to come. -/
structure Synced (packets : List Packet) (tf : TfHandle (Source × List Event)) : Prop where
  dev : tf.dev = true
  queue : tf.usb.1.queue = packets
  credit : tf.usb.1.credit = if tf.pending = 0 then 0 else 1
  balance : deliveries successPacket tf.usb.2 = reads tf.usb.2 + tf.usb.1.credit
  acknowledged : AtReads Acknowledged tf.usb.2

abbrev downloadSource (fails : Nat → Bool) (stale : Source → Mem) : Peer Source :=
  source (fun cmd => cmd = tfMsgSuccess) fails stale

variable {fails : Nat → Bool} {stale : Source → Mem} {host : Host Source}
  {tf : TfHandle (Source × List Event)} {s : Source} {log : List Event}

/-! ### One call -/

theorem dataChunk_received {reply : Mem} {chunk : Chunk}
    (h : Received reply tfMsgHddFileData chunk.packet.payload) :
    (dataChunk reply).offset = chunk.offset ∧ (dataChunk reply).size = chunk.data.length ∧
      reply.load (dataChunk reply).data chunk.data.length = chunk.data := by
  have hpayload : chunk.packet.payload = toBE 8 chunk.offset.toNat ++ chunk.data := rfl
  have hfits := chunk.fits
  have hlength := h.length
  rw [hpayload, List.length_append, length_toBE] at hlength
  obtain ⟨hoffset, hdata⟩ := Mem.load_split (h.data.trans hpayload)
  rw [length_toBE] at hoffset hdata
  refine ⟨?_, ?_, hdata⟩
  · apply UInt64.toNat_inj.mp
    rw [dataChunk, getU64_toNat, hoffset, ofBE_toBE]
    exact Nat.mod_eq_of_lt chunk.offset.toNat_lt
  · have hle : (16 : UInt16) ≤ packetLength reply := by
      rw [UInt16.le_iff_toNat_le, hlength]
      show 16 ≤ _
      omega
    rw [dataChunk, UInt16.toNat_sub_of_le _ _ hle, hlength]
    show _ - 16 = _
    omega

/-- The state in which `tf_cmd_get_next` reads: a packet is owed and everything is acknowledged. -/
structure Owed (packets : List Packet) (tf : TfHandle (Source × List Event)) : Prop where
  dev : tf.dev = true
  pending : tf.pending = 0
  queue : tf.usb.1.queue = packets
  credit : tf.usb.1.credit = 1
  balance : Acknowledged tf.usb.2
  acknowledged : AtReads Acknowledged tf.usb.2

theorem deliveries_success (ret : Int) :
    deliveries successPacket [.wrote successPacket ret] = if ret = 8 then 1 else 0 := by
  by_cases hret : ret = 8
  · simp [deliveries, Event.Delivers, hret, successPacket]
  · simp [deliveries, Event.Delivers, hret, successPacket]

theorem deliveries_read (ret : Int) (content : Mem) :
    deliveries successPacket [.read ret content] = 0 :=
  rfl

theorem reads_wrote (bytes : List UInt8) (ret : Int) : reads [.wrote bytes ret] = 0 :=
  rfl

theorem reads_read (ret : Int) (content : Mem) : reads [.read ret content] = 1 :=
  rfl

/-- Only the connection and the flag matter. -/
theorem Synced.of_eq {packets : List Packet} {tf' : TfHandle (Source × List Event)}
    (h : Synced packets tf) (hdev : tf'.dev = tf.dev) (hpending : tf'.pending = tf.pending)
    (husb : tf'.usb = tf.usb) : Synced packets tf' := by
  obtain ⟨hdev', hqueue, hcredit, hbalance, hacknowledged⟩ := h
  constructor
  all_goals simpa only [hdev, hpending, husb]

theorem Owed.remember {packets : List Packet} (h : Owed packets tf) :
    Synced packets { tf with pending := 1 } :=
  ⟨h.dev, h.queue, h.credit, by rw [h.balance, h.credit], h.acknowledged⟩

/-- An acknowledgement that is due either is delivered, and a packet is owed, or fails and is still due. -/
theorem sendSuccess_synced {packets : List Packet} (fails : Nat → Bool) (stale : Source → Mem)
    (host : Host Source) (h : Synced packets tf) (hpending : tf.pending = 0) :
    let ack := tfSendSuccess ((downloadSource fails stale).env host).logged tf
    ack.tf.buf = tf.buf ∧ reads ack.tf.usb.2 = reads tf.usb.2 ∧
      (ack.ret = tfErrNone ∧ Owed packets ack.tf ∨
        ack.ret = tfErrIo ∧ Synced packets ack.tf ∧ ack.tf.pending = 0 ∧
          fails tf.usb.1.sends = true ∧ ack.tf.usb.1.sends = tf.usb.1.sends + 1) := by
  obtain ⟨hdev, hqueue, hcredit, hbalance, hacknowledged⟩ := h
  rw [if_pos hpending] at hcredit
  by_cases hfails : fails tf.usb.1.sends = true
  · rw [tfSendSuccess_source_failed hdev rfl hfails]
    refine ⟨rfl, ?_, .inr ⟨rfl, ⟨hdev, hqueue, ?_, ?_, ?_⟩, hpending, hfails, rfl⟩⟩
    · simp only [reads_append, reads_wrote, Nat.add_zero]
    · simp only [hpending, hcredit, if_true]
    · simp only [deliveries_append, reads_append, deliveries_success, reads_wrote, hbalance]
      rfl
    · exact atReads_concat hacknowledged False.elim
  · rw [tfSendSuccess_source (by decide) hdev rfl (by simpa using hfails)]
    refine ⟨rfl, ?_, .inl ⟨rfl, hdev, hpending, hqueue, ?_, ?_, ?_⟩⟩
    · simp only [reads_append, reads_wrote, Nat.add_zero]
    · simp only [hcredit]
    · simp only [Acknowledged, deliveries_append, reads_append, deliveries_success, reads_wrote,
        hbalance, hcredit]
      rfl
    · exact atReads_concat hacknowledged False.elim

theorem getResponse_owed {packet : Packet} {rest : List Packet} (fails : Nat → Bool)
    (stale : Source → Mem) (host : Host Source) (reply : Mem) (h : Owed (packet :: rest) tf) :
    let got := tfGetResponse ((downloadSource fails stale).env host).logged tf reply
    got.ret = tfErrNone ∧ Received got.out packet.cmd packet.payload ∧ Synced rest got.tf ∧
      got.tf.pending = 0 ∧ reads got.tf.usb.2 = reads tf.usb.2 + 1 := by
  obtain ⟨hdev, hpending, hqueue, hcredit, hbalance, hacknowledged⟩ := h
  obtain ⟨out, tf', ret, content, hgot, hreceived, hdev', hpending', husb⟩ :=
    tfGetResponse_source (fun cmd => cmd = tfMsgSuccess) fails stale host reply hdev rfl hqueue hcredit
  rw [hpending] at hpending'
  simp only [hgot]
  refine ⟨trivial, hreceived, ⟨hdev', by rw [husb], ?_, ?_, ?_⟩, hpending', ?_⟩
  · rw [husb, if_pos hpending']
  · rw [husb, deliveries_append, reads_append, deliveries_read, reads_read, hbalance]
  · rw [husb]
    exact atReads_concat hacknowledged fun _ => hbalance
  · rw [husb, reads_append, reads_read]

theorem getNextReply_chunk {chunk : Chunk} {rest : List Packet} (fails : Nat → Bool)
    (stale : Source → Mem) (host : Host Source) (buf : TfBuffer)
    (h : Owed (chunk.packet :: rest) tf) :
    let next := getNextReply ((downloadSource fails stale).env host).logged tf buf
    next.ret = tfErrNone ∧ next.out.offset = chunk.offset ∧ next.out.size = chunk.data.length ∧
      next.tf.buf.load next.out.data next.out.size = chunk.data ∧ Synced rest next.tf := by
  obtain ⟨hret, hreceived, hsynced, hpending, -⟩ := getResponse_owed fails stale host tf.buf h
  simp only [getNextReply]
  generalize tfGetResponse ((downloadSource fails stale).env host).logged tf tf.buf = got at *
  obtain ⟨hoffset, hsize, hdata⟩ := dataChunk_received hreceived
  obtain ⟨hbuf, -, hack⟩ := sendSuccess_synced fails stale host
    (hsynced.of_eq rfl rfl rfl : Synced rest { got.tf with buf := got.out }) hpending
  generalize tfSendSuccess ((downloadSource fails stale).env host).logged
    { got.tf with buf := got.out } = ack at *
  have hcmd : packetCmd got.out = tfMsgHddFileData := hreceived.cmd
  have hend : packetCmd got.out ≠ tfMsgHddFileEnd := by
    rw [hcmd]
    decide
  rw [← hsize] at hdata
  rw [if_pos hret, if_neg hend, if_pos hcmd]
  refine ⟨rfl, hoffset, hsize, ?_, ?_⟩
  · show (if ack.ret = 0 then _ else ack.tf).buf.load _ _ = _
    split
    · exact hbuf ▸ hdata
    · exact hbuf ▸ hdata
  · show Synced rest (if ack.ret = 0 then _ else ack.tf)
    rcases hack with ⟨hok, howed⟩ | ⟨hfailed, hsynced', -⟩
    · rw [if_pos hok]
      exact howed.remember
    · rw [if_neg (by rw [hfailed]; decide)]
      exact hsynced'

theorem getNextReply_end {rest : List Packet} (fails : Nat → Bool) (stale : Source → Mem)
    (host : Host Source) (buf : TfBuffer) (h : Owed (fileEndPacket :: rest) tf) :
    let next := getNextReply ((downloadSource fails stale).env host).logged tf buf
    next.ret = tfErrDone ∧ reads next.tf.usb.2 = reads tf.usb.2 + 1 ∧
      AtReads Acknowledged next.tf.usb.2 := by
  obtain ⟨hret, hreceived, hsynced, hpending, hreads⟩ := getResponse_owed fails stale host tf.buf h
  simp only [getNextReply]
  generalize tfGetResponse ((downloadSource fails stale).env host).logged tf tf.buf = got at *
  obtain ⟨-, hsame, hack⟩ := sendSuccess_synced fails stale host
    (hsynced.of_eq rfl rfl rfl : Synced rest { got.tf with buf := got.out }) hpending
  have hcmd : packetCmd got.out = tfMsgHddFileEnd := hreceived.cmd
  rw [if_pos hret, if_pos hcmd]
  refine ⟨rfl, hsame.trans hreads, ?_⟩
  rcases hack with ⟨-, howed⟩ | ⟨-, hsynced', -⟩
  · exact howed.acknowledged
  · exact hsynced'.acknowledged

/-- What one call does with `chunks` still to come: it fails at the entry and changes nothing, or it
returns the first of them, or it reports the end. -/
inductive NextStep (fails : Nat → Bool) (tf : TfHandle (Source × List Event)) :
    List Chunk → CallOut (Source × List Event) TfBuffer → Prop
  | failed {chunks : List Chunk} {next : CallOut (Source × List Event) TfBuffer}
      (hret : next.ret = tfErrIo) (hreads : reads next.tf.usb.2 = reads tf.usb.2)
      (hsynced : Synced (filePackets chunks) next.tf) (hfails : fails tf.usb.1.sends = true)
      (hsends : next.tf.usb.1.sends = tf.usb.1.sends + 1) : NextStep fails tf chunks next
  | chunk {chunk : Chunk} {rest : List Chunk} {next : CallOut (Source × List Event) TfBuffer}
      (hret : next.ret = tfErrNone) (hoffset : next.out.offset = chunk.offset)
      (hsize : next.out.size = chunk.data.length)
      (hdata : next.tf.buf.load next.out.data next.out.size = chunk.data)
      (hsynced : Synced (filePackets rest) next.tf) : NextStep fails tf (chunk :: rest) next
  | done {next : CallOut (Source × List Event) TfBuffer} (hret : next.ret = tfErrDone)
      (hreads : reads next.tf.usb.2 = reads tf.usb.2 + 1)
      (hacknowledged : AtReads Acknowledged next.tf.usb.2) : NextStep fails tf [] next

theorem getNextReply_owed {chunks : List Chunk} {before : TfHandle (Source × List Event)}
    (fails : Nat → Bool) (stale : Source → Mem) (host : Host Source) (buf : TfBuffer)
    (h : Owed (filePackets chunks) tf) (hreads : reads tf.usb.2 = reads before.usb.2) :
    let next := getNextReply ((downloadSource fails stale).env host).logged tf buf
    NextStep fails before chunks { next with tf := { next.tf with error := next.ret } } := by
  cases chunks with
  | nil =>
    obtain ⟨hret, hread, hacknowledged⟩ := getNextReply_end fails stale host buf h
    exact .done hret (hread.trans (by rw [hreads])) hacknowledged
  | cons chunk rest =>
    obtain ⟨hret, hoffset, hsize, hdata, hsynced⟩ := getNextReply_chunk fails stale host buf h
    exact .chunk hret hoffset hsize hdata (hsynced.of_eq rfl rfl rfl)

theorem tfCmdGetNext_synced {chunks : List Chunk} (fails : Nat → Bool) (stale : Source → Mem)
    (host : Host Source) (buf : TfBuffer) (h : Synced (filePackets chunks) tf) :
    NextStep fails tf chunks (tfCmdGetNext ((downloadSource fails stale).env host).logged tf buf) := by
  by_cases hpending : tf.pending = 0
  · obtain ⟨-, hreads, hack⟩ := sendSuccess_synced fails stale host h hpending
    simp only [tfCmdGetNext, if_pos hpending]
    rcases hack with ⟨hok, howed⟩ | ⟨hfailed, hsynced, hzero, hfails, hsends⟩
    · rw [if_pos hok]
      refine getNextReply_owed fails stale host buf ?_ hreads
      rwa [← howed.pending]
    · rw [if_neg (by rw [hfailed]; decide)]
      exact .failed hfailed hreads (hsynced.of_eq rfl hzero.symm rfl) hfails hsends
  · simp only [tfCmdGetNext, if_neg hpending, if_true]
    refine getNextReply_owed fails stale host buf ⟨h.dev, rfl, h.queue, ?_, ?_, h.acknowledged⟩ rfl
    · rw [h.credit, if_neg hpending]
    · rw [Acknowledged, h.balance, h.credit, if_neg hpending]

/-! ### A whole download -/

def outcomes (chunks : List Chunk) : List Outcome := chunks.map Chunk.outcome ++ [.ended tfErrDone]

theorem download_synced {chunks : List Chunk} (fails : Nat → Bool) (stale : Source → Mem)
    (host : Host Source) (buf : TfBuffer) (n : Nat) (h : Synced (filePackets chunks) tf) :
    let run := download ((downloadSource fails stale).env host) buf n tf
    run.1 <+: outcomes chunks ∧ AtReads Acknowledged run.2.usb.2 := by
  induction n generalizing tf chunks with
  | zero => exact ⟨List.nil_prefix, h.acknowledged⟩
  | succ n ih =>
    have hstep := tfCmdGetNext_synced fails stale host buf h
    simp only [download]
    generalize tfCmdGetNext ((downloadSource fails stale).env host).logged tf buf = next at hstep ⊢
    cases hstep with
    | failed hret hreads hsynced _ _ =>
      rw [if_neg (by rw [hret]; decide), if_pos hreads]
      exact ih hsynced
    | @chunk chunk rest _ hret hoffset hsize hdata hsynced =>
      obtain ⟨hstart, hacknowledged⟩ := ih hsynced
      rw [if_pos hret, hdata, hoffset, hsize]
      exact ⟨List.cons_prefix_cons.mpr ⟨rfl, hstart⟩, hacknowledged⟩
    | done hret hreads hacknowledged =>
      rw [if_neg (by rw [hret]; decide), if_neg (by omega), hret]
      exact ⟨List.prefix_rfl, hacknowledged⟩

theorem download_retries {chunks : List Chunk} {fails : Nat → Bool} (stale : Source → Mem)
    (host : Host Source) (buf : TfBuffer) (d : Nat) {j : Nat} (hle : tf.usb.1.sends ≤ j)
    (hd : j ≤ tf.usb.1.sends + d) (hj : fails j = false) (h : Synced (filePackets chunks) tf) :
    ∃ m tf', Synced (filePackets chunks) tf' ∧
      (tfCmdGetNext ((downloadSource fails stale).env host).logged tf' buf).ret ≠ tfErrIo ∧
      ∀ n, download ((downloadSource fails stale).env host) buf (n + m) tf =
        download ((downloadSource fails stale).env host) buf n tf' := by
  induction d generalizing tf with
  | zero =>
    refine ⟨0, tf, h, ?_, fun n => rfl⟩
    obtain rfl : j = tf.usb.1.sends := by omega
    have hstep := tfCmdGetNext_synced fails stale host buf h
    cases hstep with
    | failed _ _ _ hfails _ => simp [hfails] at hj
    | chunk hret _ _ _ _ =>
      rw [hret]
      decide
    | done hret _ _ =>
      rw [hret]
      decide
  | succ d ih =>
    have hstep := tfCmdGetNext_synced fails stale host buf h
    by_cases hio : (tfCmdGetNext ((downloadSource fails stale).env host).logged tf buf).ret = tfErrIo
    · cases hstep with
      | failed hret hreads hsynced hfails hsends =>
        have hne : j ≠ tf.usb.1.sends := by
          rintro rfl
          simp [hfails] at hj
        obtain ⟨m, tf', hsynced', hret', hrun⟩ := ih (by omega) (by omega) hsynced
        refine ⟨m + 1, tf', hsynced', hret', fun n => ?_⟩
        rw [← hrun n, ← Nat.add_assoc, download]
        simp only
        rw [if_neg (by rw [hret]; decide), if_pos hreads]
      | chunk hret _ _ _ _ => exact absurd (hret.symm.trans hio) (by decide)
      | done hret _ _ => exact absurd (hret.symm.trans hio) (by decide)
    · exact ⟨0, tf, h, hio, fun n => rfl⟩

theorem download_complete {chunks : List Chunk} {fails : Nat → Bool} (stale : Source → Mem)
    (host : Host Source) (buf : TfBuffer) (hfair : ∀ k, ∃ j, k ≤ j ∧ fails j = false)
    (h : Synced (filePackets chunks) tf) :
    ∃ n, (download ((downloadSource fails stale).env host) buf n tf).1 = outcomes chunks := by
  induction chunks generalizing tf with
  | nil =>
    obtain ⟨j, hle, hj⟩ := hfair tf.usb.1.sends
    obtain ⟨m, tf', hsynced, hio, hrun⟩ :=
      download_retries stale host buf (j - tf.usb.1.sends) hle (by omega) hj h
    refine ⟨1 + m, ?_⟩
    have hstep := tfCmdGetNext_synced fails stale host buf hsynced
    rw [hrun, download]
    generalize tfCmdGetNext ((downloadSource fails stale).env host).logged tf' buf = next at hstep hio ⊢
    cases hstep with
    | failed hret _ _ _ _ => exact absurd hret hio
    | done hret hreads _ =>
      simp only
      rw [if_neg (by rw [hret]; decide), if_neg (by omega), hret]
      rfl
  | cons chunk rest ih =>
    obtain ⟨j, hle, hj⟩ := hfair tf.usb.1.sends
    obtain ⟨m, tf', hsynced, hio, hrun⟩ :=
      download_retries stale host buf (j - tf.usb.1.sends) hle (by omega) hj h
    have hstep := tfCmdGetNext_synced fails stale host buf hsynced
    cases hstep with
    | failed hret _ _ _ _ => exact absurd hret hio
    | chunk hret hoffset hsize hdata hrest =>
      obtain ⟨n, hn⟩ := ih hrest
      refine ⟨n + 1 + m, ?_⟩
      rw [hrun, download]
      simp only
      rw [if_pos hret, hdata, hoffset, hsize, hn]
      rfl

/-- **Downloads.** Whatever the pieces and whichever sends fail, the calls return the pieces in order,
each once, and then the end, they get there if sends keep working now and then, and whenever a reply is
read every packet so far has been acknowledged exactly once. -/
theorem download_faithful (chunks : List Chunk) (fails : Nat → Bool) (stale : Source → Mem)
    (host : Host Source) (buf : TfBuffer) (tf : TfHandle Source) (hdev : tf.dev = true)
    (hpending : tf.pending = 0) (hqueue : tf.usb.queue = filePackets chunks) (hcredit : tf.usb.credit = 0) :
    (∀ n, (download ((downloadSource fails stale).env host) buf n tf.logging).1 <+: outcomes chunks ∧
      AtReads (fun log => deliveries successPacket log = reads log + 1)
        (download ((downloadSource fails stale).env host) buf n tf.logging).2.usb.2) ∧
    ((∀ k, ∃ j, k ≤ j ∧ fails j = false) →
      ∃ n, (download ((downloadSource fails stale).env host) buf n tf.logging).1 = outcomes chunks) := by
  have hsynced : Synced (filePackets chunks) tf.logging := by
    refine ⟨hdev, hqueue, ?_, ?_, atReads_nil _⟩
    · show tf.usb.credit = if tf.pending = 0 then 0 else 1
      rw [hcredit, if_pos hpending]
    · show 0 = 0 + tf.usb.credit
      rw [hcredit]
  exact ⟨fun n => download_synced fails stale host buf n hsynced,
    fun hfair => download_complete stale host buf hfair hsynced⟩

/-- Two pieces, of odd and of even length, with every other send failing. -/
theorem download_faithful_two_chunks :
    let chunks : List Chunk := [⟨0, [1, 2, 3], by decide⟩, ⟨3, [4, 5], by decide⟩]
    let fails : Nat → Bool := fun k => k % 2 = 1
    let e := (downloadSource fails fun _ _ => 0xAA).env (Host.blank Source)
    let tf := TfHandle.opened (Source.mk (filePackets chunks) 0 0) fun _ => 0
    (∀ n, (download e ⟨0, 0, 0⟩ n tf.logging).1 <+: outcomes chunks ∧
      AtReads (fun log => deliveries successPacket log = reads log + 1)
        (download e ⟨0, 0, 0⟩ n tf.logging).2.usb.2) ∧
    ∃ n, (download e ⟨0, 0, 0⟩ n tf.logging).1 = outcomes chunks := by
  intro chunks fails e tf
  have h := download_faithful chunks fails (fun _ _ => 0xAA) (Host.blank Source) ⟨0, 0, 0⟩ tf rfl rfl rfl rfl
  exact ⟨h.1, h.2 fun k => ⟨2 * k, by omega, by simp [fails]⟩⟩

end Topfield
