import Topfield.Steps

/-!
# Devices

A device at the level of packets: what becomes of the bytes of a transfer, and the packet, if any, that
is there when the host reads. Its packets arrive as their wire images, in a buffer that keeps what it
held behind them, and a read that finds nothing times out.
-/

namespace Topfield

open Lib

structure Packet where
  cmd : UInt32
  payload : List UInt8
  fits : 8 + payload.length ≤ 0xFFFF

namespace Packet

def wire (packet : Packet) : List UInt8 := wireImage packet.cmd packet.payload

def header (cmd : UInt32) : Packet := ⟨cmd, [], Nat.le_of_ble_eq_true rfl⟩

end Packet

structure Peer (δ : Type) where
  receive : δ → (bytes : List UInt8) → Int × δ
  reply : δ → Option Packet × δ
  stale : δ → Mem

/-- What a read returns and leaves in the buffer. -/
def arrival (stale : Mem) : Option Packet → Int × Mem
  | none => (-1, stale)
  | some packet => (packet.wire.length, stale.store 0 packet.wire)

def Peer.env {δ : Type} (peer : Peer δ) (host : Host δ) : Env δ where
  toHost := host
  write s _ _ bytes := peer.receive s bytes
  read s _ _ _ := (arrival (peer.stale s) (peer.reply s).1, (peer.reply s).2)

/-! ### What the host makes of a reply -/

theorem checkResponse_none (nocrc : Int) (stale : Mem) :
    checkResponse nocrc (arrival stale none).1 (arrival stale none).2 = (tfErrIo, stale) := by
  simp [checkResponse, responseLength, arrival]

theorem checkResponse_some (nocrc : Int) (stale : Mem) (packet : Packet) :
    (checkResponse nocrc (arrival stale packet).1 (arrival stale packet).2).1 = tfErrNone ∧
      Received (checkResponse nocrc (arrival stale packet).1 (arrival stale packet).2).2
        packet.cmd packet.payload := by
  refine checkResponse_wireImage nocrc _ packet.fits ?_ ?_
  · rw [← length_wireImage packet.cmd]
    exact Mem.load_store_self stale 0 _
  · simp only [arrival, Packet.wire, length_wireImage, evenLength]
    omega

variable {δ : Type} (peer : Peer δ) (host : Host δ) {tf : TfHandle (δ × List Event)} {s s' : δ}
  {log : List Event}

theorem tfSend_peer (req : Mem) {ret : Int} (hdev : tf.dev = true) (husb : tf.usb = (s, log))
    (hreceive : peer.receive s (tfSendBytes req) = (ret, s')) :
    tfSend (peer.env host).logged tf req =
      { ret := if ret = (tfSendBytes req).length then tfErrNone else tfErrIo
        tf := { tf with
          error := if ret = (tfSendBytes req).length then tfErrNone else tfErrIo
          usb := (s', log ++ [.wrote (tfSendBytes req) ret]) } } := by
  have hwrite : (peer.env host).write tf.usb.1 0x01 tf.timeout (tfSendBytes req) = (ret, s') := by
    rw [husb]
    exact hreceive
  rw [tfSend_logged (peer.env host) req hdev hwrite, husb]

/-- One read, and what is behind the answer in the buffer. -/
private theorem tfGetResponse_arrival (reply : Mem) {found : Option Packet} (hdev : tf.dev = true)
    (husb : tf.usb = (s, log)) (hreply : peer.reply s = (found, s')) :
    ∃ ret content,
      (ret, content) = arrival (peer.stale s) found ∧
      tfGetResponse (peer.env host).logged tf reply =
        { ret := (checkResponse tf.nocrc ret content).1
          tf := { tf with
            error := (checkResponse tf.nocrc ret content).1
            usb := (s', log ++ [.read ret content]) }
          out := (checkResponse tf.nocrc ret content).2 } := by
  rcases harrival : arrival (peer.stale s) found with ⟨ret, content⟩
  have hread : (peer.env host).read tf.usb.1 0x82 tf.timeout sizeofPacket = ((ret, content), s') := by
    rw [husb]
    show (arrival _ _, _) = _
    rw [hreply, harrival]
  refine ⟨ret, content, rfl, ?_⟩
  rw [tfGetResponse_logged (peer.env host) reply hdev hread, husb]

theorem tfGetResponse_peer (reply : Mem) {packet : Packet} (hdev : tf.dev = true)
    (husb : tf.usb = (s, log)) (hreply : peer.reply s = (some packet, s')) :
    ∃ ret content out,
      tfGetResponse (peer.env host).logged tf reply =
        { ret := tfErrNone
          tf := { tf with error := tfErrNone, usb := (s', log ++ [.read ret content]) }
          out } ∧
      Received out packet.cmd packet.payload := by
  obtain ⟨ret, content, harrival, hgot⟩ := tfGetResponse_arrival peer host reply hdev husb hreply
  obtain ⟨herror, hreceived⟩ := checkResponse_some tf.nocrc (peer.stale s) packet
  rw [← harrival] at herror hreceived
  rw [herror] at hgot
  exact ⟨ret, content, _, hgot, hreceived⟩

theorem tfGetResponse_peer_none (reply : Mem) (hdev : tf.dev = true) (husb : tf.usb = (s, log))
    (hreply : peer.reply s = (none, s')) :
    ∃ ret content out,
      tfGetResponse (peer.env host).logged tf reply =
        { ret := tfErrIo
          tf := { tf with error := tfErrIo, usb := (s', log ++ [.read ret content]) }
          out } := by
  obtain ⟨ret, content, harrival, hgot⟩ := tfGetResponse_arrival peer host reply hdev husb hreply
  have hnone := checkResponse_none tf.nocrc (peer.stale s)
  rw [← harrival] at hnone
  rw [hnone] at hgot
  exact ⟨ret, content, _, hgot⟩

/-! ### A device that holds packets -/

/-- The packets a device has yet to send, how many of them it may send now, and how many transfers the
host has tried. -/
structure Source where
  queue : List Packet
  credit : Nat
  sends : Nat

/-- A device that sends its packets in order, one for every trigger it receives. The transfers that
`fails` picks by their number do not reach it. -/
def source (triggers : UInt32 → Bool) (fails : Nat → Bool) (stale : Source → Mem) : Peer Source where
  receive s bytes :=
    if fails s.sends then
      (-1, { s with sends := s.sends + 1 })
    else
      (bytes.length, { s with
        credit := s.credit + if triggers (wireCmd bytes) then 1 else 0
        sends := s.sends + 1 })
  reply s :=
    match s.queue, s.credit with
    | packet :: rest, credit + 1 => (some packet, { s with queue := rest, credit })
    | _, _ => (none, s)
  stale := stale

variable {triggers : UInt32 → Bool} {fails : Nat → Bool} {stale : Source → Mem} {host : Host Source}
  {tf : TfHandle (Source × List Event)} {s : Source} {log : List Event}

theorem tfSend_source (triggers : UInt32 → Bool) (fails : Nat → Bool) (stale : Source → Mem)
    (host : Host Source) {req : Mem} (htriggers : triggers (wireCmd (tfSendBytes req)) = true)
    (hdev : tf.dev = true) (husb : tf.usb = (s, log)) (hfails : fails s.sends = false) :
    tfSend ((source triggers fails stale).env host).logged tf req =
      ⟨tfErrNone, { tf with
        error := tfErrNone
        usb := (⟨s.queue, s.credit + 1, s.sends + 1⟩,
          log ++ [.wrote (tfSendBytes req) (tfSendBytes req).length]) }⟩ := by
  have hreceive : (source triggers fails stale).receive s (tfSendBytes req) =
      (((tfSendBytes req).length : Int), ⟨s.queue, s.credit + 1, s.sends + 1⟩) := by
    simp only [source, hfails, Bool.false_eq_true, if_false, htriggers, if_true]
  rw [tfSend_peer _ host _ hdev husb hreceive, if_pos rfl]

theorem tfSendSuccess_source (htriggers : triggers tfMsgSuccess = true) (hdev : tf.dev = true)
    (husb : tf.usb = (s, log)) (hfails : fails s.sends = false) :
    tfSendSuccess ((source triggers fails stale).env host).logged tf =
      ⟨tfErrNone, { tf with
        error := tfErrNone
        usb := (⟨s.queue, s.credit + 1, s.sends + 1⟩, log ++ [.wrote successPacket 8]) }⟩ := by
  rw [← wireCmd_success, ← tfSendBytes_success] at htriggers
  rw [tfSendSuccess, tfSend_source _ _ _ _ htriggers hdev husb hfails, tfSendBytes_success]
  rfl

theorem tfSendSuccess_source_failed (hdev : tf.dev = true) (husb : tf.usb = (s, log))
    (hfails : fails s.sends = true) :
    tfSendSuccess ((source triggers fails stale).env host).logged tf =
      ⟨tfErrIo, { tf with
        error := tfErrIo
        usb := ({ s with sends := s.sends + 1 }, log ++ [.wrote successPacket (-1)]) }⟩ := by
  have hreceive : (source triggers fails stale).receive s successPacket =
      (-1, { s with sends := s.sends + 1 }) := by
    simp only [source, hfails, if_true]
  rw [← tfSendBytes_success] at hreceive
  have hlength : (-1 : Int) ≠ (tfSendBytes (Mem.ofList successPacket)).length := by omega
  rw [tfSendSuccess, tfSend_peer _ host _ hdev husb hreceive, if_neg hlength, tfSendBytes_success]

theorem tfGetResponse_source (triggers : UInt32 → Bool) (fails : Nat → Bool) (stale : Source → Mem)
    (host : Host Source) (reply : Mem) {packet : Packet} {rest : List Packet} {credit : Nat}
    (hdev : tf.dev = true) (husb : tf.usb = (s, log)) (hqueue : s.queue = packet :: rest)
    (hcredit : s.credit = credit + 1) :
    ∃ out tf' ret content,
      tfGetResponse ((source triggers fails stale).env host).logged tf reply =
        { ret := tfErrNone, tf := tf', out } ∧
      Received out packet.cmd packet.payload ∧ tf'.dev = true ∧ tf'.pending = tf.pending ∧
      tf'.usb = (⟨rest, credit, s.sends⟩, log ++ [.read ret content]) := by
  have hreply : (source triggers fails stale).reply s = (some packet, ⟨rest, credit, s.sends⟩) := by
    simp only [source, hqueue, hcredit]
  obtain ⟨ret, content, out, hgot, hreceived⟩ := tfGetResponse_peer _ host reply hdev husb hreply
  exact ⟨out, _, ret, content, hgot, hreceived, hdev, rfl, rfl⟩

/-! ### A device with a script -/

/-- A device that sends its packets one by one, whatever it receives. -/
abbrev scripted (stale : Source → Mem) : Peer Source := source (fun _ => true) (fun _ => false) stale

theorem tfSend_scripted (stale : Source → Mem) (host : Host Source) {rest : List Packet} (req : Mem)
    (hdev : tf.dev = true) (hqueue : tf.usb.1.queue = rest) :
    let sent := tfSend ((scripted stale).env host).logged tf req
    sent.ret = 0 ∧ sent.tf.dev = true ∧ sent.tf.usb.1.queue = rest ∧ 0 < sent.tf.usb.1.credit := by
  rw [tfSend_source _ _ _ _ rfl hdev rfl rfl]
  exact ⟨rfl, hdev, hqueue, Nat.succ_pos _⟩

theorem tfGetResponse_scripted (stale : Source → Mem) (host : Host Source) {packet : Packet}
    {rest : List Packet} (reply : Mem) (hdev : tf.dev = true)
    (hqueue : tf.usb.1.queue = packet :: rest) (hcredit : 0 < tf.usb.1.credit) :
    let got := tfGetResponse ((scripted stale).env host).logged tf reply
    got.ret = 0 ∧ Received got.out packet.cmd packet.payload ∧ got.tf.dev = true ∧
      got.tf.usb.1.queue = rest := by
  obtain ⟨credit, hcredit'⟩ := Nat.exists_eq_add_of_lt hcredit
  rw [Nat.zero_add] at hcredit'
  obtain ⟨out, tf', ret, content, hgot, hreceived, hdev', -, husb⟩ :=
    tfGetResponse_source (fun _ => true) (fun _ => false) stale host reply hdev rfl hqueue hcredit'
  rw [hgot]
  exact ⟨rfl, hreceived, hdev', by rw [husb]⟩

/-- A request and its response, the next packet of the script. -/
theorem exchange_scripted (stale : Source → Mem) (host : Host Source) {packet : Packet}
    {rest : List Packet} (req reply : Mem) (hdev : tf.dev = true) (hqueue : tf.usb.1.queue = packet :: rest) :
    let sent := tfSend ((scripted stale).env host).logged tf req
    let got := tfGetResponse ((scripted stale).env host).logged sent.tf reply
    sent.ret = 0 ∧ got.ret = 0 ∧ Received got.out packet.cmd packet.payload ∧ got.tf.dev = true ∧
      got.tf.usb.1.queue = rest := by
  obtain ⟨hsent, hdev', hqueue', hcredit⟩ :=
    tfSend_scripted stale host req hdev hqueue
  exact ⟨hsent, tfGetResponse_scripted stale host reply hdev' hqueue' hcredit⟩

end Topfield
