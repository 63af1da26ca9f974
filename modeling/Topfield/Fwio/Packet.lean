import Topfield.Bytes
import Topfield.Handle

/-!
# Firmware packets

`tf_fwio.c` speaks the protocol of the boot loader. A packet is "ToFi", a sequence number, a command, the
length of the data and the data, with a checksum behind it; nothing is exchanged for the wire. A packet is
sent in pieces of `MAX_SEND_SIZE` bytes at most.
-/

namespace Topfield

open Lib

def clear (m : Mem) (n : Nat) : Mem := fun i => if i < n then 0 else m i

namespace Fwio

abbrev maxSendSize : Nat := 0x4000
abbrev packetHeadSize : Nat := 8
abbrev maxDataSize : Nat := 0x8000

/-- One byte more than the data for the checksum. -/
abbrev sizeofPacket : Nat := packetHeadSize + (maxDataSize + 1)

/-! ### Command codes -/

abbrev tfFwPcToStb : UInt8 := 0x01
abbrev tfFwId : UInt8 := 0x02
abbrev tfFwReqData : UInt8 := 0x04
abbrev tfFwData : UInt8 := 0x05
abbrev tfFwEnd : UInt8 := 0x06

/-! `tf_packet_t`: `tofi` at 0, `seq` at 4, `cmd` at 5, `length` at 6, `data` at 8. -/

abbrev tofi : List UInt8 := [0x54, 0x6F, 0x46, 0x69]

abbrev packetSeq (m : Mem) : UInt8 := m 4

abbrev packetCmd (m : Mem) : UInt8 := m 5

/-- The length while it is kept in host order. -/
def packetLength (m : Mem) : UInt16 := UInt16.ofNat (ofLE (m.load 6 2))

def setPacketLength (m : Mem) (len : UInt16) : Mem := m.store 6 (toLE 2 len.toNat)

/-! ### Building a request -/

def tfReqInit (req : Mem) (cmd seq : UInt8) : Mem :=
  let req := clear req sizeofPacket
  let req := req.store 0 tofi
  let req := req.set 5 cmd
  req.set 4 seq

def calcChecksum (buf : List UInt8) : UInt8 := buf.foldl (fun sum b => sum + b) 0

def tfReqDone (req : Mem) : Mem :=
  let len := packetLength req
  let req := putU16 req 6 len
  req.set (8 + len.toNat) (calcChecksum (req.load 4 (len.toNat + 4)))

def tfReqPutdata (req : Mem) (data : List UInt8) : Mem :=
  let req := req.store (8 + (packetLength req).toNat) data
  setPacketLength req (packetLength req + UInt16.ofNat data.length)

/-! ### Sending -/

/-- The number of bytes sent for a finished request. -/
def tfSendLen (req : Mem) : Nat :=
  let len := packetHeadSize + (getU16 req 6).toNat + 1
  let pad := if len % 2 ≠ 0 then 1 else 0
  -- the device does not like multiples of 0x200, but the maximum is sent as it is
  let pad := if (len + pad) % 0x200 = 0 ∧ pad + len ≠ maxSendSize then pad + 2 else pad
  len + pad

variable {σ : Type} (e : Env σ)

/-- The loop of `tf_send`, with `len` bytes left at `data`. -/
def sendLoop (tf : TfHandle σ) (req : Mem) (data len : Nat) : TfHandle σ :=
  let tosend := if maxSendSize < len then maxSendSize else len
  let w := e.write tf.usb 0x01 tf.timeout (req.load data tosend)
  let tf := { tf with usb := w.2 }
  if w.1 ≠ tosend then
    { tf with error := -1 }
  else if len - tosend ≠ 0 then
    sendLoop tf req (data + tosend) (len - tosend)
  else
    tf
termination_by len
decreasing_by
  rename_i _ hleft
  simp only [tosend, maxSendSize] at hleft ⊢
  split_ifs at hleft ⊢ <;> omega

def tfSend (tf : TfHandle σ) (req : Mem) : Call σ :=
  let tf :=
    if tf.dev then sendLoop e { tf with error := 0 } req 0 (tfSendLen req) else { tf with error := -2 }
  ⟨tf.error, tf⟩

/-! ### Receiving -/

/-- The error that `tf_get_response` finds for the number of bytes received. -/
def checkResponse (ret : Int) (reply : Mem) : Int :=
  if ret < packetHeadSize then -1
  else
    let len := getU16 reply 6
    if ret < len.toNat then -1 else 0

def tfGetResponse (tf : TfHandle σ) (reply : Mem) : CallOut σ Mem :=
  if tf.dev then
    let r := e.read tf.usb 0x82 tf.timeout sizeofPacket
    let error := checkResponse r.1.1 r.1.2
    { ret := error, tf := { tf with error := error, usb := r.2 }, out := r.1.2 }
  else
    { ret := -2, tf := { tf with error := -2 }, out := reply }

end Fwio

end Topfield
