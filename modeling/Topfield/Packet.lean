import Topfield.Bytes
import Topfield.Crc16
import Topfield.Handle

/-!
# Packets

The bottom layer of `tf_io.c`: a request is built in a `tf_packet_t` with its length in host order,
finished by filling in the checksum and exchanging its bytes, and sent; a reply is received, checked and
exchanged back. The structure is packed, so a packet is the memory from its first byte on, with `length`
at 0, `crc` at 2, `cmd` at 4, `data` at 8 and `dummy` at `0xFFFF`. The host is little-endian.
-/

namespace Topfield

open Lib

abbrev maximumPacketSize : Nat := 0xFFFF

abbrev packetHeadSize : Nat := 8

/-- `sizeof(tf_packet_t)`, the dummy byte included. -/
abbrev sizeofPacket : Nat := 0x10000

/-- A string of the C library: the bytes before its terminator. -/
structure CString where
  bytes : List UInt8
  nulFree : 0 ∉ bytes
deriving DecidableEq

def CString.strlen (str : CString) : Nat := str.bytes.length

/-- The value of a C `int` as a `size_t`. -/
def sizeT (n : Int) : Nat := (n % 2 ^ 64).toNat

/-! ### Command codes -/

abbrev tfMsgFail : UInt32 := 0x0001
abbrev tfMsgSuccess : UInt32 := 0x0002
abbrev tfMsgCancel : UInt32 := 0x0003
abbrev tfMsgReady : UInt32 := 0x0100
abbrev tfMsgReset : UInt32 := 0x0101
abbrev tfMsgTurbo : UInt32 := 0x0102
abbrev tfMsgHddSize : UInt32 := 0x1000
abbrev tfMsgHddSizeResult : UInt32 := 0x1001
abbrev tfMsgHddDir : UInt32 := 0x1002
abbrev tfMsgHddDirent : UInt32 := 0x1003
abbrev tfMsgHddDirend : UInt32 := 0x1004
abbrev tfMsgHddDelete : UInt32 := 0x1005
abbrev tfMsgHddRename : UInt32 := 0x1006
abbrev tfMsgHddMkdir : UInt32 := 0x1007
abbrev tfMsgHddFileSend : UInt32 := 0x1008
abbrev tfMsgHddFileStart : UInt32 := 0x1009
abbrev tfMsgHddFileData : UInt32 := 0x100A
abbrev tfMsgHddFileEnd : UInt32 := 0x100B

/-! ### Fields in host order -/

def packetLength (m : Mem) : UInt16 := UInt16.ofNat (ofLE (m.load 0 2))

def setPacketLength (m : Mem) (len : UInt16) : Mem := m.store 0 (toLE 2 len.toNat)

def setPacketCrc (m : Mem) (crc : UInt16) : Mem := m.store 2 (toLE 2 crc.toNat)

def packetCmd (m : Mem) : UInt32 := UInt32.ofNat (ofLE (m.load 4 4))

def setPacketCmd (m : Mem) (cmd : UInt32) : Mem := m.store 4 (toLE 4 cmd.toNat)

/-! ### Building a request -/

def tfReqInit (req : Mem) (cmd : UInt32) : Mem :=
  let req := setPacketLength req 8
  let req := setPacketCrc req 0
  let req := putU32 req 4 cmd
  req.set 0xFFFF 0

/-- The `crc16_ansi` calls cover the packet from `cmd` on; this is the `int` they pass as the size. -/
def crcSize (len : UInt16) : Int := len.toNat - 4

def tfReqDone (req : Mem) : Mem :=
  let len := packetLength req
  let req := putU16 req 0 len
  let req := putU16 req 2 (crc16Ansi 0 (req.offset 4) (sizeT (crcSize len)))
  if len.toNat % 2 = 1 then
    byteSwap (req.set len.toNat 0) (len.toNat + 1)
  else
    byteSwap req len.toNat

def tfReqPut8 (req : Mem) (value : UInt8) : Mem :=
  let req := req.set (packetLength req).toNat value
  setPacketLength req (packetLength req + 1)

def tfReqPut16 (req : Mem) (value : UInt16) : Mem :=
  let req := putU16 req (packetLength req).toNat value
  setPacketLength req (packetLength req + 2)

def tfReqPut32 (req : Mem) (value : UInt32) : Mem :=
  let req := putU32 req (packetLength req).toNat value
  setPacketLength req (packetLength req + 4)

def tfReqPut64 (req : Mem) (value : UInt64) : Mem :=
  let req := putU64 req (packetLength req).toNat value
  setPacketLength req (packetLength req + 8)

def tfReqPutdata (req : Mem) (data : List UInt8) : Mem :=
  let req := req.store (packetLength req).toNat data
  setPacketLength req (packetLength req + UInt16.ofNat data.length)

/-- Forward slashes are translated to backslashes. -/
def translateSlash (c : UInt8) : UInt8 := if c = 0x2F then 0x5C else c

/-- Write a filename with its terminator, possibly preceded by a two-byte length and padded to an even
boundary. -/
def tfReqPutfilename (req : Mem) (str : CString) (addlength : Bool) : Mem :=
  -- the length is an `int`, counted down to zero; past its range the count wraps
  let len := (str.strlen + 1) % 2 ^ 32
  let pad := (len + (packetLength req).toNat) % 2
  let req := if addlength then tfReqPut16 req (UInt16.ofNat (len + pad)) else req
  let req := ((str.bytes ++ [0]).take len).foldl (fun req c => tfReqPut8 req (translateSlash c)) req
  if pad = 1 then tfReqPut8 req 0 else req

/-! ### Sending -/

/-- The number of bytes sent for a finished request. -/
def tfSendLen (req : Mem) : Nat :=
  let len := (getU16Raw req 0).toNat
  if len % 64 = 0 then
    -- multiple-of-64 packets run into a protocol bug of the device
    len + 2
  else if len % 2 = 1 then
    len + 1
  else
    len

def tfSendBytes (req : Mem) : List UInt8 := req.load 0 (tfSendLen req)

variable {σ : Type} (e : Env σ)

def tfSend (tf : TfHandle σ) (req : Mem) : Call σ :=
  if tf.dev then
    let w := e.write tf.usb 0x01 tf.timeout (tfSendBytes req)
    let error := if w.1 = tfSendLen req then tfErrNone else tfErrIo
    ⟨error, { tf with error := error, usb := w.2 }⟩
  else
    ⟨tfErrNoconn, { tf with error := tfErrNoconn }⟩

/-! ### Receiving -/

/-- The announced length of a reply, once the two checks on the received count have passed. -/
def responseLength (ret : Int) (reply : Mem) : Option UInt16 :=
  if ret < packetHeadSize then
    none
  else
    let len := getU16Raw reply 0
    if ret < len.toNat then none else some len

/-- What `tf_get_response` does with the received bytes: the error, and the packet made readable. -/
def checkResponse (nocrc : Int) (ret : Int) (reply : Mem) : Int × Mem :=
  match responseLength ret reply with
  | none => (tfErrIo, reply)
  | some len =>
    -- an extra byte is swapped if the length is odd
    let reply := byteSwap reply (len.toNat + len.toNat % 2)
    let error :=
      if nocrc = 0 then
        let crc := getU16 reply 2
        let calcCrc := crc16Ansi 0 (reply.offset 4) (sizeT (crcSize len))
        if crc ≠ calcCrc then tfErrCrc else tfErrNone
      else tfErrNone
    let reply := setPacketLength reply len
    let reply := setPacketCmd reply (getU32 reply 4)
    (error, reply)

def tfGetResponse (tf : TfHandle σ) (reply : Mem) : CallOut σ Mem :=
  let tf := { tf with error := 0 }
  if tf.dev then
    let r := e.read tf.usb 0x82 tf.timeout sizeofPacket
    let checked := checkResponse tf.nocrc r.1.1 r.1.2
    { ret := checked.1, tf := { tf with error := checked.1, usb := r.2 }, out := checked.2 }
  else
    { ret := tfErrNoconn, tf := { tf with error := tfErrNoconn }, out := reply }

end Topfield
