import Topfield.Mjd
import Topfield.Request

/-!
# Commands

The public operations of `tf_io.c`. Each takes the handle and returns the result with the handle after
it; an output parameter is passed in with what it held before. Requests are built in a local
`tf_packet_t` that starts with whatever the stack held.
-/

namespace Topfield

open Lib

/-- The value of an unsigned 32-bit expression stored in an `int`. -/
def toInt32 (n : UInt32) : Int := n.toBitVec.toInt

/-- `-get_u32(reply.data)` as an `int`: the result reported for a FAIL packet. -/
def failCode (reply : Mem) : Int := toInt32 (-getU32 reply 8)

/-! ### File descriptors

`tf_typefile_t`: `stamp` at 0, `filetype` at 5, `size` at 6, `name` at 14, `unused` at 109 and `attrib`
at 110. -/

abbrev sizeofTypefile : Nat := 114

abbrev typeDir : UInt8 := 1
abbrev typeFile : UInt8 := 2

/-- An entry, its name up to the first zero. `spill` is what the copy of a long name has left behind the
entry. -/
structure TfDirent where
  stamp : Int
  type : UInt8
  size : UInt64
  name : List UInt8
  attrib : UInt32
  spill : List UInt8

/-- An entry with others behind it, which are written over what its name has spilled. -/
def TfDirent.alone (entry : TfDirent) : TfDirent := { entry with spill := [] }

/-- The bytes from `a` to the first zero byte, looking at `fuel` bytes at most. -/
def cString (m : Mem) (a : Nat) : Nat → List UInt8
  | 0 => []
  | fuel + 1 => if m a = 0 then [] else m a :: cString m (a + 1) fuel

theorem load_one {m : Mem} {a : Nat} {v : UInt8} (h : m.load a 1 = [v]) : m a = v :=
  (List.cons.inj h).1

theorem cString_eq {m : Mem} {a : Nat} {bytes : List UInt8} {fuel : Nat} (hnul : 0 ∉ bytes)
    (h : m.load a (bytes ++ [0]).length = bytes ++ [0]) (hfuel : bytes.length < fuel) :
    cString m a fuel = bytes := by
  induction bytes generalizing a fuel with
  | nil =>
    obtain ⟨fuel, rfl⟩ := Nat.exists_eq_succ_of_ne_zero (Nat.ne_of_gt hfuel)
    rw [cString, if_pos (load_one h)]
  | cons c rest ih =>
    obtain ⟨fuel, rfl⟩ := Nat.exists_eq_succ_of_ne_zero (Nat.ne_of_gt (Nat.zero_lt_of_lt hfuel))
    obtain ⟨hc, hrest⟩ := List.cons.inj h
    have hne : m a ≠ 0 := by
      rw [hc]
      exact fun hzero => hnul (by simp [hzero])
    rw [cString, if_neg hne, ih (fun hmem => hnul (List.mem_cons_of_mem _ hmem)) hrest
      (Nat.lt_of_succ_lt_succ hfuel), hc]

structure TfSizeResult where
  totalk : UInt32
  freek : UInt32

abbrev maxDirEntries : Nat := 595

structure TfDirEntries where
  count : Int
  entry : Nat → TfDirent

/-- The data is a pointer into the handle's buffer, kept as an index. -/
structure TfBuffer where
  offset : UInt64
  size : Nat
  data : Nat

abbrev maxPutSize : Nat := 0xFFFF - 8 - 9

abbrev maxGetSize : Nat := 0xFFFF - 8

variable {σ : Type} (e : Env σ)

/-- The `name` that is read after `copied` has been copied to it. `attrib` lies 96 bytes behind its start and
is stored later, so a longer name is cut there and goes on with what is not zero of `attrib`. -/
def direntName (copied : List UInt8) (attrib : UInt32) : List UInt8 :=
  if copied.length < 96 then copied
  else copied.take 96 ++ (toLE 4 attrib.toNat).takeWhile fun b => b ≠ 0

theorem direntName_of_lt {copied : List UInt8} (h : copied.length < 96) (attrib : UInt32) :
    direntName copied attrib = copied :=
  if_pos h

/-- Unpack the descriptor at `a` in a packet. The name is copied up to its terminator, wherever in the
packet that is. -/
def unpackDirent (m : Mem) (a : Nat) : TfDirent :=
  let copied := cString m (a + 14) (sizeofPacket - (a + 14))
  let attrib := (getU16 m (a + 110)).toUInt32
  { stamp := tfdtToTime e m a
    type := if m (a + 5) = typeDir then 0x64 else 0x66
    size := getU64 m (a + 6)
    name := direntName copied attrib
    attrib
    spill := copied.drop 96 }

/-! ### Synchronous commands -/

/-- Send the command and wait for a SUCCESS response. -/
def tfCmd (tf : TfHandle σ) (req : Mem) : Call σ :=
  let sent := tfSend e tf req
  if sent.ret = 0 then
    let got := tfGetResponse e sent.tf (e.stack sent.tf.usb)
    if got.ret = 0 then
      if packetCmd got.out = tfMsgFail then
        ⟨failCode got.out, { got.tf with error := failCode got.out }⟩
      else if packetCmd got.out ≠ tfMsgSuccess then
        ⟨tfErrUnexpected, { got.tf with error := tfErrUnexpected }⟩
      else got.toCall
    else got.toCall
  else sent

/-- Build a request on the stack and run it as a command. -/
def runRequest (tf : TfHandle σ) (r : Request) : Call σ := tfCmd e tf (r.build (e.stack tf.usb))

def tfCmdCancel (tf : TfHandle σ) : Call σ := runRequest e tf .cancel

def tfCmdReady (tf : TfHandle σ) : Call σ := runRequest e tf .ready

def tfCmdReset (tf : TfHandle σ) : Call σ := runRequest e tf .reset

def tfCmdTurbo (tf : TfHandle σ) (on : Int) : Call σ := runRequest e tf (.turbo on)

def tfCmdDelete (tf : TfHandle σ) (path : CString) : Call σ := runRequest e tf (.delete path)

def tfCmdMkdir (tf : TfHandle σ) (path : CString) : Call σ := runRequest e tf (.mkdir path)

def tfCmdRename (tf : TfHandle σ) (src dest : CString) : Call σ := runRequest e tf (.rename src dest)

def tfCmdSize (tf : TfHandle σ) (result : TfSizeResult) : CallOut σ TfSizeResult :=
  let sent := tfSend e tf (Request.hddSize.build (e.stack tf.usb))
  if sent.ret = 0 then
    let got := tfGetResponse e sent.tf (e.stack sent.tf.usb)
    if got.ret = 0 then
      if packetCmd got.out = tfMsgHddSizeResult then
        { got.toCall with out := ⟨getU32 got.out 8, getU32 got.out 12⟩ }
      else
        { ret := tfErrUnexpected, tf := got.tf, out := result }
    else { got.toCall with out := result }
  else { sent with out := result }

/-! ### Asynchronous commands -/

def successPacket : List UInt8 := [0x08, 0x00, 0x81, 0xc1, 0x00, 0x00, 0x02, 0x00]

def tfSendSuccess (tf : TfHandle σ) : Call σ := tfSend e tf (Mem.ofList successPacket)

def tfSendFail (tf : TfHandle σ) (reason : Int) : Call σ :=
  tfSend e tf ((Request.fail reason).build (e.stack tf.usb))

def tfInit (tf : TfHandle σ) : Call σ :=
  let first := tfCmdCancel e tf
  if first.ret = 0 then ⟨0, first.tf⟩ else
  let second := tfCmdCancel e first.tf
  if second.ret = 0 then ⟨0, second.tf⟩ else
  let failed := tfSendFail e second.tf 2
  let succeeded := tfSendSuccess e failed.tf
  let ready := tfCmdReady e succeeded.tf
  if ready.ret = 0 then ⟨0, ready.tf⟩ else
  let last := tfCmdCancel e ready.tf
  if last.ret = 0 then ⟨0, last.tf⟩ else
  ⟨-1, last.tf⟩

/-! ### Directory listings -/

/-- The number of records `get_dirents` takes a packet to hold: the difference is an `int`, the division
is done in `size_t` and the quotient is stored in an `int`. -/
def direntCount (reply : Mem) : Int :=
  toInt32 (UInt32.ofNat (sizeT ((packetLength reply).toNat - 8) / sizeofTypefile))

theorem toInt32_ofNat {n : Nat} (h : n < 2 ^ 31) : toInt32 (UInt32.ofNat n) = n := by
  have hn : (UInt32.ofNat n).toBitVec.toNat = n := by
    show (UInt32.ofNat n).toNat = n
    rw [UInt32.toNat_ofNat']
    omega
  rw [toInt32, BitVec.toInt_eq_toNat_of_lt (by omega), hn]

/-- Where the announced length covers the header, the count is the number of whole records after it. -/
theorem direntCount_eq {reply : Mem} (h : 8 ≤ (packetLength reply).toNat) :
    direntCount reply = (((packetLength reply).toNat - 8) / sizeofTypefile : Nat) := by
  have hlt := (packetLength reply).toNat_lt
  have hsize : sizeT ((packetLength reply).toNat - 8) = (packetLength reply).toNat - 8 := by
    rw [sizeT]
    omega
  rw [direntCount, hsize, toInt32_ofNat ((Nat.div_le_self _ _).trans_lt (by omega))]

/-- The loop over the records: `entry[i]` from record `i`, for the first `n`. -/
def unpackEntries (reply : Mem) (n : Nat) (entry : Nat → TfDirent) : Nat → TfDirent :=
  fun i => if i < n then (unpackDirent e reply (8 + sizeofTypefile * i)).alone else entry i

def getDirents (tf : TfHandle σ) (result : TfDirEntries) : CallOut σ TfDirEntries :=
  let got := tfGetResponse e tf (e.stack tf.usb)
  if got.ret = 0 then
    if packetCmd got.out = tfMsgHddDirent then
      let count := direntCount got.out
      { got.toCall with out := ⟨count, unpackEntries e got.out count.toNat result.entry⟩ }
    else if packetCmd got.out = tfMsgHddDirend then
      { ret := tfErrDone, tf := (tfSendSuccess e got.tf).tf, out := result }
    else
      { ret := tfErrUnexpected, tf := got.tf, out := result }
  else { got.toCall with out := result }

def tfCmdDirFirst (tf : TfHandle σ) (path : CString) (result : TfDirEntries) :
    CallOut σ TfDirEntries :=
  let sent := tfSend e tf ((Request.dir path).build (e.stack tf.usb))
  if sent.ret = 0 then getDirents e sent.tf result else { sent with out := result }

def tfCmdDirNext (tf : TfHandle σ) (result : TfDirEntries) : CallOut σ TfDirEntries :=
  let sent := tfSendSuccess e tf
  if sent.ret = 0 then getDirents e sent.tf result else { sent with out := result }

def tfCmdDirCancel (tf : TfHandle σ) : Call σ := tfCmdCancel e tf

/-! ### Putting a file -/

/-- The descriptor `tf_cmd_put` fills in on the stack: `size` and `attrib` are stored as the host
stores them, the rest of the name stays as it was. -/
def putTypefile (path : CString) (size : UInt64) (stamp : Int) (typefile : Mem) : Typefile :=
  let typefile := timeToTfdt e stamp typefile 0
  let typefile := typefile.set 5 typeFile
  let typefile := typefile.store 6 (toLE 8 size.toNat)
  let typefile := typefile.store 14 (path.bytes.take 94 ++ [0])
  let typefile := typefile.set 109 0
  let typefile := typefile.store 110 (toLE 4 0)
  ⟨typefile.load 0 sizeofTypefile, Mem.length_load _ _ _⟩

def tfCmdPut (tf : TfHandle σ) (path : CString) (size : UInt64) (stamp : Int) (offset : UInt64) :
    Call σ :=
  let req := (Request.filePut path offset).build (e.stack tf.usb)
  let sent := tfSend e tf req
  if sent.ret = 0 then
    let got := tfGetResponse e sent.tf (e.stack sent.tf.usb)
    if got.ret = 0 then
      if packetCmd got.out = tfMsgSuccess then
        let typefile := putTypefile e path size stamp (e.stack got.tf.usb)
        let started := tfSend e got.tf ((Request.fileStart typefile).build req)
        if started.ret = 0 then
          let answer := tfGetResponse e started.tf got.out
          if answer.ret = 0 ∧ packetCmd answer.out ≠ tfMsgSuccess then
            ⟨tfErrUnexpected, answer.tf⟩
          else answer.toCall
        else started
      else if packetCmd got.out = tfMsgFail then
        ⟨failCode got.out, got.tf⟩
      else
        ⟨tfErrUnexpected, got.tf⟩
    else got.toCall
  else sent

/-- The reply is waited for twice as long as usual. -/
def tfCmdPutData (tf : TfHandle σ) (offset : UInt64) (buffer : List UInt8) : Call σ :=
  let sent := tfSend e tf ((Request.fileData offset buffer).build (e.stack tf.usb))
  if sent.ret = 0 then
    let timeout := sent.tf.timeout
    let got := tfGetResponse e { sent.tf with timeout := timeout * 2 } (e.stack sent.tf.usb)
    let tf := { got.tf with timeout := timeout }
    if got.ret = 0 then
      if packetCmd got.out ≠ tfMsgSuccess then ⟨tfErrUnexpected, tf⟩ else ⟨got.ret, tf⟩
    else ⟨got.ret, tf⟩
  else sent

def tfCmdPutDone (tf : TfHandle σ) : Call σ :=
  let sent := tfSend e tf (Request.fileEnd.build (e.stack tf.usb))
  if sent.ret = 0 then
    let got := tfGetResponse e sent.tf (e.stack sent.tf.usb)
    let ret := if got.ret = 0 ∧ packetCmd got.out ≠ tfMsgSuccess then tfErrUnexpected else got.ret
    if ret ≠ 0 then ⟨ret, (tfCmdCancel e got.tf).tf⟩ else ⟨ret, got.tf⟩
  else sent

def tfCmdPutCancel (tf : TfHandle σ) : Call σ := tfCmdCancel e (tfCmdCancel e tf).tf

/-! ### Getting a file -/

def tfCmdGet (tf : TfHandle σ) (path : CString) (offset : UInt64) (dirent : TfDirent) :
    CallOut σ TfDirent :=
  let sent := tfSend e tf ((Request.fileGet path offset).build (e.stack tf.usb))
  if sent.ret = 0 then
    let got := tfGetResponse e sent.tf (e.stack sent.tf.usb)
    if got.ret = 0 then
      if packetCmd got.out = tfMsgHddFileStart then
        { got.toCall with out := unpackDirent e got.out 8 }
      else if packetCmd got.out = tfMsgFail then
        { ret := failCode got.out, tf := got.tf, out := dirent }
      else
        { ret := tfErrUnexpected, tf := got.tf, out := dirent }
    else { got.toCall with out := dirent }
  else { sent with out := dirent }

/-- The piece of the file in a FILE_DATA packet. -/
def dataChunk (reply : Mem) : TfBuffer := ⟨getU64 reply 8, (packetLength reply - 16).toNat, 16⟩

/-- What `tf_cmd_get_next` does once its acknowledgement has been sent or was not needed. -/
def getNextReply (tf : TfHandle σ) (buf : TfBuffer) : CallOut σ TfBuffer :=
  let got := tfGetResponse e tf tf.buf
  let tf := { got.tf with buf := got.out }
  if got.ret = 0 then
    if packetCmd got.out = tfMsgHddFileEnd then
      { ret := tfErrDone, tf := (tfSendSuccess e tf).tf, out := buf }
    else if packetCmd got.out = tfMsgHddFileData then
      -- acknowledged right away, and remembered if that worked
      let ack := tfSendSuccess e tf
      let tf := if ack.ret = 0 then { ack.tf with pending := 1 } else ack.tf
      { ret := 0, tf, out := dataChunk got.out }
    else if packetCmd got.out = tfMsgFail then
      { ret := tfErrIo, tf, out := buf }
    else
      { ret := tfErrUnexpected, tf, out := buf }
  else { ret := got.ret, tf, out := buf }

def tfCmdGetNext (tf : TfHandle σ) (buf : TfBuffer) : CallOut σ TfBuffer :=
  let entry := if tf.pending = 0 then tfSendSuccess e tf else ⟨0, tf⟩
  let tf := { entry.tf with pending := 0 }
  let next := if entry.ret = 0 then getNextReply e tf buf else { ret := entry.ret, tf, out := buf }
  { next with tf := { next.tf with error := next.ret } }

/-- The rounds of `tf_cmd_get_cancel`, `n` of them at most, after one that returned `ret`. -/
def getCancelRounds (tf : TfHandle σ) (ret : Int) : Nat → Call σ
  | 0 => ⟨ret, tf⟩
  | n + 1 =>
    let failed := tfSendFail e tf tfErrCrc
    let cancelled := tfCmdCancel e failed.tf
    if cancelled.ret = 0 then cancelled else
    let got := tfGetResponse e cancelled.tf (e.stack cancelled.tf.usb)
    if got.ret = 0 then got.toCall else getCancelRounds got.tf got.ret n

def tfCmdGetCancel (tf : TfHandle σ) : Call σ :=
  let tf :=
    if tf.pending ≠ 0 then
      (tfGetResponse e { tf with pending := 0 } (e.stack tf.usb)).tf
    else tf
  getCancelRounds e tf 0 5

end Topfield
