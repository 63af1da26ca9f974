import Topfield.Fwio.Session

/-!
# Delivering firmware

The boot loader decides which blocks of the firmware it wants and in which order. The caller sends it block by
block until it says that it has all, and what it has then is the firmware.
-/

namespace Topfield

open Lib

namespace Fwio

abbrev tfFwRebootCode : UInt8 := 0x0B

section Code

variable {σ : Type} (e : Env σ)

def tfFwReboot (tf : TfHandle σ) : Call σ :=
  tfSend e tf (tfReqDone (tfReqInit (e.stack tf.usb) tfFwRebootCode 0))

/-- A caller sends each block that it is asked for, as long as the calls return 0, and `n` blocks at most. -/
def uploadBlocks (image : Mem) (tf : TfHandle σ) (fwData : TfFwData) : Nat → CallOut σ TfFwData
  | 0 => { ret := 0, tf, out := fwData }
  | n + 1 =>
    let next := tfFwUploadNext e tf (image.load fwData.offset.toNat fwData.len.toNat) fwData
    if next.ret = 0 then uploadBlocks image next.tf next.out n else next

def uploadFirmware (image : Mem) (tf : TfHandle σ) (fwData : TfFwData) (n : Nat) : CallOut σ TfFwData :=
  let first := tfFwUpload e tf fwData
  if first.ret = 0 then uploadBlocks e image first.tf first.out n else first

end Code

/-! ### The boot loader -/

/-- A block that the boot loader asks for. -/
structure BlockRequest where
  seq : UInt8
  offset : Nat
  len : Nat
  offset_lt : offset < 2 ^ 24
  len_le : len ≤ maxDataSize

namespace BlockRequest

def packet (r : BlockRequest) : List UInt8 := packetImage tfFwReqData r.seq (toBE 2 r.len ++ toBE 3 r.offset)

def fwData (r : BlockRequest) : TfFwData := ⟨r.seq.toUInt32, UInt32.ofNat r.len, UInt64.ofNat r.offset⟩

def Covers (r : BlockRequest) (a : Nat) : Prop := r.offset ≤ a ∧ a < r.offset + r.len

instance (r : BlockRequest) (a : Nat) : Decidable (r.Covers a) := inferInstanceAs (Decidable (_ ∧ _))

end BlockRequest

/-- What the boot loader waits for: to be started, to be asked what it wants, or a block. -/
inductive Awaits
  | hello
  | turn
  | block (r : BlockRequest)

/-- The boot loader: what was written to it since it was last read from, what it waits for, the blocks that it will
ask for after that, and its memory. -/
structure BootState where
  input : List UInt8
  awaits : Awaits
  script : List BlockRequest
  flash : Mem

namespace BootState

def ask (s : BootState) (flash : Mem) : Option (List UInt8) × BootState :=
  match s.script with
  | [] => (some (packetImage tfFwEnd 0 []), ⟨[], .hello, [], flash⟩)
  | r :: rest => (some r.packet, ⟨[], .block r, rest, flash⟩)

/-- What it answers to the packet at the start of its input, if that is the one that it waits for. -/
def answer (s : BootState) : Option (List UInt8) × BootState :=
  match s.awaits with
  | .hello =>
    if s.input.take 9 = packetImage tfFwPcToStb 0 [] then
      (some (packetImage tfFwId 0 []), ⟨[], .turn, s.script, s.flash⟩)
    else (none, s)
  | .turn => s.ask s.flash
  | .block r =>
    let data := (s.input.drop 8).take r.len
    if s.input.take (9 + r.len) = packetImage tfFwData r.seq data then s.ask (s.flash.store r.offset data)
    else (none, s)

def receive (s : BootState) (bytes : List UInt8) : BootState := { s with input := s.input ++ bytes }

end BootState

def found : Option (List UInt8) → Int × Mem
  | none => (-1, fun _ => 0)
  | some packet => (packet.length, Mem.ofList packet)

def loader (host : Host BootState) : Env BootState where
  toHost := host
  write s _ _ bytes := (bytes.length, s.receive bytes)
  read s _ _ _ := (found s.answer.1, s.answer.2)

variable {host : Host BootState} {tf : TfHandle BootState}

/-! ### Sending to it -/

theorem receive_append (s : BootState) (bytes more : List UInt8) :
    (s.receive bytes).receive more = s.receive (bytes ++ more) := by
  simp only [BootState.receive, List.append_assoc]

theorem sendLoop_loader (tf : TfHandle BootState) (req : Mem) (data len : Nat) :
    sendLoop (loader host) tf req data len = { tf with usb := tf.usb.receive (req.load data len) } := by
  fun_induction sendLoop (loader host) tf req data len with
  | case1 tf data len tosend w tf' h =>
    exact absurd (congrArg Int.ofNat (Mem.length_load req data tosend)) h
  | case2 tf data len tosend w tf' h hleft ih =>
    have hsplit : len = tosend + (len - tosend) := by omega
    rw [ih, hsplit, Mem.load_add, Nat.add_sub_cancel_left, ← receive_append]
    rfl
  | case3 tf data len tosend w tf' h hleft =>
    have hall : tosend = len := by
      have hle : tosend ≤ len := by
        show (if maxSendSize < len then maxSendSize else len) ≤ len
        split_ifs <;> omega
      omega
    show { tf with usb := tf.usb.receive (req.load data tosend) } = _
    rw [hall]

theorem tfSend_loader (req : Mem) (hdev : tf.dev = true) :
    tfSend (loader host) tf req =
      ⟨0, { tf with error := 0, usb := tf.usb.receive (req.load 0 (tfSendLen req)) }⟩ := by
  simp only [tfSend]
  rw [if_pos hdev, sendLoop_loader]

/-! ### Packets -/

theorem load_ofList_packetImage (cmd seq : UInt8) (data : List UInt8) :
    (Mem.ofList (packetImage cmd seq data)).load 0 (9 + data.length) = packetImage cmd seq data := by
  have hself := Mem.load_ofList_self (packetImage cmd seq data)
  rwa [length_packetImage] at hself

theorem data_packetImage (cmd seq : UInt8) (data : List UInt8) :
    ((packetImage cmd seq data).drop 8).take data.length = data := by
  have hsplit : packetImage cmd seq data = (tofi ++ ([seq, cmd] ++ toBE 2 data.length)) ++
      (data ++ [checksum (packetBody cmd seq data)]) := by
    simp only [packetImage, packetBody, List.append_assoc]
  have hhead : (tofi ++ ([seq, cmd] ++ toBE 2 data.length)).length = 8 := by
    simp only [List.length_append, List.length_cons, List.length_nil, length_toBE]
  rw [hsplit, List.drop_left' hhead, List.take_left' rfl]

theorem take_sent {req : Mem} {cmd seq : UInt8} {data : List UInt8}
    (himage : req.load 0 (9 + data.length) = packetImage cmd seq data) (hdata : data.length < 2 ^ 16) :
    (req.load 0 (tfSendLen req)).take (9 + data.length) = packetImage cmd seq data := by
  obtain ⟨pad, -, hload⟩ := load_sent himage hdata
  rw [hload, List.take_left' (length_packetImage cmd seq data)]

theorem take_sent_header (req : Mem) (cmd seq : UInt8) :
    ((tfReqDone (tfReqInit req cmd seq)).load 0 (tfSendLen (tfReqDone (tfReqInit req cmd seq)))).take 9 =
      packetImage cmd seq [] :=
  @take_sent _ cmd seq [] (load_header_image req cmd seq) (by decide)

/-! ### Receiving from it -/

theorem tfGetResponse_loader {s' : BootState} {cmd seq : UInt8} {data : List UInt8} (reply : Mem)
    (hdev : tf.dev = true) (hdata : data.length < 2 ^ 16)
    (hanswer : tf.usb.answer = (some (packetImage cmd seq data), s')) :
    tfGetResponse (loader host) tf reply =
      { ret := 0, tf := { tf with error := 0, usb := s' }, out := Mem.ofList (packetImage cmd seq data) } := by
  have hread : (loader host).read tf.usb 0x82 tf.timeout sizeofPacket =
      ((((packetImage cmd seq data).length : Int), Mem.ofList (packetImage cmd seq data)), s') := by
    show (found tf.usb.answer.1, tf.usb.answer.2) = _
    rw [hanswer]
    rfl
  have hlength := (says_of_image (load_ofList_packetImage cmd seq data) hdata).length
  have hchecked : checkResponse (packetImage cmd seq data).length (Mem.ofList (packetImage cmd seq data)) = 0 := by
    simp only [checkResponse, length_packetImage, packetHeadSize, hlength]
    rw [if_neg (by omega), if_neg (by omega)]
  simp only [tfGetResponse]
  rw [if_pos hdev, hread]
  simp only [hchecked]

theorem tfWaitForReqData_loader {s : BootState} (flash : Mem) (fwData : TfFwData) (hdev : tf.dev = true)
    (hanswer : tf.usb.answer = s.ask flash) :
    tfWaitForReqData (loader host) tf fwData =
      { ret := if s.script = [] then 1 else 0
        tf := { tf with error := 0, usb := (s.ask flash).2 }
        out := (s.script.head?.map BlockRequest.fwData).getD fwData } := by
  cases hscript : s.script with
  | nil =>
    have hend : s.ask flash = (some (packetImage tfFwEnd 0 []), ⟨[], .hello, [], flash⟩) := by
      rw [BootState.ask, hscript]
    have hcontents := says_of_image (load_ofList_packetImage tfFwEnd 0 []) (by decide)
    rw [hend] at hanswer ⊢
    rw [tfWaitForReqData, tfGetResponse_loader _ hdev (by decide) hanswer]
    simp only [hcontents.cmd]
    rfl
  | cons r rest =>
    have hask : s.ask flash = (some r.packet, ⟨[], .block r, rest, flash⟩) := by
      rw [BootState.ask, hscript]
    have hlt : (toBE 2 r.len ++ toBE 3 r.offset).length < 2 ^ 16 := by
      rw [List.length_append, length_toBE, length_toBE]
      decide
    have hcontents := says_of_image (load_ofList_packetImage tfFwReqData r.seq (toBE 2 r.len ++ toBE 3 r.offset)) hlt
    rw [hask] at hanswer ⊢
    rw [tfWaitForReqData, tfGetResponse_loader _ hdev hlt hanswer]
    generalize Mem.ofList (packetImage tfFwReqData r.seq (toBE 2 r.len ++ toBE 3 r.offset)) = m at *
    obtain ⟨hlen, hoffset⟩ := Mem.load_split hcontents.data
    rw [length_toBE] at hlen
    rw [length_toBE, length_toBE] at hoffset
    have hlen' : (getU16 m 8).toUInt32 = UInt32.ofNat r.len := by
      have hle : r.len ≤ 0x8000 := r.len_le
      apply UInt32.toNat_inj.mp
      rw [UInt16.toNat_toUInt32, getU16_toNat, hlen, ofBE_toBE, UInt32.toNat_ofNat']
      omega
    have hoffset' : (getU24 m 10).toUInt64 = UInt64.ofNat r.offset := by
      have hlt := r.offset_lt
      apply UInt64.toNat_inj.mp
      rw [UInt32.toNat_toUInt64, getU24_toNat, hoffset, ofBE_toBE, UInt64.toNat_ofNat']
      omega
    simp only [hcontents.cmd, hcontents.seq, hlen', hoffset']
    rfl

/-! ### The calls -/

theorem answer_block {s : BootState} {r : BlockRequest} {data : List UInt8} (hawaits : s.awaits = .block r)
    (hdata : data.length = r.len) (hinput : s.input.take (9 + r.len) = packetImage tfFwData r.seq data) :
    s.answer = s.ask (s.flash.store r.offset data) := by
  have hsent : (s.input.drop 8).take r.len = data := by
    have hdrop := congrArg (fun bytes => (bytes.drop 8).take r.len) hinput
    have hcut : min r.len (9 + r.len - 8) = r.len := by omega
    simp only [List.drop_take, List.take_take, hcut] at hdrop
    rw [hdrop, ← hdata]
    exact data_packetImage tfFwData r.seq data
  rw [BootState.answer, hawaits]
  simp only [hsent]
  exact if_pos hinput

theorem tfFwUploadNext_loader (host : Host BootState) {r : BlockRequest} {script : List BlockRequest}
    {flash : Mem} {data : List UInt8} (hdev : tf.dev = true) (husb : tf.usb = ⟨[], .block r, script, flash⟩)
    (hdata : data.length = r.len) :
    tfFwUploadNext (loader host) tf data r.fwData =
      { ret := if script = [] then 1 else 0
        tf := { tf with error := 0, usb := (tf.usb.ask (flash.store r.offset data)).2 }
        out := (script.head?.map BlockRequest.fwData).getD r.fwData } := by
  have hle : data.length ≤ maxDataSize := hdata ▸ r.len_le
  have hseq : r.fwData.seq.toUInt8 = r.seq := UInt8.toUInt8_toUInt32 r.seq
  have himage := take_sent (load_buildPacket ((loader host).stack tf.usb) tfFwData r.seq hle)
    (hle.trans_lt (by decide))
  rw [tfFwUploadNext, if_neg (Nat.not_lt.mpr hle)]
  simp only [hseq]
  rw [← buildPacket]
  generalize buildPacket ((loader host).stack tf.usb) tfFwData r.seq data = req at *
  rw [tfSend_loader req hdev, if_neg (not_not.mpr rfl)]
  generalize req.load 0 (tfSendLen req) = bytes at *
  have hanswer : (tf.usb.receive bytes).answer = tf.usb.ask (flash.store r.offset data) := by
    rw [husb]
    exact answer_block rfl hdata (hdata ▸ himage)
  have hwait : tfWaitForReqData (loader host) { tf with error := 0, usb := tf.usb.receive bytes } r.fwData = _ :=
    tfWaitForReqData_loader (flash.store r.offset data) r.fwData hdev hanswer
  refine hwait.trans ?_
  rw [husb]

theorem tfFwUpload_loader (host : Host BootState) {script : List BlockRequest} {flash : Mem} (fwData : TfFwData)
    (hdev : tf.dev = true) (husb : tf.usb = ⟨[], .hello, script, flash⟩) :
    tfFwUpload (loader host) tf fwData =
      { ret := if script = [] then 1 else 0
        tf := { tf with error := 0, usb := (tf.usb.ask flash).2 }
        out := (script.head?.map BlockRequest.fwData).getD fwData } := by
  have himage := take_sent_header ((loader host).stack tf.usb) tfFwPcToStb 0
  rw [tfFwUpload]
  generalize tfReqDone (tfReqInit ((loader host).stack tf.usb) tfFwPcToStb 0) = req at *
  simp only [tfSend_loader req hdev]
  generalize req.load 0 (tfSendLen req) = bytes at *
  have hanswer : (tf.usb.receive bytes).answer = (some (packetImage tfFwId 0 []), ⟨[], .turn, script, flash⟩) := by
    rw [husb]
    exact if_pos himage
  have hid : tfGetResponse (loader host) { tf with error := 0, usb := tf.usb.receive bytes }
      ((loader host).stack (tf.usb.receive bytes)) = _ := tfGetResponse_loader _ hdev (by decide) hanswer
  have hcontents := says_of_image (load_ofList_packetImage tfFwId 0 []) (by decide)
  rw [if_pos trivial, hid, if_neg (by simp [hcontents.cmd])]
  have hwait : tfWaitForReqData (loader host) { tf with error := 0, usb := ⟨[], .turn, script, flash⟩ } fwData = _ :=
    tfWaitForReqData_loader (s := ⟨[], .turn, script, flash⟩) flash fwData hdev rfl
  refine hwait.trans ?_
  rw [husb]
  rfl

def written (image : Mem) (script : List BlockRequest) (flash : Mem) : Mem :=
  script.foldl (fun flash r => flash.store r.offset (image.load r.offset r.len)) flash

theorem offset_fwData (r : BlockRequest) : r.fwData.offset.toNat = r.offset := by
  have hlt := r.offset_lt
  show (UInt64.ofNat r.offset).toNat = r.offset
  rw [UInt64.toNat_ofNat']
  omega

theorem len_fwData (r : BlockRequest) : r.fwData.len.toNat = r.len := by
  have hle : r.len ≤ 0x8000 := r.len_le
  show (UInt32.ofNat r.len).toNat = r.len
  rw [UInt32.toNat_ofNat']
  omega

structure Delivered (call : CallOut BootState TfFwData) (flash : Mem) : Prop where
  ret : call.ret = 1
  dev : call.tf.dev = true
  usb : call.tf.usb = ⟨[], .hello, [], flash⟩

theorem uploadBlocks_loader (image : Mem) {r : BlockRequest} {script : List BlockRequest} {flash : Mem}
    (hdev : tf.dev = true) (husb : tf.usb = ⟨[], .block r, script, flash⟩) {n : Nat} (hn : script.length < n) :
    Delivered (uploadBlocks (loader host) image tf r.fwData n) (written image (r :: script) flash) := by
  induction script generalizing tf r flash n with
  | nil =>
    obtain ⟨n, rfl⟩ := Nat.exists_eq_succ_of_ne_zero (Nat.ne_of_gt (Nat.zero_lt_of_lt hn))
    have hnext := tfFwUploadNext_loader host hdev husb (Mem.length_load image r.offset r.len)
    simp only [uploadBlocks, offset_fwData, len_fwData, hnext]
    rw [husb]
    exact ⟨rfl, hdev, rfl⟩
  | cons r' rest ih =>
    obtain ⟨n, rfl⟩ := Nat.exists_eq_succ_of_ne_zero (Nat.ne_of_gt (Nat.zero_lt_of_lt hn))
    have hnext := tfFwUploadNext_loader host hdev husb (Mem.length_load image r.offset r.len)
    simp only [uploadBlocks, offset_fwData, len_fwData, hnext]
    rw [husb]
    apply ih
    · exact hdev
    · rfl
    · exact Nat.lt_of_succ_lt_succ hn

theorem uploadFirmware_loader (image : Mem) {script : List BlockRequest} {flash : Mem} (fwData : TfFwData)
    (hdev : tf.dev = true) (husb : tf.usb = ⟨[], .hello, script, flash⟩) {n : Nat} (hn : script.length ≤ n) :
    Delivered (uploadFirmware (loader host) image tf fwData n) (written image script flash) := by
  have hfirst := tfFwUpload_loader host fwData hdev husb
  cases script with
  | nil =>
    simp only [uploadFirmware, hfirst]
    rw [husb]
    exact ⟨rfl, hdev, rfl⟩
  | cons r rest =>
    simp only [uploadFirmware, hfirst]
    rw [husb]
    apply uploadBlocks_loader
    · exact hdev
    · rfl
    · exact hn

theorem store_block (image flash : Mem) (r : BlockRequest) (a : Nat) :
    flash.store r.offset (image.load r.offset r.len) a = if r.Covers a then image a else flash a := by
  by_cases hcovers : r.Covers a
  · obtain ⟨hlow, hhigh⟩ := hcovers
    have hinside : a - r.offset < (image.load r.offset r.len).length := by
      rw [Mem.length_load]
      omega
    rw [if_pos ⟨hlow, hhigh⟩, Mem.store_inside flash hlow hinside, Mem.getElem_load, Nat.add_sub_cancel' hlow]
  · rw [if_neg hcovers]
    refine if_neg fun hinside => hcovers ?_
    rwa [Mem.length_load] at hinside

theorem written_apply (image : Mem) (script : List BlockRequest) (flash : Mem) (a : Nat) :
    written image script flash a = if ∃ r ∈ script, r.Covers a then image a else flash a := by
  induction script generalizing flash with
  | nil => exact (if_neg (by simp)).symm
  | cons r rest ih =>
    have hcons : written image (r :: rest) flash =
        written image rest (flash.store r.offset (image.load r.offset r.len)) := rfl
    have hiff : (∃ r' ∈ r :: rest, r'.Covers a) ↔ r.Covers a ∨ ∃ r' ∈ rest, r'.Covers a := by
      simp only [List.exists_mem_cons_iff]
    rw [hcons, ih, store_block]
    by_cases hrest : ∃ r' ∈ rest, r'.Covers a
    · rw [if_pos hrest, if_pos (hiff.mpr (.inr hrest))]
    · rw [if_neg hrest]
      exact if_congr (hiff.trans (or_iff_left hrest)).symm rfl rfl

/-! ### The firmware arrives -/

theorem tfFwReboot_loader (hdev : tf.dev = true) (husb : tf.usb.input = []) :
    (tfFwReboot (loader host) tf).ret = 0 ∧
      (tfFwReboot (loader host) tf).tf.usb.input.take 9 = packetImage tfFwRebootCode 0 [] := by
  have himage := take_sent_header ((loader host).stack tf.usb) tfFwRebootCode 0
  rw [tfFwReboot, tfSend_loader _ hdev]
  refine ⟨rfl, ?_⟩
  show ((tf.usb.input ++ _).take 9) = _
  rwa [husb, List.nil_append]

/-- **Delivery.** Whatever blocks the boot loader asks for, in whatever order, the caller is told in the end that
it has all of them, its memory then holds the firmware in those places and is unchanged in all others, and it can
be told to restart. -/
theorem firmware_delivered (host : Host BootState) (image flash : Mem) (script : List BlockRequest)
    (tf : TfHandle BootState) (fwData : TfFwData) (more : Nat) :
    let start : TfHandle BootState := { tf with dev := true, usb := ⟨[], .hello, script, flash⟩ }
    let final := uploadFirmware (loader host) image start fwData (script.length + more)
    final.ret = 1 ∧
      (∀ a, final.tf.usb.flash a = if ∃ r ∈ script, r.Covers a then image a else flash a) ∧
      (tfFwReboot (loader host) final.tf).ret = 0 ∧
      (tfFwReboot (loader host) final.tf).tf.usb.input.take 9 = packetImage tfFwRebootCode 0 [] := by
  intro start final
  have hdelivered : Delivered final (written image script flash) :=
    uploadFirmware_loader image fwData rfl rfl (Nat.le_add_right _ _)
  have hinput : final.tf.usb.input = [] := by rw [hdelivered.usb]
  refine ⟨hdelivered.ret, fun a => ?_, tfFwReboot_loader hdelivered.dev hinput⟩
  rw [hdelivered.usb]
  exact written_apply image script flash a

/-- Two blocks, the one behind the other asked for first. -/
def twoBlocks : List BlockRequest := [⟨7, 2, 2, by decide, by decide⟩, ⟨8, 0, 2, by decide, by decide⟩]

def blankFlash : TfHandle BootState := TfHandle.opened ⟨[], .hello, twoBlocks, fun _ => 0xFF⟩ fun _ => 0

/-- Both end up in their places. -/
theorem firmware_delivered_two_blocks :
    let final := uploadFirmware (loader (Host.blank BootState)) (Mem.ofList [1, 2, 3, 4, 5]) blankFlash ⟨0, 0, 0⟩ 2
    final.ret = 1 ∧ final.tf.usb.flash.load 0 6 = [1, 2, 3, 4, 0xFF, 0xFF] := by
  obtain ⟨hret, hflash, -⟩ := firmware_delivered (Host.blank BootState) (Mem.ofList [1, 2, 3, 4, 5])
    (fun _ => 0xFF) twoBlocks blankFlash ⟨0, 0, 0⟩ 0
  refine ⟨hret, ?_⟩
  exact (congrArg (fun flash => Mem.load flash 0 6) (funext hflash)).trans (by decide)

end Fwio

end Topfield
