import Topfield.Cancelling
import Topfield.Filenames
import Topfield.Lib.Loop
import Topfield.Lib.Strings
import Topfield.Listing
import Topfield.Makename
import Topfield.Overflow

/-!
# Looking up a path

`tf_stat` lists the directory before the last slash of a path, packet by packet, until an entry has the name
behind that slash. A listing that is left early has to be cancelled; one that has been read to its end is
acknowledged and must not be.
-/

namespace Topfield

open Lib

variable {σ : Type}

/-! ### The function -/

/-- The entry that is made up for the root directory. -/
def rootDirent : TfDirent where
  stamp := 0
  type := 0x64
  size := 0
  name := [slash]
  attrib := 0
  spill := []

/-- The directory before the slash at `pt`, which is the root if there is nothing before it. -/
def parentOf (path : CString) (pt : Nat) : CString where
  bytes := if pt = 0 then [slash] else path.bytes.take pt
  nulFree := by
    split
    · decide
    · exact fun h => path.nulFree (List.mem_of_mem_take h)

/-- The parent directory of a path, and the name in it. -/
def splitPath (path : CString) : Option (CString × List UInt8) :=
  match strrchr path.bytes slash with
  | some pt => some (parentOf path pt, path.bytes.drop (pt + 1))
  | none => none

/-- The first of the entries with the name. -/
def findEntry (entries : TfDirEntries) (name : List UInt8) : Option TfDirent :=
  entries.listed.find? fun entry => entry.name = name

/-- A turn of the loop, after a call that has listed some entries or has not. The loop ends with the entry
that is found, or when there is nothing to go through. -/
def statTurn (e : Env σ) (name : List UInt8) (dirent : TfDirent) (call : CallOut σ TfDirEntries) :
    Option (CallOut σ TfDirent) :=
  if call.ret = 0 then
    match findEntry call.out name with
    | some entry => some { ret := 0, tf := (tfCmdDirCancel e call.tf).tf, out := entry }
    | none => none
  else some { ret := 1, tf := call.tf, out := dirent }

def dirNext (e : Env σ) (call : CallOut σ TfDirEntries) : CallOut σ TfDirEntries :=
  tfCmdDirNext e call.tf call.out

/-- `entries` is the local variable as it is found on the stack. The listing can be endless, and the function
has a result if `fuel` calls are enough. -/
def tfStat (e : Env σ) (fuel : Nat) (tf : TfHandle σ) (path : CString) (entries : TfDirEntries)
    (dirent : TfDirent) : Option (CallOut σ TfDirent) :=
  if path.bytes = [slash] then some { ret := 0, tf, out := rootDirent }
  else
    match splitPath path with
    | none => some { ret := 1, tf, out := dirent }
    | some (parent, name) =>
      loop (statTurn e name dirent) (dirNext e) fuel (tfCmdDirFirst e tf parent entries)

theorem splitPath_eq {path : CString} {before name : List UInt8}
    (hpath : path.bytes = before ++ slash :: name) (hname : slash ∉ name) :
    ∃ parent, splitPath path = some (parent, name) ∧
      parent.bytes = if before = [] then [slash] else before := by
  have hpt : strrchr path.bytes slash = some before.length := by
    rw [hpath]
    exact strrchr_append before hname
  have hdrop : path.bytes.drop (before.length + 1) = name := by
    rw [hpath, ← List.singleton_append, ← List.append_assoc]
    exact List.drop_left' (by simp)
  have htake : path.bytes.take before.length = before := by
    rw [hpath]
    exact List.take_left' rfl
  refine ⟨parentOf path before.length, ?_, ?_⟩
  · simp only [splitPath, hpt, hdrop]
  · simp only [parentOf, htake, List.length_eq_zero_iff]

/-! ### What is said on the wire -/

/-- A transfer to the device, or the command of a reply that was accepted. -/
inductive Message
  | sent (bytes : List UInt8)
  | got (cmd : UInt32)
deriving DecidableEq

def message (nocrc : Int) : Event → Option Message
  | .wrote bytes _ => some (.sent bytes)
  | .read ret content => (acceptedReply nocrc (.read ret content)).map fun reply => .got (packetCmd reply)

def messages (nocrc : Int) (log : List Event) : List Message := log.filterMap (message nocrc)

theorem messages_append (nocrc : Int) (log more : List Event) :
    messages nocrc (log ++ more) = messages nocrc log ++ messages nocrc more :=
  List.filterMap_append

theorem messages_accepted {nocrc : Int} {ev : Event} {reply : Mem} (h : acceptedReply nocrc ev = some reply) :
    messages nocrc [ev] = [.got (packetCmd reply)] := by
  cases ev with
  | wrote bytes ret => exact absurd h (by simp [acceptedReply])
  | read ret content => simp [messages, message, h]

/-- Nothing but replies. -/
def Message.IsGot : Message → Prop
  | .sent _ => False
  | .got _ => True

theorem messages_read (nocrc ret : Int) (content : Mem) :
    (messages nocrc [.read ret content]).length ≤ 1 ∧ ∀ m ∈ messages nocrc [.read ret content], m.IsGot := by
  cases hreply : acceptedReply nocrc (.read ret content) with
  | none => simp [messages, message, hreply]
  | some reply =>
    rw [messages_accepted hreply]
    exact ⟨le_rfl, fun m hm => List.mem_singleton.mp hm ▸ trivial⟩

theorem tfCmd_messages (e : Env σ) (nocrc : Int) {tf : TfHandle (σ × List Event)} (req : Mem)
    (hdev : tf.dev = true) :
    ∃ answer, answer.length ≤ 1 ∧ (∀ m ∈ answer, Message.IsGot m) ∧
      messages nocrc (tfCmd e.logged tf req).tf.usb.2 =
        messages nocrc tf.usb.2 ++ (.sent (tfSendBytes req) :: answer) := by
  rcases hwrite : e.write tf.usb.1 0x01 tf.timeout (tfSendBytes req) with ⟨n, s⟩
  have hsent := tfSend_logged e req hdev hwrite
  have hlog : messages nocrc (tfSend e.logged tf req).tf.usb.2 =
      messages nocrc tf.usb.2 ++ [.sent (tfSendBytes req)] := by
    rw [hsent, messages_append]
    rfl
  have hdev' : (tfSend e.logged tf req).tf.dev = true := by
    rw [hsent]
    exact hdev
  simp only [tfCmd]
  generalize tfSend e.logged tf req = sent at *
  rcases hread : e.read sent.tf.usb.1 0x82 sent.tf.timeout sizeofPacket with ⟨⟨ret, content⟩, s'⟩
  have hgot := tfGetResponse_logged e (e.logged.stack sent.tf.usb) hdev' hread
  obtain ⟨hone, hreplies⟩ := messages_read nocrc ret content
  have hanswer : messages nocrc (tfGetResponse e.logged sent.tf (e.logged.stack sent.tf.usb)).tf.usb.2 =
      messages nocrc tf.usb.2 ++ (.sent (tfSendBytes req) :: messages nocrc [.read ret content]) := by
    rw [hgot, messages_append, hlog, List.append_assoc, List.singleton_append]
  generalize tfGetResponse e.logged sent.tf (e.logged.stack sent.tf.usb) = got at *
  split_ifs
  · exact ⟨_, hone, hreplies, hanswer⟩
  · exact ⟨_, hone, hreplies, hanswer⟩
  · exact ⟨_, hone, hreplies, hanswer⟩
  · exact ⟨_, hone, hreplies, hanswer⟩
  · exact ⟨[], Nat.zero_le 1, fun m hm => absurd hm List.not_mem_nil, hlog⟩

/-! ### The device -/

/-- The device of a listing. What it does with a CANCEL, and so what it answers to it, is left open. -/
def statSource (onCancel : Source → Int × Source) (stale : Source → Mem) : Peer Source where
  receive s bytes :=
    if wireCmd bytes = tfMsgCancel then onCancel s else (listingSource stale).receive s bytes
  reply := (listingSource stale).reply
  stale := stale

/-- `packets` are still to come, the first `credit` of them are owed, and `said` has been said. -/
structure Serving (packets : List Packet) (credit : Nat) (nocrc : Int) (said : List Message)
    (tf : TfHandle (Source × List Event)) : Prop where
  dev : tf.dev = true
  queue : tf.usb.1.queue = packets
  credit : tf.usb.1.credit = credit
  said : messages nocrc tf.usb.2 = said
  nocrc : tf.nocrc = nocrc

variable {packets : List Packet} {nocrc : Int} {said : List Message} {tf : TfHandle (Source × List Event)}

theorem serving_tfSend (onCancel : Source → Int × Source) (stale : Source → Mem) (host : Host Source)
    {req : Mem} (hcmd : wireCmd (tfSendBytes req) = tfMsgHddDir ∨ wireCmd (tfSendBytes req) = tfMsgSuccess)
    (h : Serving packets 0 nocrc said tf) :
    let sent := tfSend ((statSource onCancel stale).env host).logged tf req
    sent.ret = 0 ∧ Serving packets 1 nocrc (said ++ [.sent (tfSendBytes req)]) sent.tf := by
  intro sent
  have hcancel : wireCmd (tfSendBytes req) ≠ tfMsgCancel := by
    rcases hcmd with hcmd | hcmd
    · rw [hcmd]
      decide
    · rw [hcmd]
      decide
  have hreceive : (statSource onCancel stale).receive tf.usb.1 (tfSendBytes req) =
      (((tfSendBytes req).length : Int), ⟨packets, 1, tf.usb.1.sends + 1⟩) := by
    simp only [statSource, if_neg hcancel, source, Bool.false_eq_true, if_false, decide_eq_true hcmd, if_true,
      h.queue, h.credit]
  simp only [sent]
  rw [tfSend_peer _ host req h.dev rfl hreceive, if_pos rfl]
  refine ⟨rfl, h.dev, rfl, rfl, ?_, h.nocrc⟩
  rw [messages_append, h.said]
  rfl

theorem serving_tfGetResponse (onCancel : Source → Int × Source) (stale : Source → Mem) (host : Host Source)
    (reply : Mem) {packet : Packet} (h : Serving (packet :: packets) 1 nocrc said tf) :
    let got := tfGetResponse ((statSource onCancel stale).env host).logged tf reply
    got.ret = 0 ∧ Received got.out packet.cmd packet.payload ∧
      Serving packets 0 nocrc (said ++ [.got packet.cmd]) got.tf := by
  intro got
  have hreply : (statSource onCancel stale).reply tf.usb.1 = (some packet, ⟨packets, 0, tf.usb.1.sends⟩) := by
    simp only [statSource, source, h.queue, h.credit]
  obtain ⟨ret, content, out, hgot, hreceived⟩ :=
    tfGetResponse_peer (statSource onCancel stale) host reply h.dev rfl hreply
  have hret : got.ret = 0 := by
    simp only [got, hgot]
  have hnext := nextResponse_eq_ite ((statSource onCancel stale).env host).logged tf reply
  rcases tfGetResponse_cases ((statSource onCancel stale).env host) tf reply with
    ⟨-, herror⟩ | ⟨m, ev, hlate, -, haccepted, hlog⟩
  · exact absurd hret herror
  · rw [hlate, if_pos hret, hgot] at hnext
    obtain rfl := Option.some.inj hnext
    have hsaid : messages nocrc got.tf.usb.2 = said ++ [.got packet.cmd] := by
      rw [h.nocrc] at haccepted
      rw [hlog, messages_append, h.said, messages_accepted haccepted, hreceived.cmd]
    refine ⟨hret, ?_, ?_, ?_, ?_, hsaid, ?_⟩
    · simp only [got, hgot]
      exact hreceived
    · simp only [got, hgot]
      exact h.dev
    · simp only [got, hgot]
    · simp only [got, hgot]
    · simp only [got, hgot]
      exact h.nocrc

/-! ### The calls -/

theorem serving_getDirents_batch (onCancel : Source → Int × Source) (stale : Source → Mem)
    (host : Host Source) {batch : Batch} (result : TfDirEntries)
    (h : Serving (batch.packet :: packets) 1 nocrc said tf) :
    let e := ((statSource onCancel stale).env host).logged
    let call := getDirents e tf result
    call.ret = 0 ∧ call.out.listed = batch.entries.map (Entry.dirent e) ∧
      Serving packets 0 nocrc (said ++ [.got tfMsgHddDirent]) call.tf := by
  intro e call
  obtain ⟨hret, hreceived, hserving⟩ := serving_tfGetResponse onCancel stale host (e.stack tf.usb) h
  have hcmd : packetCmd (tfGetResponse e tf (e.stack tf.usb)).out = tfMsgHddDirent := hreceived.cmd
  have hlisted := listed_received e result.entry hreceived
  simp only [call, getDirents]
  rw [if_pos hret, if_pos hcmd]
  exact ⟨hret, hlisted, hserving⟩

theorem serving_getDirents_end (onCancel : Source → Int × Source) (stale : Source → Mem) (host : Host Source)
    (result : TfDirEntries) (h : Serving (direndPacket :: packets) 1 nocrc said tf) :
    let call := getDirents ((statSource onCancel stale).env host).logged tf result
    call.ret ≠ 0 ∧
      messages nocrc call.tf.usb.2 = said ++ [.got tfMsgHddDirend, .sent successPacket] := by
  intro call
  obtain ⟨hret, hreceived, hserving⟩ := serving_tfGetResponse onCancel stale host
    (((statSource onCancel stale).env host).logged.stack tf.usb) h
  have hsuccess : wireCmd (tfSendBytes (Mem.ofList successPacket)) = tfMsgSuccess := by
    rw [tfSendBytes_success, wireCmd_success]
  obtain ⟨-, hsent⟩ := serving_tfSend onCancel stale host (.inr hsuccess) hserving
  have hdirent : direndPacket.cmd ≠ tfMsgHddDirent := by decide
  have hdone : tfErrDone ≠ 0 := by decide
  rw [tfSendBytes_success, List.append_assoc] at hsent
  simp only [call, getDirents]
  rw [if_pos hret, hreceived.cmd, if_neg hdirent, if_pos (show direndPacket.cmd = tfMsgHddDirend from rfl)]
  exact ⟨hdone, hsent.said⟩

theorem serving_dirNext (onCancel : Source → Int × Source) (stale : Source → Mem) (host : Host Source)
    {call : CallOut (Source × List Event) TfDirEntries} (h : Serving packets 0 nocrc said call.tf) :
    let e := ((statSource onCancel stale).env host).logged
    ∃ tf', dirNext e call = getDirents e tf' call.out ∧
      Serving packets 1 nocrc (said ++ [.sent successPacket]) tf' := by
  intro e
  have hsuccess : wireCmd (tfSendBytes (Mem.ofList successPacket)) = tfMsgSuccess := by
    rw [tfSendBytes_success, wireCmd_success]
  obtain ⟨hret, hsent⟩ := serving_tfSend onCancel stale host (.inr hsuccess) h
  rw [tfSendBytes_success] at hsent
  exact ⟨_, if_pos hret, hsent⟩

/-! ### The loop -/

/-- `k` packets of entries, each of them acknowledged. -/
def listedMessages (k : Nat) : List Message :=
  (List.replicate k [.got tfMsgHddDirent, .sent successPacket]).flatten

/-- How a look-up of `name` in a listing ends. When the entry is found the listing is cancelled, after the
packet it is in and with whatever answer; otherwise the end of the listing has been acknowledged. -/
def LookedUp (e : Env (Source × List Event)) (batches : List Batch) (name : List UInt8) (dirent : TfDirent)
    (nocrc : Int) (said : List Message) (call : CallOut (Source × List Event) TfDirent) : Prop :=
  match (batches.flatMap Batch.entries).find? fun entry => entry.name.bytes = name with
  | some entry => call.ret = 0 ∧ call.out = entry.dirent e ∧
      ∃ k < batches.length, ∃ answer, answer.length ≤ 1 ∧ (∀ m ∈ answer, Message.IsGot m) ∧
        messages nocrc call.tf.usb.2 =
          said ++ (listedMessages k ++ ([.got tfMsgHddDirent, .sent cancelTransfer] ++ answer))
  | none => call.ret = 1 ∧ call.out = dirent ∧
      messages nocrc call.tf.usb.2 =
        said ++ (listedMessages batches.length ++ [.got tfMsgHddDirend, .sent successPacket])

theorem listedMessages_succ (k : Nat) :
    listedMessages (k + 1) = [.got tfMsgHddDirent, .sent successPacket] ++ listedMessages k := by
  rw [listedMessages, List.replicate_succ, List.flatten_cons]
  rfl

/-- A packet without the entry comes before the rest of the listing. -/
theorem LookedUp.cons {e : Env (Source × List Event)} {batch : Batch} {batches : List Batch}
    {name : List UInt8} {dirent : TfDirent} {call : CallOut (Source × List Event) TfDirent}
    (hbatch : batch.entries.find? (fun entry => entry.name.bytes = name) = none)
    (h : LookedUp e batches name dirent nocrc (said ++ [.got tfMsgHddDirent, .sent successPacket]) call) :
    LookedUp e (batch :: batches) name dirent nocrc said call := by
  unfold LookedUp at h ⊢
  rw [List.flatMap_cons, List.find?_append, hbatch, Option.none_or]
  cases hfound : (batches.flatMap Batch.entries).find? fun entry => entry.name.bytes = name with
  | some entry =>
    rw [hfound] at h
    obtain ⟨hret, hout, k, hk, answer, hone, hgot, hsaid⟩ := h
    refine ⟨hret, hout, k + 1, Nat.succ_lt_succ hk, answer, hone, hgot, ?_⟩
    rw [hsaid, listedMessages_succ, List.append_assoc, List.append_assoc]
  | none =>
    rw [hfound] at h
    obtain ⟨hret, hout, hsaid⟩ := h
    refine ⟨hret, hout, ?_⟩
    rw [hsaid, List.length_cons, listedMessages_succ, List.append_assoc, List.append_assoc]

theorem loop_lookedUp (onCancel : Source → Int × Source) (stale : Source → Mem) (host : Host Source)
    (batches : List Batch) (name : List UInt8) (dirent : TfDirent) {fuel : Nat}
    (hfuel : batches.length < fuel) (result : TfDirEntries) (h : Serving (direntPackets batches) 1 nocrc said tf) :
    let e := ((statSource onCancel stale).env host).logged
    ∃ call, loop (statTurn e name dirent) (dirNext e) fuel (getDirents e tf result) = some call ∧
      LookedUp e batches name dirent nocrc said call := by
  intro e
  induction batches generalizing fuel tf said result with
  | nil =>
    obtain ⟨fuel, rfl⟩ := Nat.exists_eq_succ_of_ne_zero (Nat.ne_of_gt (Nat.zero_lt_of_lt hfuel))
    obtain ⟨hret, hsaid⟩ := serving_getDirents_end onCancel stale host result h
    have hturn : statTurn e name dirent (getDirents e tf result) =
        some { ret := 1, tf := (getDirents e tf result).tf, out := dirent } := if_neg hret
    refine ⟨{ ret := 1, tf := (getDirents e tf result).tf, out := dirent }, ?_, rfl, rfl, hsaid⟩
    rw [loop, hturn]
  | cons batch batches ih =>
    obtain ⟨fuel, rfl⟩ := Nat.exists_eq_succ_of_ne_zero (Nat.ne_of_gt (Nat.zero_lt_of_lt hfuel))
    obtain ⟨hret, hlisted, hserving⟩ := serving_getDirents_batch onCancel stale host result h
    have hfind : findEntry (getDirents e tf result).out name =
        (batch.entries.find? fun entry => entry.name.bytes = name).map (Entry.dirent e) := by
      rw [findEntry, hlisted, List.find?_map]
      rfl
    cases hbatch : batch.entries.find? fun entry => entry.name.bytes = name with
    | some entry =>
      have hturn : statTurn e name dirent (getDirents e tf result) =
          some {
            ret := 0
            tf := (tfCmdDirCancel e (getDirents e tf result).tf).tf
            out := entry.dirent e } := by
        rw [statTurn, if_pos hret, hfind, hbatch]
        rfl
      obtain ⟨answer, hone, hgot, hsaid⟩ := tfCmd_messages ((statSource onCancel stale).env host) nocrc
        (Request.cancel.build (e.stack (getDirents e tf result).tf.usb)) hserving.dev
      rw [tfSendBytes_cancel, hserving.said, List.append_assoc] at hsaid
      refine ⟨_, by rw [loop, hturn], ?_⟩
      unfold LookedUp
      rw [List.flatMap_cons, List.find?_append, hbatch, Option.some_or]
      exact ⟨rfl, rfl, 0, Nat.succ_pos _, answer, hone, hgot, hsaid⟩
    | none =>
      have hturn : statTurn e name dirent (getDirents e tf result) = none := by
        rw [statTurn, if_pos hret, hfind, hbatch]
        rfl
      obtain ⟨tf', hnext, hserving'⟩ := serving_dirNext onCancel stale host hserving
      rw [List.append_assoc] at hserving'
      obtain ⟨call, hloop, hlooked⟩ :=
        ih (Nat.lt_of_succ_lt_succ hfuel) (getDirents e tf result).out hserving'
      refine ⟨call, ?_, hlooked.cons hbatch⟩
      rw [loop, hturn]
      simp only
      rw [hnext]
      exact hloop

/-! ### The look-up -/

/-- The transfer asks for the listing of a directory, whose path stands behind the header with its
terminator. -/
structure Lists (dir : CString) (request : List UInt8) : Prop where
  cmd : wireCmd request = tfMsgHddDir
  path : ∃ rest, wireBody request = dir.bytes.map translateSlash ++ 0 :: rest

theorem lists_build {dir : CString} (hfits : (Request.dir dir).Fits) (req : Mem) :
    Lists dir (tfSendBytes ((Request.dir dir).build req)) := by
  obtain ⟨rest, hbody⟩ := wireBody_transfer hfits req
  have hpayload : (Request.dir dir).payload =
      dir.bytes.map translateSlash ++ 0 :: List.replicate ((dir.strlen + 1 + 8) % 2) 0 := by
    show [] ++ (([] ++ (dir.bytes.map translateSlash ++ [0])) ++ _) = _
    rw [List.nil_append, List.nil_append, List.append_assoc]
    rfl
  refine ⟨wireCmd_build hfits _, List.replicate ((dir.strlen + 1 + 8) % 2) 0 ++ rest, ?_⟩
  rw [hbody, hpayload, List.append_assoc, List.cons_append]

theorem fits_dir_iff (dir : CString) : (Request.dir dir).Fits ↔ dir.strlen ≤ 65525 := fits_delete_iff dir

/-- A path that does not fit is not in the transfer. -/
theorem not_lists_build {dir : CString} (hlong : ¬ (Request.dir dir).Fits) (req : Mem) :
    ¬ Lists dir (tfSendBytes ((Request.dir dir).build req)) := by
  rintro ⟨-, rest, hbody⟩
  have hstrlen : 65525 < dir.strlen := Nat.not_le.mp fun h => hlong ((fits_dir_iff dir).mpr h)
  have hlength := congrArg List.length hbody
  simp only [wireBody, List.length_drop, length_swapPairs, List.length_append, List.length_map,
    List.length_cons, tfSendBytes_length] at hlength
  have hbound : tfSendLen ((Request.dir dir).build req) ≤ 0x10000 := by
    have hlt := (getU16Raw ((Request.dir dir).build req) 0).toNat_lt
    simp only [tfSendLen]
    split_ifs <;> omega
  have hpath : dir.strlen = dir.bytes.length := rfl
  have hwrapped : packetLength (fillRequest req (Request.dir dir).cmd (Request.dir dir).puts) = 0 :=
    packetLength_wrapped req _ (by omega)
  rw [Request.build, tfSendLen_wrapped hwrapped] at hlength
  omega

theorem LookedUp.ret_eq_zero_iff {e : Env (Source × List Event)} {batches : List Batch} {name : List UInt8}
    {dirent : TfDirent} {call : CallOut (Source × List Event) TfDirent}
    (h : LookedUp e batches name dirent nocrc said call) :
    call.ret = 0 ↔ ∃ entry ∈ batches.flatMap Batch.entries, entry.name.bytes = name := by
  unfold LookedUp at h
  cases hfound : (batches.flatMap Batch.entries).find? fun entry => entry.name.bytes = name with
  | some entry =>
    rw [hfound] at h
    refine iff_of_true h.1 ⟨entry, List.mem_of_find?_eq_some hfound, ?_⟩
    simpa using List.find?_some hfound
  | none =>
    rw [hfound] at h
    refine iff_of_false (fun hret => absurd (h.1.symm.trans hret) (by decide)) ?_
    rintro ⟨entry, hmem, hname⟩
    have hnot := List.find?_eq_none.mp hfound entry hmem
    exact hnot (decide_eq_true hname)

/-- The first transfer of a look-up is the request for its listing. -/
theorem tfStat_request (e : Env σ) {tf : TfHandle σ} {path parent : CString} {name : List UInt8}
    (entries : TfDirEntries) {dirent : TfDirent} {fuel : Nat} {call : CallOut (σ × List Event) TfDirent}
    (hdev : tf.dev = true) (hroot : path.bytes ≠ [slash]) (hsplit : splitPath path = some (parent, name))
    (h : tfStat e.logged fuel tf.logging path entries dirent = some call) :
    ∃ n more, call.tf.usb.2 =
      .wrote (tfSendBytes ((Request.dir parent).build (e.logged.stack tf.logging.usb))) n :: more := by
  obtain ⟨n, hsent⟩ := tfSend_logging e ((Request.dir parent).build (e.logged.stack tf.logging.usb)) hdev
  have hfirst : (tfSend e.logged tf.logging ((Request.dir parent).build (e.logged.stack tf.logging.usb))).tf.usb.2 <+:
      (tfCmdDirFirst e.logged tf.logging parent entries).tf.usb.2 :=
    log_ite_out (getDirents_log e _ entries) List.prefix_rfl
  rw [hsent] at hfirst
  generalize hlog : [Event.wrote _ n] = log at hfirst
  have hnext (call : CallOut (σ × List Event) TfDirEntries) (hcall : log <+: call.tf.usb.2) :
      log <+: (dirNext e.logged call).tf.usb.2 :=
    hcall.trans ((tfSend_log e _ _).trans (log_ite_out (getDirents_log e _ call.out) List.prefix_rfl))
  have hstop (turn : CallOut (σ × List Event) TfDirEntries) (call : CallOut (σ × List Event) TfDirent)
      (hturn : log <+: turn.tf.usb.2) (hcall : statTurn e.logged name dirent turn = some call) :
      log <+: call.tf.usb.2 := by
    rw [statTurn] at hcall
    split_ifs at hcall with hret
    · split at hcall
      · obtain rfl := Option.some.inj hcall
        exact hturn.trans ((tfSend_log e _ _).trans (tfCmd_sent_log e _ _))
      · exact absurd hcall.symm (Option.some_ne_none call)
    · obtain rfl := Option.some.inj hcall
      exact hturn
  rw [tfStat, if_neg hroot, hsplit] at h
  obtain ⟨more, hmore⟩ := loop_invariant hnext hstop hfirst h
  refine ⟨n, more, ?_⟩
  rw [← hmore, ← hlog]
  rfl

/-- A look-up does what it is for: it returns 0 exactly if an entry of the listing has the name, asks once for
the listing of the parent, and ends it once, cancelled behind the first such entry or acknowledged. -/
def LooksUp (e : Env (Source × List Event)) (batches : List Batch) (parent : CString) (name : List UInt8)
    (dirent : TfDirent) (nocrc : Int) (result : Option (CallOut (Source × List Event) TfDirent)) : Prop :=
  ∃ call request, result = some call ∧
    (call.ret = 0 ↔ ∃ entry ∈ batches.flatMap Batch.entries, entry.name.bytes = name) ∧
    Lists parent request ∧ LookedUp e batches name dirent nocrc [.sent request] call

theorem LookedUp.request_eq {e : Env (Source × List Event)} {batches : List Batch} {name : List UInt8}
    {dirent : TfDirent} {call : CallOut (Source × List Event) TfDirent} {request sent : List UInt8} {n : Int}
    {more : List Event} (h : LookedUp e batches name dirent nocrc [.sent request] call)
    (hlog : call.tf.usb.2 = .wrote sent n :: more) : request = sent := by
  have hfirst : (messages nocrc call.tf.usb.2).head? = some (.sent sent) := by
    rw [hlog]
    rfl
  unfold LookedUp at h
  split at h
  · obtain ⟨-, -, k, -, answer, -, -, hsaid⟩ := h
    rw [hsaid] at hfirst
    exact Message.sent.inj (Option.some.inj hfirst)
  · obtain ⟨-, -, hsaid⟩ := h
    rw [hsaid] at hfirst
    exact Message.sent.inj (Option.some.inj hfirst)

/-- **Looking up a path.** However the parent's entries are split into packets, the first one with the name is
found, and there is none exactly if the result is 1, as long as the parent's path fits into the request. -/
theorem tfStat_looksUp_iff (batches : List Batch) (onCancel : Source → Int × Source) (stale : Source → Mem)
    (host : Host Source) (tf : TfHandle Source) (path parent : CString) (before name : List UInt8)
    (entries : TfDirEntries) (dirent : TfDirent) (fuel : Nat) (hpath : path.bytes = before ++ slash :: name)
    (hname : slash ∉ name) (hparent : parent.bytes = if before = [] then [slash] else before)
    (hroot : path.bytes ≠ [slash]) (hfuel : batches.length < fuel) (hdev : tf.dev = true)
    (hqueue : tf.usb.queue = direntPackets batches) (hcredit : tf.usb.credit = 0) :
    let e := ((statSource onCancel stale).env host).logged
    LooksUp e batches parent name dirent tf.nocrc (tfStat e fuel tf.logging path entries dirent) ↔
      (Request.dir parent).Fits := by
  intro e
  obtain ⟨parent', hsplit, hparent'⟩ := splitPath_eq hpath hname
  obtain rfl : parent' = parent := by
    cases parent'
    cases parent
    simp only [CString.mk.injEq]
    exact hparent'.trans hparent.symm
  constructor
  · rintro ⟨call, request, hcall, -, hlists, hlooked⟩
    by_contra hlong
    obtain ⟨n, more, hlog⟩ := tfStat_request _ entries hdev hroot hsplit hcall
    rw [hlooked.request_eq hlog] at hlists
    exact not_lists_build hlong _ hlists
  · intro hfits
    have hlists := lists_build hfits (e.stack tf.logging.usb)
    have hstart : Serving (direntPackets batches) 0 tf.nocrc [] tf.logging := ⟨hdev, hqueue, hcredit, rfl, rfl⟩
    obtain ⟨hret, hserving⟩ := serving_tfSend onCancel stale host (.inl hlists.cmd) hstart
    have hfirst : tfCmdDirFirst e tf.logging parent' entries = getDirents e _ entries := if_pos hret
    obtain ⟨call, hloop, hlooked⟩ :=
      loop_lookedUp onCancel stale host batches name dirent hfuel entries hserving
    refine ⟨call, _, ?_, hlooked.ret_eq_zero_iff, hlists, hlooked⟩
    rw [tfStat, if_neg hroot, hsplit]
    simp only
    rw [hfirst]
    exact hloop

theorem tfStat_looksUp_iff_file :
    let first : Entry := ⟨0xD2F1, 20, 15, 0, typeDir, 0, ⟨[0x4D], by decide⟩, List.replicate 93 0x20, 0,
      0, 0, by decide⟩
    let second : Entry := ⟨0xD2F2, 9, 30, 59, typeFile, 5, ⟨[0x66], by decide⟩, List.replicate 93 0, 7,
      0x4100, 0, by decide⟩
    let batches : List Batch := [⟨[first], by decide⟩, ⟨[], by decide⟩, ⟨[first, second], by decide⟩]
    let e := ((statSource (fun s => (8, { s with queue := [.header tfMsgSuccess], credit := 1 }))
      fun _ _ => 0xAA).env (Host.blank Source)).logged
    let tf := TfHandle.opened (Source.mk (direntPackets batches) 0 0) fun _ => 0
    let root : CString := ⟨[0x2F], by decide⟩
    LooksUp e batches root [0x66] rootDirent 0
        (tfStat e 4 tf.logging ⟨[0x2F, 0x66], by decide⟩ ⟨0, fun _ => rootDirent⟩ rootDirent) ∧
      (Request.dir root).Fits := by
  intro first second batches e tf root
  have hfits : (Request.dir root).Fits := by decide
  exact ⟨(tfStat_looksUp_iff batches _ _ _ tf _ root [] _ _ _ _ rfl (by decide) rfl (by decide) (by decide) rfl
    rfl rfl).mpr hfits, hfits⟩

/-- A name in a directory whose path does not fit. -/
def farPath : CString where
  bytes := longPath.bytes ++ slash :: [0x66]
  nulFree h := (List.mem_append.mp h).elim longPath.nulFree (by decide)

/-- The listing of a path of 65526 bytes cannot be asked for. -/
theorem not_looksUp_farPath :
    ¬ LooksUp ((statSource (fun s => (0, s)) fun _ _ => 0).env (Host.blank Source)).logged [] longPath [0x66]
      rootDirent 0 (tfStat ((statSource (fun s => (0, s)) fun _ _ => 0).env (Host.blank Source)).logged 1
        (TfHandle.opened (Source.mk (direntPackets []) 0 0) fun _ => 0).logging farPath
        ⟨0, fun _ => rootDirent⟩ rootDirent) := by
  have hlength : longPath.bytes.length = 65526 := List.length_replicate
  have hsome : longPath.bytes ≠ [] := List.ne_nil_of_length_pos (by omega)
  have hroot : farPath.bytes ≠ [slash] := by
    intro hroot
    have hlong := congrArg List.length hroot
    rw [farPath, List.length_append, hlength] at hlong
    exact absurd hlong (by decide)
  intro h
  have hfits := (tfStat_looksUp_iff [] _ _ _ (TfHandle.opened (Source.mk (direntPackets []) 0 0) fun _ => 0)
    farPath longPath longPath.bytes [0x66] _ _ _ (by rw [farPath]) (by decide) (if_neg hsome).symm hroot
    (by decide) rfl rfl rfl).mp h
  have hshort : longPath.bytes.length ≤ 65525 := (fits_dir_iff longPath).mp hfits
  omega

end Topfield
