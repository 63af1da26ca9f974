import Topfield.Stat

/-!
# Failure and absence

`tf_stat` is to return 1 for a file that is not there and a negative value for an error. Its loop ends when a
call of the listing has returned non-zero, and what that was is not looked at again: a listing that breaks off
is taken for one that has come to its end.
-/

namespace Topfield

open Lib

variable {σ : Type} (e : Env σ) (tf : TfHandle σ) (parent : CString) (entries : TfDirEntries)
  (name : List UInt8)

/-! ### The listing -/

/-- Call `n` of the listing: `tf_cmd_dir_first`, and then `tf_cmd_dir_next`. -/
def dirCall (n : Nat) : CallOut σ TfDirEntries := (dirNext e)^[n] (tfCmdDirFirst e tf parent entries)

def dirReply : Nat → Option Mem
  | 0 => firstReply e tf ((Request.dir parent).build (e.stack tf.usb))
  | n + 1 => firstReply e (dirCall e tf parent entries n).tf (Mem.ofList successPacket)

/-- A DIRENT packet that does not list the name. -/
def Misses (reply : Mem) : Prop :=
  packetCmd reply = tfMsgHddDirent ∧
    ∀ i : Nat, i < direntCount reply → (unpackDirent e reply (8 + sizeofTypefile * i)).name ≠ name

/-- The first `n` calls have listed entries, and not the one that is looked for. -/
def Missed (n : Nat) : Prop :=
  ∀ i < n, ∃ reply, dirReply e tf parent entries i = some reply ∧ Misses e name reply

/-- Absence is told from failure: 1 is returned for a path without a parent and when the listing has come to
its end, and a negative value when it has broken off. -/
structure StatDistinguishes (path : CString) (dirent : TfDirent) : Prop where
  absent : ∀ fuel call, tfStat e fuel tf path entries dirent = some call → call.ret = 1 →
    ∀ parent name, splitPath path = some (parent, name) → ∃ n, Missed e tf parent entries name n ∧
      ∃ reply, dirReply e tf parent entries n = some reply ∧ packetCmd reply = tfMsgHddDirend
  failed : ∀ fuel call, tfStat e fuel tf path entries dirent = some call →
    ∀ parent name, splitPath path = some (parent, name) → ∀ n, Missed e tf parent entries name n →
      (dirCall e tf parent entries n).ret < 0 → call.ret < 0

/-- As long as the name has not been listed, the listing goes on or comes to its end. -/
def ListsThrough (path : CString) : Prop :=
  ∀ parent name, splitPath path = some (parent, name) → ∀ n, Missed e tf parent entries name n →
    ∃ reply, dirReply e tf parent entries n = some reply ∧
      (packetCmd reply = tfMsgHddDirent ∨ packetCmd reply = tfMsgHddDirend)

/-! ### One call -/

variable {e tf parent entries name}

/-- What a call of the listing makes of the answer to its request. -/
def Listed (e : Env σ) (reply : Option Mem) (call : CallOut σ TfDirEntries) : Prop :=
  match reply with
  | none => call.ret < 0
  | some reply =>
    (packetCmd reply = tfMsgHddDirent → call.ret = 0 ∧
      call.out.listed = (List.range (direntCount reply).toNat).map fun i =>
        (unpackDirent e reply (8 + sizeofTypefile * i)).alone) ∧
    (packetCmd reply = tfMsgHddDirend → call.ret = tfErrDone) ∧
    (packetCmd reply ≠ tfMsgHddDirent → packetCmd reply ≠ tfMsgHddDirend → call.ret < 0)

theorem listed_getDirents (req : Mem) (result : TfDirEntries) :
    let sent := tfSend e tf req
    Listed e (firstReply e tf req)
      (if sent.ret = 0 then getDirents e sent.tf result else { sent with out := result }) := by
  intro sent
  have hsend : sent.ret ≤ 0 := tfSend_nonpos e tf req
  have hget : (tfGetResponse e sent.tf (e.stack sent.tf.usb)).ret ≤ 0 := tfGetResponse_nonpos e _ _
  rw [firstReply_eq_ite e tf req (e.stack sent.tf.usb)]
  by_cases hsent : sent.ret = 0
  · rw [if_pos hsent]
    by_cases hgot : (tfGetResponse e sent.tf (e.stack sent.tf.usb)).ret = 0
    · rw [if_pos ⟨hsent, hgot⟩, getDirents]
      simp only [sent] at hgot ⊢
      rw [if_pos hgot]
      generalize tfGetResponse e (tfSend e tf req).tf _ = got at *
      refine ⟨fun hcmd => ?_, fun hcmd => ?_, fun hdirent hdirend => ?_⟩
      · rw [if_pos hcmd]
        refine ⟨hgot, List.map_congr_left fun i hi => ?_⟩
        exact if_pos (List.mem_range.mp hi)
      · have hdirent : packetCmd got.out ≠ tfMsgHddDirent := by
          rw [hcmd]
          decide
        rw [if_neg hdirent, if_pos hcmd]
      · rw [if_neg hdirent, if_neg hdirend]
        exact tfErrUnexpected_neg
    · rw [if_neg fun h => hgot h.2, getDirents]
      simp only
      rw [if_neg hgot]
      exact lt_of_le_of_ne hget hgot
  · rw [if_neg fun h => hsent h.1, if_neg hsent]
    exact lt_of_le_of_ne hsend hsent

theorem listed_dirCall (n : Nat) :
    Listed e (dirReply e tf parent entries n) (dirCall e tf parent entries n) := by
  cases n with
  | zero => exact listed_getDirents _ entries
  | succ n =>
    rw [dirCall, Function.iterate_succ_apply']
    exact listed_getDirents _ _

theorem Listed.dirent_of_ok {reply : Option Mem} {call : CallOut σ TfDirEntries} (h : Listed e reply call)
    (hret : call.ret = 0) : ∃ m, reply = some m ∧ packetCmd m = tfMsgHddDirent := by
  cases reply with
  | none => exact absurd hret (ne_of_lt h)
  | some m =>
    obtain ⟨-, hend, hother⟩ := h
    refine ⟨m, rfl, ?_⟩
    by_contra hdirent
    by_cases hdirend : packetCmd m = tfMsgHddDirend
    · exact absurd ((hend hdirend).symm.trans hret) (by decide)
    · exact absurd hret (ne_of_lt (hother hdirent hdirend))

theorem Listed.nonneg_iff {reply : Option Mem} {call : CallOut σ TfDirEntries} (h : Listed e reply call) :
    0 ≤ call.ret ↔ ∃ m, reply = some m ∧ (packetCmd m = tfMsgHddDirent ∨ packetCmd m = tfMsgHddDirend) := by
  cases reply with
  | none => exact iff_of_false (not_le.mpr h) (by simp)
  | some m =>
    obtain ⟨hdirent, hend, hother⟩ := h
    constructor
    · intro hret
      refine ⟨m, rfl, ?_⟩
      by_contra hcmd
      push Not at hcmd
      exact absurd (hother hcmd.1 hcmd.2) (not_lt.mpr hret)
    · rintro ⟨m', hm, hcmd⟩
      obtain rfl := Option.some.inj hm
      rcases hcmd with hcmd | hcmd
      · exact (hdirent hcmd).1.ge
      · rw [hend hcmd]
        decide

theorem statTurn_eq_none_iff {reply : Option Mem} {call : CallOut σ TfDirEntries} (h : Listed e reply call)
    (dirent : TfDirent) :
    statTurn e name dirent call = none ↔ ∃ m, reply = some m ∧ Misses e name m := by
  by_cases hret : call.ret = 0
  · obtain ⟨m, rfl, hcmd⟩ := h.dirent_of_ok hret
    have hfind : findEntry call.out name = none ↔ Misses e name m := by
      rw [findEntry, (h.1 hcmd).2, List.find?_eq_none]
      constructor
      · intro hnone
        refine ⟨hcmd, fun i hi hname => ?_⟩
        have hmem : i ∈ List.range (direntCount m).toNat := List.mem_range.mpr (Int.lt_toNat.mpr hi)
        exact hnone _ (List.mem_map_of_mem hmem) (decide_eq_true hname)
      · rintro ⟨-, hmiss⟩ entry hentry hname
        obtain ⟨i, hi, rfl⟩ := List.mem_map.mp hentry
        exact hmiss i (Int.lt_toNat.mp (List.mem_range.mp hi)) (of_decide_eq_true hname)
    rw [statTurn, if_pos hret]
    cases hfound : findEntry call.out name with
    | none => exact iff_of_true rfl ⟨m, rfl, hfind.mp hfound⟩
    | some entry =>
      refine iff_of_false (Option.some_ne_none _) ?_
      rintro ⟨m', hm, hmiss⟩
      obtain rfl := Option.some.inj hm
      rw [hfind.mpr hmiss] at hfound
      exact absurd hfound.symm (Option.some_ne_none _)
  · rw [statTurn, if_neg hret]
    refine iff_of_false (Option.some_ne_none _) ?_
    rintro ⟨m, rfl, hmiss⟩
    exact hret (h.1 hmiss.1).1

/-! ### The look-up -/

/-- A result of the look-up is that of the first call that has not only missed the name. -/
theorem tfStat_eq_some_iff {path : CString} (hroot : path.bytes ≠ [slash])
    (hsplit : splitPath path = some (parent, name)) (fuel : Nat) (dirent : TfDirent)
    (call : CallOut σ TfDirent) :
    tfStat e fuel tf path entries dirent = some call ↔
      ∃ n < fuel, Missed e tf parent entries name n ∧
        statTurn e name dirent (dirCall e tf parent entries n) = some call := by
  have hmissed (n : Nat) : Missed e tf parent entries name n ↔
      ∀ i < n, statTurn e name dirent (dirCall e tf parent entries i) = none :=
    forall₂_congr fun i _ => (statTurn_eq_none_iff (listed_dirCall i) dirent).symm
  rw [tfStat, if_neg hroot, hsplit]
  simp only
  rw [loop_eq_some_iff]
  constructor
  · rintro ⟨n, hn, hbefore, hresult⟩
    exact ⟨n, hn, (hmissed n).mpr hbefore, hresult⟩
  · rintro ⟨n, hn, hbefore, hresult⟩
    exact ⟨n, hn, (hmissed n).mp hbefore, hresult⟩

/-- **Failure and absence.** They are told from each other exactly if the listing does not break off. -/
theorem statDistinguishes_iff (e : Env σ) (tf : TfHandle σ) (entries : TfDirEntries) (path : CString)
    (dirent : TfDirent) (hroot : path.bytes ≠ [slash]) :
    StatDistinguishes e tf entries path dirent ↔ ListsThrough e tf entries path := by
  constructor
  · intro h parent name hsplit n hmissed
    rw [← (listed_dirCall n).nonneg_iff]
    by_contra hret
    rw [not_le] at hret
    -- the call that fails ends the loop, with the result for a file that is not there
    have hturn : statTurn e name dirent (dirCall e tf parent entries n) =
        some { ret := 1, tf := (dirCall e tf parent entries n).tf, out := dirent } := if_neg (ne_of_lt hret)
    have hstat := (tfStat_eq_some_iff hroot hsplit (n + 1) dirent _).mpr ⟨n, Nat.lt_add_one n, hmissed, hturn⟩
    have hneg : (1 : Int) < 0 := h.failed _ _ hstat parent name hsplit n hmissed hret
    exact absurd hneg (by decide)
  · intro h
    refine ⟨fun fuel call hstat hone parent name hsplit => ?_,
      fun fuel call _ parent name hsplit n hmissed hret => ?_⟩
    · obtain ⟨n, -, hmissed, hturn⟩ := (tfStat_eq_some_iff hroot hsplit fuel dirent call).mp hstat
      obtain ⟨reply, hreply, hcmd⟩ := h parent name hsplit n hmissed
      refine ⟨n, hmissed, reply, hreply, hcmd.resolve_left fun hdirent => ?_⟩
      have hlisted : Listed e (some reply) (dirCall e tf parent entries n) := hreply ▸ listed_dirCall n
      rw [statTurn, if_pos (hlisted.1 hdirent).1] at hturn
      cases hfound : findEntry (dirCall e tf parent entries n).out name with
      | none =>
        rw [hfound] at hturn
        exact absurd hturn.symm (Option.some_ne_none _)
      | some entry =>
        rw [hfound] at hturn
        obtain rfl := Option.some.inj hturn
        have hzero : (0 : Int) = 1 := hone
        exact absurd hzero (by decide)
    · have hnonneg := (listed_dirCall n).nonneg_iff.mpr (h parent name hsplit n hmissed)
      exact absurd hret (not_lt.mpr hnonneg)

/-- The listing of an empty directory comes to its end, and `/a` is not in it. -/
theorem statDistinguishes_iff_empty :
    let e := (replying direndPacket).env (Host.blank Unit)
    let tf := TfHandle.opened () fun _ => 0
    let entries : TfDirEntries := ⟨0, fun _ => rootDirent⟩
    let path : CString := ⟨[0x2F, 0x61], by decide⟩
    StatDistinguishes e tf entries path rootDirent ∧ ListsThrough e tf entries path := by
  intro e tf entries path
  have hlists : ListsThrough e tf entries path := by
    intro parent name hsplit n hmissed
    obtain ⟨reply, hreply, hreceived⟩ := firstReply_replying direndPacket (Host.blank Unit) tf
      ((Request.dir parent).build (e.stack tf.usb)) rfl
    cases n with
    | zero => exact ⟨reply, hreply, .inr hreceived.cmd⟩
    | succ n =>
      -- the first packet is the end, and so no packet of entries
      obtain ⟨reply', hreply', hcmd, -⟩ := hmissed 0 (Nat.succ_pos n)
      obtain rfl := Option.some.inj (hreply'.symm.trans hreply)
      exact absurd (hreceived.cmd.symm.trans hcmd) (by decide)
  exact ⟨(statDistinguishes_iff e tf entries path rootDirent (by decide)).mpr hlists, hlists⟩

/-- A device that answers with a FAIL: `/a` is reported as a file that is not there. -/
theorem not_statDistinguishes_refused :
    ¬ StatDistinguishes ((replying (Packet.header tfMsgFail)).env (Host.blank Unit))
      (TfHandle.opened () fun _ => 0) ⟨0, fun _ => rootDirent⟩ ⟨[0x2F, 0x61], by decide⟩ rootDirent := by
  intro h
  have hstat : (tfStat ((replying (Packet.header tfMsgFail)).env (Host.blank Unit)) 1
      (TfHandle.opened () fun _ => 0) ⟨[0x2F, 0x61], by decide⟩ ⟨0, fun _ => rootDirent⟩ rootDirent).map
        (fun call => call.ret) = some 1 := by
    decide +kernel
  obtain ⟨call, hcall, hret⟩ := Option.map_eq_some_iff.mp hstat
  have hmissed : Missed ((replying (Packet.header tfMsgFail)).env (Host.blank Unit))
      (TfHandle.opened () fun _ => 0) ⟨[0x2F], by decide⟩ ⟨0, fun _ => rootDirent⟩ [0x61] 0 :=
    fun i hi => absurd hi (Nat.not_lt_zero i)
  have hneg := h.failed 1 call hcall ⟨[0x2F], by decide⟩ [0x61] rfl 0 hmissed (by decide +kernel)
  rw [hret] at hneg
  exact absurd hneg (by decide)

end Topfield
