import Topfield.Bounds
import Topfield.Session

/-!
# Cancelling a get

`tf_cmd_get_cancel` sends a FAIL and a CANCEL, up to five times, because the device is slow to answer while
it still sends file data. A round ends the call when its CANCEL is answered, and also when a second read,
made after a pause, finds any packet that is well formed. The second exit does not look at what it has read,
so it can take a stale packet for the confirmation.
-/

namespace Topfield

open Lib

variable {σ : Type}

/-! ### What goes over the wire -/

def cancelTransfer : List UInt8 := wireImage tfMsgCancel []

def failTransfer : List UInt8 := wireImage tfMsgFail (toBE 4 (UInt32.ofInt tfErrCrc).toNat)

theorem tfSendBytes_cancel (req : Mem) : tfSendBytes (Request.cancel.build req) = cancelTransfer := by
  obtain ⟨tail, htail, hbytes⟩ := Request.transfer (r := .cancel) (by decide) req
  have hnil : tail = [] := List.length_eq_zero_iff.mp htail
  rw [hbytes, hnil, List.append_nil]
  rfl

theorem tfSendBytes_fail (req : Mem) : tfSendBytes ((Request.fail tfErrCrc).build req) = failTransfer := by
  obtain ⟨tail, htail, hbytes⟩ := Request.transfer (r := .fail tfErrCrc) (by decide) req
  have hnil : tail = [] := List.length_eq_zero_iff.mp htail
  rw [hbytes, hnil, List.append_nil]
  rfl

def CancelSent (log : List Event) : Prop := ∃ ev ∈ log, ev.Delivers cancelTransfer

/-- The last reply that was accepted is a SUCCESS, and came after a CANCEL had been sent. -/
def Confirmed (nocrc : Int) (log : List Event) : Prop :=
  ∃ before ev after reply, log = before ++ ev :: after ∧ accepted nocrc after = [] ∧
    acceptedReply nocrc ev = some reply ∧ packetCmd reply = tfMsgSuccess ∧ CancelSent before

/-- The call succeeds on a confirmation only, and ends after five rounds at most with nothing pending. -/
structure GetCancelled (e : Env σ) (tf : TfHandle σ) : Prop where
  confirmed : (tfCmdGetCancel e.logged tf.logging).ret = 0 →
    Confirmed tf.nocrc (tfCmdGetCancel e.logged tf.logging).tf.usb.2
  rounds : ∃ k ≤ 5, transfers (tfCmdGetCancel e.logged tf.logging).tf.usb.2 =
    (List.replicate k [failTransfer, cancelTransfer]).flatten
  pending : (tfCmdGetCancel e.logged tf.logging).tf.pending = 0

/-! ### The condition -/

/-- The rounds are only ended by a confirmation: if the CANCEL of a round is not answered with SUCCESS, it is
not answered with a FAIL of code 0 either, and what the second read accepts is a SUCCESS that comes after
some CANCEL has been sent. -/
def Confirms (e : Env σ) : Nat → TfHandle (σ × List Event) → Prop
  | 0, _ => True
  | n + 1, tf =>
    let failed := tfSendFail e.logged tf tfErrCrc
    let reply := firstReply e.logged failed.tf (Request.cancel.build (e.logged.stack failed.tf.usb))
    let cancelled := tfCmdCancel e.logged failed.tf
    let late := nextResponse e.logged cancelled.tf
    (∃ m, reply = some m ∧ packetCmd m = tfMsgSuccess) ∨
      (∀ m, reply = some m → packetCmd m = tfMsgFail → getU32 m 8 ≠ 0) ∧
      (∀ m, late = some m → packetCmd m = tfMsgSuccess ∧ CancelSent cancelled.tf.usb.2) ∧
      (late = none →
        Confirms e n (tfGetResponse e.logged cancelled.tf (e.logged.stack cancelled.tf.usb)).tf)

/-- The handle when the rounds begin: a response that was pending has been read and discarded. -/
def discarded (e : Env σ) (tf : TfHandle (σ × List Event)) : TfHandle (σ × List Event) :=
  if tf.pending ≠ 0 then
    (tfGetResponse e.logged { tf with pending := 0 } (e.logged.stack tf.usb)).tf
  else tf

/-! ### The last reply -/

theorem confirmed_concat {nocrc : Int} {log : List Event} {ev : Event} {reply : Mem}
    (hreply : acceptedReply nocrc ev = some reply) :
    Confirmed nocrc (log ++ [ev]) ↔ packetCmd reply = tfMsgSuccess ∧ CancelSent log := by
  constructor
  · rintro ⟨before, ev', after, reply', hlog, hafter, hreply', hcmd, hsent⟩
    rcases List.eq_nil_or_concat after with rfl | ⟨rest, last, rfl⟩
    · obtain ⟨rfl, hev⟩ := List.append_inj' hlog rfl
      obtain rfl : ev = ev' := by simpa using hev
      obtain rfl := Option.some.inj (hreply.symm.trans hreply')
      exact ⟨hcmd, hsent⟩
    · -- the last reply was accepted, so nothing else is the last that was
      rw [List.concat_eq_append, ← List.cons_append, ← List.append_assoc] at hlog
      obtain ⟨-, hev⟩ := List.append_inj' hlog rfl
      obtain rfl : ev = last := by simpa using hev
      rw [List.concat_eq_append, accepted, List.filterMap_append,
        List.filterMap_cons_some hreply] at hafter
      simp at hafter
  · rintro ⟨hcmd, hsent⟩
    exact ⟨log, ev, [], reply, rfl, rfl, hreply, hcmd, hsent⟩

/-! ### One round -/

theorem tfCmdCancel_cases (e : Env σ) (tf : TfHandle (σ × List Event)) :
    let reply := firstReply e.logged tf (Request.cancel.build (e.logged.stack tf.usb))
    let cancelled := tfCmdCancel e.logged tf
    (reply = none ∧ cancelled.ret ≠ 0) ∨
      ∃ m ev, reply = some m ∧ acceptedReply tf.nocrc ev = some m ∧
        cancelled.tf.usb.2 = tf.usb.2 ++ [.wrote cancelTransfer cancelTransfer.length] ++ [ev] ∧
        (cancelled.ret = 0 ↔ packetCmd m = tfMsgSuccess ∨ packetCmd m = tfMsgFail ∧ getU32 m 8 = 0) := by
  have hbytes := tfSendBytes_cancel (e.logged.stack tf.usb)
  simp only [tfCmdCancel, runRequest]
  generalize Request.cancel.build (e.logged.stack tf.usb) = req at *
  have hexchange := exchange e tf req (e.logged.stack (tfSend e.logged tf req).tf.usb)
  simp only [tfCmd]
  generalize tfSend e.logged tf req = sent at *
  generalize tfGetResponse e.logged sent.tf _ = got at *
  cases hexchange with
  | unsent hsent hanswer _ =>
    rw [if_neg (ne_of_lt hsent)]
    exact .inl ⟨firstReply_of_unsent hanswer, ne_of_lt hsent⟩
  | rejected hsent hret hanswer _ hreply _ =>
    rw [if_pos hsent, if_neg (ne_of_lt hret)]
    exact .inl ⟨firstReply_of_answer hanswer hreply, ne_of_lt hret⟩
  | @accepted ev hsent hret hanswer _ hreply hlog =>
    have hlog' : got.tf.usb.2 = tf.usb.2 ++ [.wrote cancelTransfer cancelTransfer.length] ++ [ev] := by
      rw [hlog, answeredLog, hbytes, List.append_assoc]
      rfl
    refine .inr ⟨got.out, ev, firstReply_of_answer hanswer hreply, hreply, ?_⟩
    rw [if_pos hsent, if_pos hret]
    by_cases hfail : packetCmd got.out = tfMsgFail
    · rw [if_pos hfail]
      refine ⟨hlog', (failCode_eq_zero_iff got.out).trans ⟨fun hcode => .inr ⟨hfail, hcode⟩, ?_⟩⟩
      rintro (hsuccess | hzero)
      · exact absurd (hfail.symm.trans hsuccess) (by decide)
      · exact hzero.2
    · rw [if_neg hfail]
      by_cases hsuccess : packetCmd got.out = tfMsgSuccess
      · rw [if_neg (not_not_intro hsuccess)]
        exact ⟨hlog', iff_of_true hret (.inl hsuccess)⟩
      · rw [if_pos hsuccess]
        refine ⟨hlog', iff_of_false tfErrUnexpected_neg.ne ?_⟩
        rintro (h | h)
        · exact hsuccess h
        · exact hfail h.1

theorem tfGetResponse_cases (e : Env σ) (tf : TfHandle (σ × List Event)) (buf : Mem) :
    let late := nextResponse e.logged tf
    let got := tfGetResponse e.logged tf buf
    (late = none ∧ got.ret ≠ 0) ∨
      ∃ m ev, late = some m ∧ got.ret = 0 ∧ acceptedReply tf.nocrc ev = some m ∧
        got.tf.usb.2 = tf.usb.2 ++ [ev] := by
  simp only [nextResponse_eq_ite e.logged tf buf]
  by_cases hret : (tfGetResponse e.logged tf buf).ret = 0
  · cases hdev : tf.dev with
    | false =>
      rw [tfGetResponse_noconn e.logged buf hdev] at hret
      exact absurd hret tfErrNoconn_neg.ne
    | true =>
      rcases hread : e.read tf.usb.1 0x82 tf.timeout sizeofPacket with ⟨⟨ret, content⟩, s⟩
      have hgot := tfGetResponse_logged e buf hdev hread
      rw [if_pos hret]
      rw [hgot] at hret ⊢
      exact .inr ⟨_, .read ret content, rfl, hret, acceptedReply_of_ok hret, rfl⟩
  · rw [if_neg hret]
    exact .inl ⟨rfl, hret⟩

theorem secondRead_iff {e : Env σ} {tf : TfHandle (σ × List Event)} {nocrc : Int} (hnocrc : tf.nocrc = nocrc)
    (buf : Mem) (rest : Call (σ × List Event)) {P : Prop}
    (hrest : (tfGetResponse e.logged tf buf).ret ≠ 0 → ((rest.ret = 0 → Confirmed nocrc rest.tf.usb.2) ↔ P)) :
    let late := nextResponse e.logged tf
    let got := tfGetResponse e.logged tf buf
    let call := if got.ret = 0 then got.toCall else rest
    (call.ret = 0 → Confirmed nocrc call.tf.usb.2) ↔
      (∀ m, late = some m → packetCmd m = tfMsgSuccess ∧ CancelSent tf.usb.2) ∧ (late = none → P) := by
  simp only
  rcases tfGetResponse_cases e tf buf with ⟨hlate, hret⟩ | ⟨m, ev, hlate, hret, hreply, hlog⟩
  · rw [if_neg hret, hrest hret, hlate]
    simp
  · rw [hnocrc] at hreply
    rw [if_pos hret, hlate]
    simp only [hret, hlog, confirmed_concat hreply, true_implies, Option.some.injEq, reduceCtorEq,
      false_implies, and_true, forall_eq']

/-- **Rounds.** What ends them is a confirmation exactly under the condition. -/
theorem getCancelRounds_confirmed_iff (e : Env σ) (n : Nat) (tf : TfHandle (σ × List Event)) (ret : Int)
    (h : ret ≠ 0 ∨ 0 < n) :
    ((getCancelRounds e.logged tf ret n).ret = 0 →
        Confirmed tf.nocrc (getCancelRounds e.logged tf ret n).tf.usb.2) ↔ Confirms e n tf := by
  induction n generalizing tf ret with
  | zero =>
    have hret : ret ≠ 0 := h.resolve_right (lt_irrefl 0)
    exact iff_of_true (fun hzero => absurd hzero hret) trivial
  | succ n ih =>
    have hfailed := tfSendFail_frame e.logged tf tfErrCrc
    have hcancelled := hfailed.trans (tfCmdCancel_frame e.logged (tfSendFail e.logged tf tfErrCrc).tf)
    have hcases := tfCmdCancel_cases e (tfSendFail e.logged tf tfErrCrc).tf
    simp only [getCancelRounds, Confirms] at hcases ⊢
    generalize firstReply e.logged (tfSendFail e.logged tf tfErrCrc).tf _ = reply at *
    generalize tfCmdCancel e.logged (tfSendFail e.logged tf tfErrCrc).tf = cancelled at *
    have hgot := hcancelled.trans
      (tfGetResponse_frame e.logged cancelled.tf (e.logged.stack cancelled.tf.usb))
    have hrest (hret : (tfGetResponse e.logged cancelled.tf (e.logged.stack cancelled.tf.usb)).ret ≠ 0) :=
      ih (tfGetResponse e.logged cancelled.tf (e.logged.stack cancelled.tf.usb)).tf _ (.inl hret)
    rw [hgot.nocrc] at hrest
    have hsecond := secondRead_iff hcancelled.nocrc (e.logged.stack cancelled.tf.usb) _ hrest
    simp only at hsecond
    rcases hcases with ⟨hreply, hret⟩ | ⟨m, ev, hreply, haccepted, hlog, hret⟩
    · rw [if_neg hret, hsecond, hreply]
      simp
    · rw [hfailed.nocrc] at haccepted
      rw [hreply]
      by_cases hsuccess : packetCmd m = tfMsgSuccess
      · -- the CANCEL is answered with SUCCESS
        have hsent : CancelSent ((tfSendFail e.logged tf tfErrCrc).tf.usb.2 ++
            [.wrote cancelTransfer cancelTransfer.length]) :=
          ⟨_, List.mem_append_right _ (List.mem_singleton_self _), rfl, rfl⟩
        rw [if_pos (hret.mpr (.inl hsuccess)), hlog]
        exact iff_of_true (fun _ => (confirmed_concat haccepted).mpr ⟨hsuccess, hsent⟩)
          (.inl ⟨m, rfl, hsuccess⟩)
      · by_cases hzero : packetCmd m = tfMsgFail ∧ getU32 m 8 = 0
        · -- a FAIL of code 0 is taken for success
          have hok := hret.mpr (.inr hzero)
          rw [if_pos hok, hlog]
          refine iff_of_false (fun h => hsuccess ((confirmed_concat haccepted).mp (h hok)).1) ?_
          rintro (⟨m', hm', hsuccess'⟩ | ⟨hnonzero, -⟩)
          · obtain rfl := Option.some.inj hm'
            exact hsuccess hsuccess'
          · exact hnonzero m rfl hzero.1 hzero.2
        · have herror : cancelled.ret ≠ 0 := fun h => (hret.mp h).elim hsuccess hzero
          rw [if_neg herror, hsecond]
          constructor
          · intro h
            refine .inr ⟨fun m' hm' hfail hcode => ?_, h⟩
            obtain rfl := Option.some.inj hm'
            exact hzero ⟨hfail, hcode⟩
          · rintro (⟨m', hm', hsuccess'⟩ | ⟨-, h⟩)
            · obtain rfl := Option.some.inj hm'
              exact absurd hsuccess' hsuccess
            · exact h

/-! ### How often -/

theorem tfSend_transfers (e : Env σ) (tf : TfHandle (σ × List Event)) (req : Mem) :
    transfers (tfSend e.logged tf req).tf.usb.2 =
      transfers tf.usb.2 ++ if tf.dev = true then [tfSendBytes req] else [] := by
  cases hdev : tf.dev with
  | false =>
    rw [tfSend_noconn e.logged req hdev]
    simp
  | true =>
    rw [tfSend_logged e req hdev rfl, transfers_append]
    rfl

theorem tfGetResponse_transfers (e : Env σ) (tf : TfHandle (σ × List Event)) (buf : Mem) :
    transfers (tfGetResponse e.logged tf buf).tf.usb.2 = transfers tf.usb.2 := by
  cases hdev : tf.dev with
  | false => rw [tfGetResponse_noconn e.logged buf hdev]
  | true =>
    rw [tfGetResponse_logged e buf hdev rfl, transfers_append]
    exact List.append_nil _

theorem tfCmd_transfers (e : Env σ) (tf : TfHandle (σ × List Event)) (req : Mem) :
    transfers (tfCmd e.logged tf req).tf.usb.2 =
      transfers tf.usb.2 ++ if tf.dev = true then [tfSendBytes req] else [] := by
  have hsent := tfSend_transfers e tf req
  have hgot := (tfGetResponse_transfers e (tfSend e.logged tf req).tf
    (e.logged.stack (tfSend e.logged tf req).tf.usb)).trans hsent
  generalize transfers tf.usb.2 ++ (if tf.dev = true then [tfSendBytes req] else []) = sent at *
  simp only [tfCmd]
  split_ifs
  · exact hgot
  · exact hgot
  · exact hgot
  · exact hgot
  · exact hsent

def roundTransfers (tf : TfHandle (σ × List Event)) : List (List UInt8) :=
  if tf.dev = true then [failTransfer, cancelTransfer] else []

theorem getCancelRounds_transfers (e : Env σ) (n : Nat) (tf : TfHandle (σ × List Event)) (ret : Int) :
    ∃ k ≤ n, transfers (getCancelRounds e.logged tf ret n).tf.usb.2 =
      transfers tf.usb.2 ++ (List.replicate k (roundTransfers tf)).flatten := by
  induction n generalizing tf ret with
  | zero => exact ⟨0, le_rfl, (List.append_nil _).symm⟩
  | succ n ih =>
    have hfailed := tfSendFail_frame e.logged tf tfErrCrc
    have hcancelled := hfailed.trans (tfCmdCancel_frame e.logged (tfSendFail e.logged tf tfErrCrc).tf)
    have hround : transfers (tfCmdCancel e.logged (tfSendFail e.logged tf tfErrCrc).tf).tf.usb.2 =
        transfers tf.usb.2 ++ roundTransfers tf := by
      have hdev := hfailed.dev
      simp only [tfCmdCancel, runRequest, tfSendFail] at hdev ⊢
      rw [tfCmd_transfers, tfSendBytes_cancel, tfSend_transfers, tfSendBytes_fail, hdev, roundTransfers,
        List.append_assoc]
      split_ifs
      · rfl
      · rfl
    simp only [getCancelRounds]
    generalize tfCmdCancel e.logged (tfSendFail e.logged tf tfErrCrc).tf = cancelled at *
    have hgot := hcancelled.trans
      (tfGetResponse_frame e.logged cancelled.tf (e.logged.stack cancelled.tf.usb))
    have hlate := tfGetResponse_transfers e cancelled.tf (e.logged.stack cancelled.tf.usb)
    generalize tfGetResponse e.logged cancelled.tf (e.logged.stack cancelled.tf.usb) = got at *
    have hone : (List.replicate 1 (roundTransfers tf)).flatten = roundTransfers tf := by simp
    split_ifs
    · exact ⟨1, by omega, hround.trans (by rw [hone])⟩
    · exact ⟨1, by omega, hlate.trans (hround.trans (by rw [hone]))⟩
    · obtain ⟨k, hk, hrest⟩ := ih got.tf got.ret
      have hsame : roundTransfers got.tf = roundTransfers tf := by
        rw [roundTransfers, roundTransfers, hgot.dev]
      refine ⟨k + 1, by omega, ?_⟩
      rw [hrest, hlate, hround, hsame, List.append_assoc, List.replicate_succ, List.flatten_cons]

/-! ### The call -/

theorem tfCmdGetCancel_eq (e : Env σ) (tf : TfHandle (σ × List Event)) :
    tfCmdGetCancel e.logged tf = getCancelRounds e.logged (discarded e tf) 0 5 := rfl

theorem discarded_transfers (e : Env σ) (tf : TfHandle σ) :
    transfers (discarded e tf.logging).usb.2 = [] := by
  unfold discarded
  split_ifs
  · exact tfGetResponse_transfers e _ _
  · rfl

theorem discarded_nocrc (e : Env σ) (tf : TfHandle σ) : (discarded e tf.logging).nocrc = tf.nocrc := by
  unfold discarded
  split_ifs
  · exact (tfGetResponse_frame e.logged _ _).nocrc
  · rfl

/-- **Cancelling a get.** The call succeeds on a confirmation only, exactly if its rounds are only ended by
one; it never takes more than five, and nothing stays pending. -/
theorem getCancelled_iff (e : Env σ) (tf : TfHandle σ) :
    GetCancelled e tf ↔ Confirms e 5 (discarded e tf.logging) := by
  have hiff := getCancelRounds_confirmed_iff e 5 (discarded e tf.logging) 0 (.inr (by decide))
  rw [discarded_nocrc] at hiff
  refine ⟨fun h => hiff.mp h.confirmed, fun h => ⟨hiff.mpr h, ?_, ?_⟩⟩
  · obtain ⟨k, hk, hrounds⟩ := getCancelRounds_transfers e 5 (discarded e tf.logging) 0
    rw [discarded_transfers, List.nil_append, ← tfCmdGetCancel_eq] at hrounds
    by_cases hdev : (discarded e tf.logging).dev = true
    · rw [roundTransfers, if_pos hdev] at hrounds
      exact ⟨k, hk, hrounds⟩
    · rw [roundTransfers, if_neg hdev] at hrounds
      exact ⟨0, Nat.zero_le 5, by rw [hrounds]; simp⟩
  · exact (tfCmdGetCancel_frame e.logged tf.logging).pending

/-- A device that answers everything with FILE_DATA: the first CANCEL fails, the second read takes the next
FILE_DATA for the confirmation. -/
theorem not_getCancelled_data :
    ¬ GetCancelled ((replying (Packet.header tfMsgHddFileData)).env (Host.blank Unit))
      (TfHandle.opened () fun _ => 0) := by
  intro h
  obtain ⟨before, ev, after, reply, hlog, -, hreply, hcmd, -⟩ := h.confirmed (by decide +kernel)
  replace hreply : acceptedReply 0 ev = some reply := hreply
  have hcmds : (accepted 0 (tfCmdGetCancel
      ((replying (Packet.header tfMsgHddFileData)).env (Host.blank Unit)).logged
      (TfHandle.opened () fun _ => 0).logging).tf.usb.2).map packetCmd =
      [tfMsgHddFileData, tfMsgHddFileData] := by
    decide +kernel
  rw [hlog, accepted, List.filterMap_append, List.filterMap_cons_some hreply, List.map_append,
    List.map_cons, hcmd] at hcmds
  have hmem : tfMsgSuccess ∈ [tfMsgHddFileData, tfMsgHddFileData] := by
    rw [← hcmds]
    exact List.mem_append_right _ List.mem_cons_self
  exact absurd hmem (by decide)

end Topfield
