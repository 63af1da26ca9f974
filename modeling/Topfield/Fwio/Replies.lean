import Topfield.Fwio.Overrun

/-!
# What the boot loader answers

The length field of a firmware packet counts the data only. `tf_get_response` compares it with the number of
bytes received as if it counted the whole packet, and the request that a call reports may lie behind what was
received. Nothing compares the length that a request asks for with the largest that can be sent.
-/

namespace Topfield

open Lib

namespace Fwio

/-! ### Replies that are cut short -/

/-- The packet that a transfer announces ends within the bytes received: the header, the data and the
checksum. -/
def WholePacket (ret : Int) (content : Mem) : Prop :=
  ((packetHeadSize + (getU16 content 6).toNat + 1 : Nat) : Int) ≤ ret

/-- The header is there, and as many bytes as the data has, but not the whole packet. -/
structure CutShort (ret : Int) (content : Mem) : Prop where
  header : packetHeadSize ≤ ret
  counted : (getU16 content 6).toNat ≤ ret
  short : ret < packetHeadSize + (getU16 content 6).toNat + 1

/-- A request passes the same checks without its five bytes. -/
structure RequestCutShort (ret : Int) (content : Mem) : Prop where
  cmd : packetCmd content = tfFwReqData
  header : packetHeadSize ≤ ret
  counted : (getU16 content 6).toNat ≤ ret
  short : ret < packetHeadSize + 5

theorem checkResponse_eq_zero_iff (ret : Int) (content : Mem) :
    checkResponse ret content = 0 ↔ packetHeadSize ≤ ret ∧ (getU16 content 6).toNat ≤ ret := by
  rw [checkResponse]
  by_cases hheader : ret < packetHeadSize
  · rw [if_pos hheader]
    exact iff_of_false (by decide) fun h => Int.not_lt.mpr h.1 hheader
  · rw [if_neg hheader]
    by_cases hcounted : ret < (getU16 content 6).toNat
    · exact iff_of_false (by simp only [if_pos hcounted]; decide) fun h => Int.not_lt.mpr h.2 hcounted
    · exact iff_of_true (if_neg hcounted) ⟨Int.not_lt.mp hheader, Int.not_lt.mp hcounted⟩

section Calls

variable {σ : Type} (e : Env σ)

def transferOf (tf : TfHandle σ) : Int × Mem := (e.read tf.usb 0x82 tf.timeout sizeofPacket).1

/-- A reply that `tf_get_response` accepts was received as a whole. -/
def ResponseWhole (tf : TfHandle σ) (reply : Mem) : Prop :=
  (tfGetResponse e tf reply).ret = 0 → WholePacket (transferOf e tf).1 (transferOf e tf).2

theorem responseWhole_iff (tf : TfHandle σ) (reply : Mem) :
    ResponseWhole e tf reply ↔ (tf.dev = true → ¬ CutShort (transferOf e tf).1 (transferOf e tf).2) := by
  rw [ResponseWhole]
  cases hdev : tf.dev with
  | false =>
    have hret : (tfGetResponse e tf reply).ret = -2 := by
      rw [tfGetResponse, hdev]
      rfl
    refine iff_of_true (fun hzero => ?_) (fun hzero => absurd hzero Bool.false_ne_true)
    exact absurd (hret.symm.trans hzero) (by decide)
  | true =>
    have hret : (tfGetResponse e tf reply).ret = checkResponse (transferOf e tf).1 (transferOf e tf).2 := by
      rw [tfGetResponse, hdev]
      rfl
    rw [hret, checkResponse_eq_zero_iff]
    constructor
    · rintro hwhole - ⟨hheader, hcounted, hshort⟩
      have hlong := hwhole ⟨hheader, hcounted⟩
      rw [WholePacket] at hlong
      omega
    · rintro hcut ⟨hheader, hcounted⟩
      by_contra hlong
      refine hcut rfl ⟨hheader, hcounted, ?_⟩
      rw [WholePacket] at hlong
      omega

/-! ### The request of a call -/

def RequestReceived (s : FwSession σ) (c : FwCall) : Prop :=
  (s.call e c).ret = 0 →
    ∃ ret content, c.arrived (s.log e c) = [(ret, content)] ∧ Holds (s.call e c).out content ∧
      packetHeadSize + 5 ≤ ret

theorem requestReceived_iff (s : FwSession σ) (c : FwCall) :
    RequestReceived e s c ↔ ∀ r ∈ c.arrived (s.log e c), ¬ RequestCutShort r.1 r.2 := by
  have hawaited := run_awaited e s c
  rw [RequestReceived]
  generalize c.arrived (s.log e c) = arrived at *
  generalize (s.call e c).ret = ret at *
  generalize (s.call e c).out = filled at *
  by_cases hret : ret = 0
  · obtain ⟨⟨ret, content⟩, rfl, haccepted, hcmd, hholds⟩ := hawaited.of_zero hret
    obtain ⟨hheader, hcounted⟩ := (checkResponse_eq_zero_iff ret content).mp haccepted
    rw [List.forall_mem_singleton]
    constructor
    · rintro hreceived ⟨-, -, -, hshort⟩
      obtain ⟨ret', content', heq, -, hlong⟩ := hreceived hret
      obtain ⟨rfl, rfl⟩ := Prod.mk.inj (List.cons.inj heq).1
      omega
    · rintro hcut -
      refine ⟨ret, content, rfl, hholds, ?_⟩
      by_contra hlong
      exact hcut ⟨hcmd, hheader, hcounted, by omega⟩
  · refine iff_of_true (fun hzero => absurd hzero hret) fun r hr hcut => ?_
    refine (hawaited.of_ne_zero hret).2 r hr ⟨?_, hcut.cmd⟩
    exact (checkResponse_eq_zero_iff _ _).mpr ⟨hcut.header, hcut.counted⟩

end Calls

/-- **Incomplete replies.** A reply is accepted only as a whole exactly if the transfer does not end in the
nine bytes by which the check is short, and a reported block was received exactly if its request does not end
before its five bytes. -/
theorem replies_whole_iff {σ : Type} (e : Env σ) (tf : TfHandle σ) (reply : Mem) (s : FwSession σ)
    (c : FwCall) :
    (ResponseWhole e tf reply ↔ (tf.dev = true → ¬ CutShort (transferOf e tf).1 (transferOf e tf).2)) ∧
      (RequestReceived e s c ↔ ∀ r ∈ c.arrived (s.log e c), ¬ RequestCutShort r.1 r.2) :=
  ⟨responseWhole_iff e tf reply, requestReceived_iff e s c⟩

/-- The header of a request that announces five bytes. -/
def requestHeader : List UInt8 := firstRequest.take 8

/-- A transfer of eight bytes is accepted as a reply, and as a request for no bytes at all. -/
theorem not_replies_whole :
    ¬ ResponseWhole (answering requestHeader) (TfHandle.opened 1 fun _ => 0) (fun _ => 0) ∧
      ¬ RequestReceived (answering requestHeader) unasked .upload := by
  constructor
  · intro h
    have hwhole := h (by decide)
    exact absurd hwhole (by rw [WholePacket]; decide)
  · intro h
    obtain ⟨hret, harrived, -⟩ := upload_answering requestHeader (by decide) (by decide)
    obtain ⟨ret, content, heq, -, hlong⟩ := h hret
    obtain ⟨rfl, -⟩ := Prod.mk.inj (List.cons.inj (harrived.symm.trans heq)).1
    exact absurd hlong (by decide)

/-! ### Requests for too much -/

section Requests

variable {σ : Type} (e : Env σ)

/-- The request that this call accepts, if any, asks for no more than can be sent. -/
def Modest (s : FwSession σ) (c : FwCall) : Prop :=
  ∀ m, c.accepted (s.log e c) = some m → ofBE (m.load 8 2) ≤ maxDataSize

/-- Once a call has returned 0, the length of the block that is asked for is one that can be sent, and a caller
that answers with that many bytes is not turned away before anything is written. -/
structure Satisfiable (s : FwSession σ) : Prop where
  len : 0 ∈ s.returned → s.fwData.len.toNat ≤ maxDataSize
  sent : 0 ∈ s.returned → s.tf.dev = true → ∀ buf : List UInt8, buf.length = s.fwData.len.toNat →
    transfers (s.log e (.next buf)) ≠ []

variable {e}

theorem transfers_next_ne_nil {s : FwSession σ} (hdev : s.tf.dev = true) {buf : List UInt8}
    (hbuf : buf.length ≤ maxDataSize) : transfers (s.log e (.next buf)) ≠ [] := by
  have htransmits := (tfFwUploadNext_handled e s.tf buf s.fwData).transmits
  rw [Transmits, if_pos ⟨hdev, hbuf⟩] at htransmits
  exact htransmits.transfers_ne_nil

theorem satisfiable_iff (s : FwSession σ) :
    Satisfiable e s ↔ (0 ∈ s.returned → s.fwData.len.toNat ≤ maxDataSize) :=
  ⟨fun h => h.len, fun h => ⟨h, fun hreturned hdev _ hbuf =>
    transfers_next_ne_nil hdev (hbuf.trans_le (h hreturned))⟩⟩

/-- A step from a state with a length that can be sent leads to another one exactly if its request is modest. -/
theorem satisfiable_step_iff {s : FwSession σ} (h : Satisfiable e s) (c : FwCall) :
    Satisfiable e (s.step e c) ↔ Modest e s c := by
  rw [satisfiable_iff] at h ⊢
  by_cases hret : (s.call e c).ret = 0
  · obtain ⟨m, haccepted, hholds⟩ := call_filled e hret
    have hreturned : 0 ∈ (s.step e c).returned :=
      List.mem_append_right _ (List.mem_singleton.mpr hret.symm)
    have hlen : (s.step e c).fwData.len.toNat = ofBE (m.load 8 2) := hholds.len
    rw [hlen]
    constructor
    · intro hsatisfied m' hm'
      obtain rfl := Option.some.inj (haccepted.symm.trans hm')
      exact hsatisfied hreturned
    · intro hmodest _
      exact hmodest m haccepted
  · refine iff_of_true (fun hreturned => ?_) (fun m hm => ?_)
    · have hbefore : 0 ∈ s.returned :=
        (List.mem_append.mp hreturned).resolve_right fun hlast => hret (List.mem_singleton.mp hlast).symm
      show (s.call e c).out.len.toNat ≤ maxDataSize
      rw [(call_kept e hret).1]
      exact h hbefore
    · rw [accepted_eq_none e hret] at hm
      exact absurd hm.symm (Option.some_ne_none m)

theorem satisfiable_start (tf : TfHandle σ) (fwData : TfFwData) : Satisfiable e (FwSession.start tf fwData) :=
  (satisfiable_iff _).mpr fun hreturned => absurd hreturned List.not_mem_nil

/-- **Satisfiable requests.** In a run in which every request is for a block that can be sent, the block that
is asked for can be sent in every state, and the next step keeps it so exactly if its request is such. -/
theorem requests_satisfiable (tf : TfHandle σ) (fwData : TfFwData) {s : FwSession σ}
    (h : Reach (FwSession.step e) (fun s c => s.Allowed c ∧ Modest e s c) (FwSession.start tf fwData) s) :
    Satisfiable e s ∧ ∀ c, Satisfiable e (s.step e c) ↔ Modest e s c := by
  have hreached : Satisfiable e s :=
    h.invariant (satisfiable_start tf fwData) fun s c hs hallowed => (satisfiable_step_iff hs c).mpr hallowed.2
  exact ⟨hreached, satisfiable_step_iff hreached⟩

end Requests

theorem upload_answering_len (request : List UInt8) (hcmd : packetCmd (Mem.ofList request) = tfFwReqData)
    (haccepted : checkResponse request.length (Mem.ofList request) = 0) :
    0 ∈ (unasked.step (answering request) .upload).returned ∧
      (unasked.step (answering request) .upload).fwData.len.toNat = ofBE ((Mem.ofList request).load 8 2) := by
  obtain ⟨hret, -, hholds⟩ := upload_answering request hcmd haccepted
  exact ⟨List.mem_singleton.mpr hret.symm, hholds.len⟩

theorem requests_satisfiable_512 :
    let e := answering (packetImage tfFwReqData 7 [2, 0, 1, 0, 0])
    Satisfiable e (unasked.step e .upload) ∧
      ∀ c, Satisfiable e ((unasked.step e .upload).step e c) ↔ Modest e (unasked.step e .upload) c := by
  intro e
  obtain ⟨-, hlen⟩ := upload_answering_len (packetImage tfFwReqData 7 [2, 0, 1, 0, 0]) (by decide) (by decide)
  have hstep : Satisfiable e (unasked.step e .upload) :=
    (satisfiable_iff _).mpr fun _ => hlen.trans_le (by decide)
  have hmodest : Modest e unasked .upload := (satisfiable_step_iff (satisfiable_start _ _) .upload).mp hstep
  exact requests_satisfiable _ _ (.next FwCall.upload .start ⟨True.intro, hmodest⟩)

theorem not_satisfiable_65535 :
    let e := answering (packetImage tfFwReqData 7 [0xFF, 0xFF, 0, 0, 0])
    ¬ Satisfiable e (unasked.step e .upload) := by
  intro e h
  obtain ⟨hreturned, hlen⟩ := upload_answering_len (packetImage tfFwReqData 7 [0xFF, 0xFF, 0, 0, 0]) (by decide)
    (by decide)
  exact absurd (hlen.symm.trans_le (h.len hreturned)) (by decide)

end Fwio

end Topfield
