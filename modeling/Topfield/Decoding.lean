import Topfield.Listing
import Topfield.Failure

/-!
# What is decoded of a reply

`tf_cmd_size`, `tf_cmd_get` and the commands that can be refused read their results out of the payload of
a reply as if it had a fixed layout. Nothing compares the length of the packet with that layout, so a
packet that is too short is decoded together with what lies behind it, and a name goes on to the first
zero byte wherever that is.
-/

namespace Topfield

open Lib

variable {σ : Type}

/-! ### The calls and what they read -/

/-- A call that reads its result out of the payload of a reply; `command` is the core of all commands that
are answered with SUCCESS or FAIL. -/
inductive DecodingCall
  | size
  | command (req : Mem)
  | put (path : CString) (size : UInt64) (stamp : Int) (offset : UInt64)
  | get (path : CString) (offset : UInt64)

structure Decoded where
  ret : Int
  result : TfSizeResult
  dirent : TfDirent

/-- The fields of a payload: the code of a FAIL, the numbers of a SIZE_RESULT, and the descriptor in a
FILE_START. -/
inductive Fields
  | code
  | sizes
  | descriptor

namespace Fields

def width : Fields → Nat
  | code => 4
  | sizes => 8
  | descriptor => sizeofTypefile

def decode (e : Env σ) (reply : Mem) (result : TfSizeResult) (dirent : TfDirent) : Fields → Decoded
  | code => ⟨failCode reply, result, dirent⟩
  | sizes => ⟨0, ⟨getU32 reply 8, getU32 reply 12⟩, dirent⟩
  | descriptor => ⟨0, result, unpackDirent e reply 8⟩

/-- The fields lie in the packet, and so does the end of a name. -/
def Inside (reply : Mem) : Fields → Prop
  | code => 8 + code.width ≤ (packetLength reply).toNat
  | sizes => 8 + sizes.width ≤ (packetLength reply).toNat
  | descriptor => 8 + descriptor.width ≤ (packetLength reply).toNat ∧
    ∃ i, 22 ≤ i ∧ i < (packetLength reply).toNat ∧ reply i = 0

end Fields

namespace DecodingCall

def run (e : Env σ) (tf : TfHandle σ) (result : TfSizeResult) (dirent : TfDirent) :
    DecodingCall → Decoded
  | size => ⟨(tfCmdSize e tf result).ret, (tfCmdSize e tf result).out, dirent⟩
  | command req => ⟨(tfCmd e tf req).ret, result, dirent⟩
  | put path length stamp offset => ⟨(tfCmdPut e tf path length stamp offset).ret, result, dirent⟩
  | get path offset =>
    ⟨(tfCmdGet e tf path offset dirent).ret, result, (tfCmdGet e tf path offset dirent).out⟩

def request (e : Env σ) (tf : TfHandle σ) : DecodingCall → Mem
  | size => Request.hddSize.build (e.stack tf.usb)
  | command req => req
  | put path _ _ offset => (Request.filePut path offset).build (e.stack tf.usb)
  | get path offset => (Request.fileGet path offset).build (e.stack tf.usb)

/-- The fields a call reads out of a packet with the given command. -/
def fields (cmd : UInt32) : DecodingCall → Option Fields
  | size => if cmd = tfMsgHddSizeResult then some .sizes else none
  | command _ => if cmd = tfMsgFail then some .code else none
  | put _ _ _ _ => if cmd = tfMsgFail then some .code else none
  | get _ _ =>
    if cmd = tfMsgHddFileStart then some .descriptor
    else if cmd = tfMsgFail then some .code
    else none

/-- The fields that the call is going to read, with the reply they are in. -/
def Reads (e : Env σ) (tf : TfHandle σ) (c : DecodingCall) (reply : Mem) (f : Fields) : Prop :=
  firstReply e tf (c.request e tf) = some reply ∧ c.fields (packetCmd reply) = some f

end DecodingCall

/-- Two replies are the same packet, apart from the checksum and from what lies behind it. -/
structure SamePacket (reply reply' : Mem) : Prop where
  length : packetLength reply' = packetLength reply
  cmd : packetCmd reply' = packetCmd reply
  payload : ∀ i, 8 ≤ i → i < (packetLength reply).toNat → reply' i = reply i

/-- A reply is only decoded as far as it goes: the result is the same for the same packet, and one that is
too short for its fields is an error that changes nothing. -/
structure DecodesInside (e : Env σ) (tf : TfHandle σ) (c : DecodingCall) (result : TfSizeResult)
    (dirent : TfDirent) : Prop where
  inside : ∀ reply f, c.Reads e tf reply f → ∀ (e' : Env σ) (tf' : TfHandle σ) (reply' : Mem),
    e'.toHost = e.toHost → firstReply e' tf' (c.request e' tf') = some reply' → SamePacket reply reply' →
      c.run e' tf' result dirent = c.run e tf result dirent
  short : ∀ reply f, c.Reads e tf reply f → (packetLength reply).toNat < 8 + f.width →
    (c.run e tf result dirent).ret < 0 ∧ (c.run e tf result dirent).result = result ∧
      (c.run e tf result dirent).dirent = dirent

/-- Whatever the call is going to read lies in the reply. -/
def FieldsInside (e : Env σ) (tf : TfHandle σ) (c : DecodingCall) : Prop :=
  ∀ reply f, c.Reads e tf reply f → f.Inside reply

/-! ### One reply -/

theorem exchange_of_firstReply {e : Env σ} {tf : TfHandle σ} {req reply : Mem}
    (h : firstReply e tf req = some reply) (buf : Mem) :
    (tfSend e tf req).ret = 0 ∧ (tfGetResponse e (tfSend e tf req).tf buf).ret = 0 ∧
      (tfGetResponse e (tfSend e tf req).tf buf).out = reply := by
  rw [firstReply_eq_ite e tf req buf] at h
  split_ifs at h with hboth
  exact ⟨hboth.1, hboth.2, Option.some.inj h⟩

theorem fields_of_fail {cmd : UInt32} {f : Fields}
    (h : (if cmd = tfMsgFail then some .code else none) = some f) :
    cmd = tfMsgFail ∧ f = .code := by
  split_ifs at h with hcmd
  exact ⟨hcmd, (Option.some.inj h).symm⟩

theorem DecodingCall.run_eq (e : Env σ) (tf : TfHandle σ) (c : DecodingCall) (result : TfSizeResult)
    (dirent : TfDirent) {reply : Mem} {f : Fields} (h : c.Reads e tf reply f) :
    c.run e tf result dirent = f.decode e reply result dirent := by
  obtain ⟨hfirst, hfields⟩ := h
  cases c with
  | size =>
    obtain ⟨hsent, hgot, hout⟩ := exchange_of_firstReply hfirst _
    simp only [DecodingCall.fields] at hfields
    split_ifs at hfields with hcmd
    obtain rfl := Option.some.inj hfields
    simp only [DecodingCall.request] at hsent hgot hout
    simp only [run, tfCmdSize]
    rw [if_pos hsent, if_pos hgot, hout, if_pos hcmd, hgot]
    rfl
  | command req =>
    obtain ⟨hcmd, rfl⟩ := fields_of_fail hfields
    obtain ⟨hsent, hgot, hout⟩ := exchange_of_firstReply hfirst _
    simp only [DecodingCall.request] at hsent hgot hout
    simp only [run, tfCmd]
    rw [if_pos hsent, if_pos hgot, hout, if_pos hcmd]
    rfl
  | put path size stamp offset =>
    obtain ⟨hcmd, rfl⟩ := fields_of_fail hfields
    obtain ⟨hsent, hgot, hout⟩ := exchange_of_firstReply hfirst _
    have hsuccess : packetCmd reply ≠ tfMsgSuccess := by
      rw [hcmd]
      decide
    simp only [DecodingCall.request] at hsent hgot hout
    simp only [run, tfCmdPut]
    rw [if_pos hsent, if_pos hgot, hout, if_neg hsuccess, if_pos hcmd]
    rfl
  | get path offset =>
    obtain ⟨hsent, hgot, hout⟩ := exchange_of_firstReply hfirst _
    simp only [DecodingCall.request] at hsent hgot hout
    simp only [DecodingCall.fields] at hfields
    simp only [run, tfCmdGet]
    split_ifs at hfields with hstart hfail
    · obtain rfl := Option.some.inj hfields
      rw [if_pos hsent, if_pos hgot, hout, if_pos hstart, hgot]
      rfl
    · obtain rfl := Option.some.inj hfields
      rw [if_pos hsent, if_pos hgot, hout, if_neg hstart, if_pos hfail]
      rfl

/-! ### Fields inside the packet -/

theorem cString_congr_upTo {m m' : Mem} {a n fuel : Nat} (hsame : ∀ k ≤ n, m' (a + k) = m (a + k))
    (hend : m (a + n) = 0) : cString m' a fuel = cString m a fuel := by
  induction n generalizing a fuel with
  | zero =>
    have hzero : m' a = 0 := (hsame 0 le_rfl).trans hend
    cases fuel with
    | zero => rfl
    | succ fuel =>
      rw [Nat.add_zero] at hend
      rw [cString, cString, if_pos hzero, if_pos hend]
  | succ n ih =>
    cases fuel with
    | zero => rfl
    | succ fuel =>
      have hhead : m' a = m a := hsame 0 (Nat.zero_le _)
      have htail : cString m' (a + 1) fuel = cString m (a + 1) fuel := by
        refine ih (fun k hk => ?_) ?_
        · rw [Nat.add_assoc, Nat.add_comm 1]
          exact hsame (k + 1) (by omega)
        · rw [Nat.add_assoc, Nat.add_comm 1]
          exact hend
      rw [cString, cString, hhead, htail]

theorem getU32_eq {m m' : Mem} {a : Nat} (h : ∀ i < 4, m' (a + i) = m (a + i)) :
    getU32 m' a = getU32 m a := by
  rw [getU32, getU32, h 1 (by decide), h 2 (by decide), h 3 (by decide), ← Nat.add_zero a, h 0 (by decide)]

theorem unpackDirent_congr (e : Env σ) {m m' : Mem} {a n : Nat} (hrecord : ∀ i < 114, m' (a + i) = m (a + i))
    (hname : ∀ k ≤ n, m' (a + 14 + k) = m (a + 14 + k)) (hend : m (a + 14 + n) = 0) :
    unpackDirent e m' a = unpackDirent e m a := by
  have hstamp : tfdtToTime e m' a = tfdtToTime e m a :=
    tfdtToTime_eq e (Mem.load_congr fun i hi => hrecord i (by omega))
  have hsize : getU64 m' (a + 6) = getU64 m (a + 6) := by
    apply UInt64.toNat_inj.mp
    rw [getU64_toNat, getU64_toNat]
    refine congrArg ofBE (Mem.load_congr fun i hi => ?_)
    rw [Nat.add_assoc]
    exact hrecord _ (by omega)
  have hattrib : getU16 m' (a + 110) = getU16 m (a + 110) := by
    refine getU16_eq (Mem.load_congr fun i hi => ?_)
    rw [Nat.add_assoc]
    exact hrecord _ (by omega)
  simp only [unpackDirent]
  rw [hstamp, hsize, hattrib, hrecord 5 (by decide), cString_congr_upTo hname hend]

/-- Of its surroundings `unpack_dirent` uses the host's calendar only. -/
theorem unpackDirent_host {e e' : Env σ} (hhost : e'.toHost = e.toHost) :
    unpackDirent e' = unpackDirent e := by
  have hmktime : e'.mktime = e.mktime := congrArg Host.mktime hhost
  funext m a
  simp only [unpackDirent, tfdtToTime, hmktime]

theorem Fields.decode_congr {e e' : Env σ} {reply reply' : Mem} {f : Fields} (result : TfSizeResult)
    (dirent : TfDirent) (hhost : e'.toHost = e.toHost) (hsame : SamePacket reply reply')
    (hinside : f.Inside reply) : f.decode e' reply' result dirent = f.decode e reply result dirent := by
  have hpayload := hsame.payload
  cases f with
  | code =>
    have hcode : getU32 reply' 8 = getU32 reply 8 := by
      refine getU32_eq fun i hi => hpayload _ (by omega) ?_
      simp only [Inside, width] at hinside
      omega
    simp only [decode, failCode, hcode]
  | sizes =>
    simp only [Inside, width] at hinside
    have htotal : getU32 reply' 8 = getU32 reply 8 :=
      getU32_eq fun i hi => hpayload _ (by omega) (by omega)
    have hfree : getU32 reply' 12 = getU32 reply 12 :=
      getU32_eq fun i hi => hpayload _ (by omega) (by omega)
    simp only [decode, htotal, hfree]
  | descriptor =>
    obtain ⟨hlength, i, hlow, hhigh, hzero⟩ := hinside
    simp only [width, sizeofTypefile] at hlength
    have hunpack : unpackDirent e reply' 8 = unpackDirent e reply 8 := by
      refine unpackDirent_congr e (n := i - 22) (fun j hj => hpayload _ (by omega) (by omega))
        (fun k hk => hpayload _ (by omega) (by omega)) ?_
      rw [show 8 + 14 + (i - 22) = i by omega, hzero]
    simp only [decode, unpackDirent_host hhost, hunpack]

/-! ### Any packet can arrive -/

theorem load_packetLength (m : Mem) : m.load 0 2 = toLE 2 (packetLength m).toNat := by
  have hlt := ofLE_lt (m.load 0 2)
  have hback := toLE_ofLE (m.load 0 2)
  rw [Mem.length_load] at hlt hback
  rw [packetLength, UInt16.toNat_ofNat', Nat.mod_eq_of_lt (by simpa using hlt), hback]

theorem load_packetCmd (m : Mem) : m.load 4 4 = toLE 4 (packetCmd m).toNat := by
  have hlt := ofLE_lt (m.load 4 4)
  have hback := toLE_ofLE (m.load 4 4)
  rw [Mem.length_load] at hlt hback
  rw [packetCmd, UInt32.toNat_ofNat', Nat.mod_eq_of_lt (by simpa using hlt), hback]

theorem setPacketLength_self {m m' : Mem} (h : ∀ i, 2 ≤ i → m i = m' i) :
    setPacketLength m (packetLength m') = m' := by
  refine Mem.store_eq_of_load ?_ fun i hi => h i ?_
  · rw [length_toLE, load_packetLength]
  · rw [length_toLE] at hi
    omega

theorem setPacketCmd_self {m m' : Mem} (h : ∀ i, i < 4 ∨ 8 ≤ i → m i = m' i) :
    setPacketCmd m (packetCmd m') = m' := by
  refine Mem.store_eq_of_load ?_ fun i hi => h i ?_
  · rw [length_toLE, load_packetCmd]
  · rw [length_toLE] at hi
    omega

/-- A packet with its header in the order of the device. -/
def withWireHeader (reply : Mem) : Mem :=
  (reply.store 0 (toBE 2 (packetLength reply).toNat)).store 4 (toBE 4 (packetCmd reply).toNat)

theorem load_withWireHeader_length (reply : Mem) :
    (withWireHeader reply).load 0 2 = toBE 2 (packetLength reply).toNat := by
  rw [withWireHeader, Mem.load_store_disjoint _ (.inl (by decide))]
  simpa using Mem.load_store_self reply 0 (toBE 2 (packetLength reply).toNat)

theorem setHeader_withWireHeader (reply : Mem) :
    let m := setPacketLength (withWireHeader reply) (packetLength reply)
    setPacketCmd m (getU32 m 4) = reply := by
  have hlength : setPacketLength (withWireHeader reply) (packetLength reply) =
      reply.store 4 (toBE 4 (packetCmd reply).toNat) := by
    have hsame : packetLength (reply.store 4 (toBE 4 (packetCmd reply).toNat)) = packetLength reply :=
      packetLength_store _ _ (by decide)
    rw [← hsame]
    refine setPacketLength_self fun i hi => Mem.store_congr (.inl (Mem.store_above _ ?_))
    rw [length_toBE]
    omega
  have hcmd : getU32 (reply.store 4 (toBE 4 (packetCmd reply).toNat)) 4 = packetCmd reply := by
    apply UInt32.toNat_inj.mp
    have hload := Mem.load_store_self reply 4 (toBE 4 (packetCmd reply).toNat)
    rw [length_toBE] at hload
    rw [getU32_toNat, hload, ofBE_toBE]
    exact Nat.mod_eq_of_lt (packetCmd reply).toNat_lt
  simp only [hlength, hcmd]
  refine setPacketCmd_self fun i hi => ?_
  rcases hi with hi | hi
  · exact Mem.store_below _ hi
  · exact Mem.store_above _ (by rw [length_toBE]; omega)

theorem getU16Raw_swab {m : Mem} {len : UInt16} (h : m.load 0 2 = toBE 2 len.toNat) :
    getU16Raw (m.swab (evenLength len.toNat)) 0 = len := by
  have hlen : getU16 m 0 = len := by
    apply UInt16.toNat_inj.mp
    rw [getU16_toNat, h, ofBE_toBE]
    exact Nat.mod_eq_of_lt len.toNat_lt
  by_cases hzero : len.toNat = 0
  · have hzeros : m.load 0 2 = [0, 0] := by rw [h, hzero]; rfl
    apply UInt16.toNat_inj.mp
    rw [hzero, evenLength, Nat.zero_add, Nat.zero_mod, Mem.swab_zero, getU16Raw_toNat, hzeros]
    rfl
  · have heven : evenLength len.toNat % 2 = 0 := by rw [evenLength]; omega
    have htwo : 0 + 2 ≤ evenLength len.toNat := by rw [evenLength]; omega
    rw [getU16Raw_eq_getU16_swab _ (Nat.zero_mod 2) htwo, Mem.swab_swab m heven, hlen]

/-- Without the checksum, any buffer is what some transfer is turned into. -/
theorem exists_checkResponse (reply : Mem) :
    ∃ ret content, checkResponse 1 ret content = (tfErrNone, reply) := by
  refine ⟨(packetLength reply).toNat + 8,
    (withWireHeader reply).swab (evenLength (packetLength reply).toNat), ?_⟩
  have hlen := getU16Raw_swab (load_withWireHeader_length reply)
  have hresponse : responseLength ((packetLength reply).toNat + 8)
      ((withWireHeader reply).swab (evenLength (packetLength reply).toNat)) = some (packetLength reply) := by
    rw [responseLength_eq_some (by omega) (by rw [hlen]; omega), hlen]
  simp only [checkResponse, hresponse]
  rw [← evenLength, byteSwap, Mem.swab_swab _ (by rw [evenLength]; omega)]
  exact Prod.ext rfl (setHeader_withWireHeader reply)

/-- Any buffer is the reply that some device sends to a call, on a handle without checksums. -/
theorem exists_firstReply (e : Env σ) (tf : TfHandle σ) (c : DecodingCall) (reply : Mem) :
    ∃ (e' : Env σ) (tf' : TfHandle σ),
      e'.toHost = e.toHost ∧ firstReply e' tf' (c.request e' tf') = some reply := by
  obtain ⟨ret, content, hcheck⟩ := exists_checkResponse reply
  refine ⟨{ e with
    write := fun s _ _ bytes => (bytes.length, s)
    read := fun s _ _ _ => ((ret, content), s) }, { tf with dev := true, nocrc := 1 }, rfl, ?_⟩
  refine firstReply_of_answer (if_pos ⟨rfl, rfl⟩) ?_
  rw [acceptedReply, hcheck]
  rfl

/-! ### Fields outside the packet -/

theorem samePacket_set {reply : Mem} {a : Nat} (v : UInt8) (hhead : 8 ≤ a)
    (hbehind : (packetLength reply).toNat ≤ a) : SamePacket reply (reply.set a v) := by
  rw [Mem.set_eq_store]
  refine ⟨packetLength_store _ _ (by omega), ?_, fun i _ hi => Mem.store_below _ (by omega)⟩
  rw [packetCmd, packetCmd, Mem.load_store_disjoint _ (.inl (by omega))]

theorem exists_other_code {reply : Mem} (h : ¬ Fields.code.Inside reply) :
    ∃ reply', SamePacket reply reply' ∧ failCode reply' ≠ failCode reply := by
  simp only [Fields.Inside, Fields.width] at h
  refine ⟨reply.set 11 (reply 11 + 1), samePacket_set _ (by decide) (by omega), fun hcode => ?_⟩
  have hload := congrArg UInt32.toNat (failCode_injective hcode)
  rw [getU32_toNat, getU32_toNat] at hload
  refine Mem.load_ne (a := 8) (n := 4) (i := 11) (by decide) (by decide) ?_
    (eq_of_ofBE_eq (by simp) hload)
  rw [Mem.set_self]
  simp

theorem length_cString_le {m : Mem} {a n : Nat} (fuel : Nat) (h : m (a + n) = 0) :
    (cString m a fuel).length ≤ n := by
  induction fuel generalizing a n with
  | zero => exact Nat.zero_le n
  | succ fuel ih =>
    rw [cString]
    split_ifs with hfirst
    · exact Nat.zero_le n
    · obtain ⟨k, rfl⟩ : ∃ k, n = k + 1 := by
        cases n with
        | zero => exact absurd h hfirst
        | succ k => exact ⟨k, rfl⟩
      rw [List.length_cons]
      exact Nat.succ_le_succ (ih (by rwa [Nat.add_assoc, Nat.add_comm 1]))

theorem le_length_cString {m : Mem} {a n fuel : Nat} (h : ∀ k < n, m (a + k) ≠ 0) (hfuel : n ≤ fuel) :
    n ≤ (cString m a fuel).length := by
  induction n generalizing a fuel with
  | zero => exact Nat.zero_le _
  | succ n ih =>
    obtain ⟨fuel, rfl⟩ : ∃ f, fuel = f + 1 := ⟨fuel - 1, by omega⟩
    have hfirst : m a ≠ 0 := h 0 (by omega)
    rw [cString, if_neg hfirst, List.length_cons]
    refine Nat.succ_le_succ (ih (fun k hk => ?_) (by omega))
    rw [Nat.add_assoc, Nat.add_comm 1]
    exact h (k + 1) (by omega)

/-- All that `unpack_dirent` copies for a name leaves its mark, in the name or behind the entry. -/
theorem length_copied_le {e : Env σ} {m m' : Mem} {a n : Nat} (hsame : unpackDirent e m' a = unpackDirent e m a)
    (hn : 96 ≤ n) (h : n + 1 ≤ (cString m' (a + 14) (sizeofPacket - (a + 14))).length) :
    n + 1 ≤ (cString m (a + 14) (sizeofPacket - (a + 14))).length := by
  have hspill := congrArg (fun entry => entry.spill.length) hsame
  simp only [unpackDirent, List.length_drop] at hspill
  omega

theorem exists_other_name (e : Env σ) {reply : Mem} (hlength : 122 ≤ (packetLength reply).toNat)
    (h : ∀ i, 22 ≤ i → i < (packetLength reply).toNat → reply i ≠ 0) :
    ∃ reply', SamePacket reply reply' ∧ unpackDirent e reply' 8 ≠ unpackDirent e reply 8 := by
  obtain ⟨n, hn⟩ : ∃ n, (packetLength reply).toNat = 8 + 14 + n := ⟨(packetLength reply).toNat - 22, by omega⟩
  have hlt := (packetLength reply).toNat_lt
  -- the name ends right behind the packet in one buffer, and goes on in the other
  have hends {m : Mem} (hzero : m (8 + 14 + n) = 0) :
      (cString m (8 + 14) (sizeofPacket - (8 + 14))).length ≤ n :=
    length_cString_le _ hzero
  have hgoes {m : Mem} (hbefore : ∀ i, 22 ≤ i → i < 8 + 14 + n → m i ≠ 0) (hnext : m (8 + 14 + n) ≠ 0) :
      n + 1 ≤ (cString m (8 + 14) (sizeofPacket - (8 + 14))).length := by
    refine le_length_cString (fun k hk => ?_) (by simp only [sizeofPacket]; omega)
    rcases Nat.lt_succ_iff_lt_or_eq.mp hk with hk | rfl
    · exact hbefore _ (by omega) (by omega)
    · exact hnext
  have hbelow {v : UInt8} {i : Nat} (hi : i < 8 + 14 + n) : reply.set (8 + 14 + n) v i = reply i :=
    Mem.set_of_ne reply v (by omega)
  rw [hn] at h
  by_cases hnext : reply (8 + 14 + n) = 0
  · refine ⟨reply.set (8 + 14 + n) 1, samePacket_set 1 (by omega) (by omega), fun hsame => ?_⟩
    have hlong := hgoes (m := reply.set (8 + 14 + n) 1)
      (fun i hlow hhigh => by rw [hbelow hhigh]; exact h i hlow hhigh) (by rw [Mem.set_self]; decide)
    have hshort := length_copied_le hsame (by omega) hlong
    exact absurd (hends hnext) (Nat.not_le.mpr hshort)
  · refine ⟨reply.set (8 + 14 + n) 0, samePacket_set 0 (by omega) (by omega), fun hsame => ?_⟩
    have hshort := hends (m := reply.set (8 + 14 + n) 0) (Mem.set_self _ _ _)
    have hlong := length_copied_le hsame.symm (by omega) (hgoes h hnext)
    exact absurd hshort (Nat.not_le.mpr hlong)

/-! ### The condition -/

theorem not_decodesInside {e : Env σ} {tf : TfHandle σ} {c : DecodingCall} {result : TfSizeResult}
    {dirent : TfDirent} {reply : Mem} {f : Fields} (hreads : c.Reads e tf reply f) (h : ¬ f.Inside reply) :
    ¬ DecodesInside e tf c result dirent := by
  intro hdecodes
  have hrun := c.run_eq e tf result dirent hreads
  -- another buffer with the same packet, for which the result would have to be the same
  have hother {reply' : Mem} (hsame : SamePacket reply reply') :
      ∃ e' : Env σ, e'.toHost = e.toHost ∧
        f.decode e' reply' result dirent = f.decode e reply result dirent := by
    obtain ⟨e', tf', hhost, hfirst⟩ := exists_firstReply e tf c reply'
    refine ⟨e', hhost, ?_⟩
    have hreads' : c.Reads e' tf' reply' f := ⟨hfirst, by rw [hsame.cmd]; exact hreads.2⟩
    rw [← c.run_eq e' tf' result dirent hreads', ← hrun]
    exact hdecodes.inside reply f hreads e' tf' reply' hhost hfirst hsame
  cases f with
  | code =>
    obtain ⟨reply', hsame, hne⟩ := exists_other_code h
    obtain ⟨e', -, hdecode⟩ := hother hsame
    exact hne (congrArg Decoded.ret hdecode)
  | sizes =>
    have hshort := (hdecodes.short reply .sizes hreads (by simpa [Fields.Inside] using h)).1
    rw [hrun] at hshort
    exact absurd hshort (lt_irrefl 0)
  | descriptor =>
    by_cases hlength : 122 ≤ (packetLength reply).toNat
    · have hname : ∀ i, 22 ≤ i → i < (packetLength reply).toNat → reply i ≠ 0 := by
        intro i hlow hhigh hzero
        exact h ⟨hlength, i, hlow, hhigh, hzero⟩
      obtain ⟨reply', hsame, hne⟩ := exists_other_name e hlength hname
      obtain ⟨e', hhost, hdecode⟩ := hother hsame
      refine hne ?_
      rw [← unpackDirent_host hhost]
      have hdirent := congrArg Decoded.dirent hdecode
      rw [Fields.decode, unpackDirent_host hhost] at hdirent
      rw [unpackDirent_host hhost]
      exact hdirent
    · have hwidth : (packetLength reply).toNat < 8 + Fields.descriptor.width := by
        simp only [Fields.width, sizeofTypefile]
        omega
      have hshort := (hdecodes.short reply .descriptor hreads hwidth).1
      rw [hrun] at hshort
      exact absurd hshort (lt_irrefl 0)

/-- **Short replies.** The results of a call come from its reply alone, and short replies are errors, exactly
if the fields that it reads lie in the reply. -/
theorem decodesInside_iff (e : Env σ) (tf : TfHandle σ) (c : DecodingCall) (result : TfSizeResult)
    (dirent : TfDirent) : DecodesInside e tf c result dirent ↔ FieldsInside e tf c := by
  constructor
  · intro h reply f hreads
    by_contra hinside
    exact not_decodesInside hreads hinside h
  · intro h
    refine ⟨fun reply f hreads e' tf' reply' hhost hfirst hsame => ?_, fun reply f hreads hshort => ?_⟩
    · have hreads' : c.Reads e' tf' reply' f := ⟨hfirst, by rw [hsame.cmd]; exact hreads.2⟩
      rw [c.run_eq e' tf' result dirent hreads', c.run_eq e tf result dirent hreads]
      exact f.decode_congr result dirent hhost hsame (h reply f hreads)
    · have hinside := h reply f hreads
      cases f with
      | code => exact absurd hinside (Nat.not_le.mpr hshort)
      | sizes => exact absurd hinside (Nat.not_le.mpr hshort)
      | descriptor => exact absurd hinside.1 (Nat.not_le.mpr hshort)

/-- A SIZE_RESULT of only a header is decoded, and its numbers come from behind it. -/
theorem not_decodesInside_header :
    ¬ DecodesInside ((replying (Packet.header tfMsgHddSizeResult)).env (Host.blank Unit))
      (TfHandle.opened () fun _ => 0) .size ⟨0, 0⟩ ⟨0, 0, 0, [], 0, []⟩ := by
  obtain ⟨reply, hreply, hreceived⟩ := firstReply_replying (Packet.header tfMsgHddSizeResult)
    (Host.blank Unit) (TfHandle.opened () fun _ => 0) (Request.hddSize.build fun _ => 0) rfl
  have hfields : DecodingCall.size.fields (packetCmd reply) = some .sizes := by
    rw [hreceived.cmd]
    rfl
  refine not_decodesInside ⟨hreply, hfields⟩ fun hinside => ?_
  simp only [Fields.Inside, Fields.width, hreceived.length] at hinside
  exact absurd hinside (by decide)

end Topfield
