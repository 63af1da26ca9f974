import Topfield.Codec

/-!
# What a reply is checked for

`tf_get_response` compares the received count with the header size and with the announced length, but
never the announced length with the header size. A length below four makes the size of the checksum
negative, and one below eight is accepted whenever the checksum does not object, so the two properties
the checks are there for hold exactly off those lengths.
-/

namespace Topfield

open Lib

variable {σ : Type} (e : Env σ)

/-- The count and the bytes that the next bulk read of a reply yields. -/
def received (tf : TfHandle σ) : Int × Mem := (e.read tf.usb 0x82 tf.timeout sizeofPacket).1

/-- The length a reply announces, if it has arrived. -/
def announced (tf : TfHandle σ) : Option UInt16 := responseLength (received e tf).1 (received e tf).2

/-- The checksum field of a received packet of length `len` and the checksum of what follows it. -/
def storedCrc (content : Mem) (len : UInt16) : UInt16 :=
  getU16 (byteSwap content (evenLength len.toNat)) 2

def computedCrc (content : Mem) (len : UInt16) : UInt16 :=
  crc16Ansi 0 ((byteSwap content (evenLength len.toNat)).offset 4) (sizeT (crcSize len))

/-- Every checksum is taken inside the received packet, and an accepted packet has a whole header and
no more bytes than were received. -/
structure Validates (tf : TfHandle σ) (reply : Mem) : Prop where
  crc : tf.dev = true → tf.nocrc = 0 → ∀ len, announced e tf = some len →
    0 ≤ crcSize len ∧ crcSize len ≤ (received e tf).1 - 4
  accepted : (tfGetResponse e tf reply).ret = tfErrNone →
    8 ≤ (packetLength (tfGetResponse e tf reply).out).toNat ∧
      (packetLength (tfGetResponse e tf reply).out).toNat ≤ (received e tf).1

/-- The announced length covers the header, or it covers the checksum field and the checksum is wrong. -/
def LengthCovered (tf : TfHandle σ) : Prop :=
  tf.dev = true → ∀ len, announced e tf = some len →
    8 ≤ len.toNat ∨
      4 ≤ len.toNat ∧ tf.nocrc = 0 ∧
        storedCrc (received e tf).2 len ≠ computedCrc (received e tf).2 len

theorem responseLength_bounds {ret : Int} {content : Mem} {len : UInt16}
    (h : responseLength ret content = some len) : 8 ≤ ret ∧ len.toNat ≤ ret := by
  unfold responseLength at h
  split at h
  · cases h
  · rename_i hhead
    simp only at h
    split at h
    · cases h
    · rename_i hlen
      obtain rfl := Option.some.inj h
      exact ⟨by simpa using hhead, by simpa using hlen⟩

theorem checkResponse_of_none (nocrc : Int) {ret : Int} {content : Mem}
    (h : responseLength ret content = none) : checkResponse nocrc ret content = (tfErrIo, content) := by
  simp only [checkResponse, h]

theorem checkResponse_of_some (nocrc : Int) {ret : Int} {content : Mem} {len : UInt16}
    (h : responseLength ret content = some len) :
    (checkResponse nocrc ret content).1 =
        (if nocrc = 0 ∧ storedCrc content len ≠ computedCrc content len then tfErrCrc else tfErrNone) ∧
      packetLength (checkResponse nocrc ret content).2 = len := by
  simp only [checkResponse, h, storedCrc, computedCrc, evenLength]
  refine ⟨?_, ?_⟩
  · by_cases hnocrc : nocrc = 0
    · simp [hnocrc]
    · simp [hnocrc]
  · rw [setPacketCmd, packetLength_store _ _ (by decide), packetLength_setPacketLength]

theorem tfGetResponse_of_dev {tf : TfHandle σ} (reply : Mem) (hdev : tf.dev = true) :
    (tfGetResponse e tf reply).ret =
        (checkResponse tf.nocrc (received e tf).1 (received e tf).2).1 ∧
      (tfGetResponse e tf reply).out =
        (checkResponse tf.nocrc (received e tf).1 (received e tf).2).2 := by
  simp [tfGetResponse, hdev, received]

/-- **Reply validation.** The checks do what they are for exactly when a reply that announces fewer than
eight bytes announces at least four and is caught by its checksum. -/
theorem validates_iff (tf : TfHandle σ) (reply : Mem) : Validates e tf reply ↔ LengthCovered e tf := by
  constructor
  · intro h hdev len hlen
    by_contra hshort
    push Not at hshort
    obtain ⟨hhead, hcaught⟩ := hshort
    obtain ⟨hret, hout⟩ := tfGetResponse_of_dev e reply hdev
    obtain ⟨herror, hlength⟩ := checkResponse_of_some tf.nocrc hlen
    by_cases hfour : 4 ≤ len.toNat
    · have haccepted : (tfGetResponse e tf reply).ret = tfErrNone := by
        rw [hret, herror, if_neg]
        rintro ⟨hnocrc, hne⟩
        exact hne (hcaught hfour hnocrc)
      have hbound := (h.accepted haccepted).1
      rw [hout, hlength] at hbound
      omega
    · by_cases hnocrc : tf.nocrc = 0
      · have hsize := (h.crc hdev hnocrc len hlen).1
        simp only [crcSize] at hsize
        omega
      · have haccepted : (tfGetResponse e tf reply).ret = tfErrNone := by
          rw [hret, herror, if_neg]
          exact fun hboth => hnocrc hboth.1
        have hbound := (h.accepted haccepted).1
        rw [hout, hlength] at hbound
        omega
  · intro h
    refine ⟨fun hdev _ len hlen => ?_, fun haccepted => ?_⟩
    · have hbounds := responseLength_bounds hlen
      have hfour : 4 ≤ len.toNat := by
        rcases h hdev len hlen with hhead | ⟨hfour, -, -⟩ <;> omega
      simp only [crcSize]
      omega
    · by_cases hdev : tf.dev = true
      · obtain ⟨hret, hout⟩ := tfGetResponse_of_dev e reply hdev
        rw [hret] at haccepted
        cases hlen : announced e tf with
        | none =>
          rw [checkResponse_of_none _ hlen] at haccepted
          exact absurd haccepted (by simp)
        | some len =>
          obtain ⟨herror, hlength⟩ := checkResponse_of_some tf.nocrc hlen
          rw [hout, hlength]
          refine ⟨?_, (responseLength_bounds hlen).2⟩
          rcases h hdev len hlen with hhead | ⟨-, hnocrc, hne⟩
          · exact hhead
          · rw [herror, if_pos ⟨hnocrc, hne⟩] at haccepted
            exact absurd haccepted (by decide)
      · simp [tfGetResponse, hdev] at haccepted

def zeroDevice : Env Unit where
  toHost := Host.blank _
  write _ _ _ bytes := (bytes.length, ())
  read _ _ _ _ := ((8, fun _ => 0), ())

/-- Eight zero bytes announce a length of zero, and the checksum is taken over `(size_t)-4` bytes. -/
theorem not_validates_zero_length :
    ¬ Validates zeroDevice (TfHandle.opened () fun _ => 0) fun _ => 0 := by
  intro h
  have hsize := h.crc rfl rfl 0 (by decide)
  exact absurd hsize.1 (by decide)

end Topfield
