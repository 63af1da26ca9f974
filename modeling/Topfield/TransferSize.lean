import Topfield.Commands
import Topfield.Codec

/-!
# The size of a transfer

`tf_send` pads packets of odd length by one byte and packets whose length is a multiple of 64 by two.
The two rules are alternatives, so an odd length just below a multiple of 64 is padded up to it. File
data is the only request of odd length: every filename is padded to an even boundary.
-/

namespace Topfield

open Lib

/-- What the padding of a request's transfer is for. -/
structure TransferSize (r : Request) (req : Mem) : Prop where
  even : (tfSendBytes (r.build req)).length % 2 = 0
  whole : r.length ≤ (tfSendBytes (r.build req)).length
  bounded : (tfSendBytes (r.build req)).length ≤ sizeofPacket
  odd64 : (tfSendBytes (r.build req)).length % 64 ≠ 0

theorem length_tfSendBytes {r : Request} (hfits : r.Fits) (req : Mem) :
    (tfSendBytes (r.build req)).length = evenLength r.length + sendTail r.length := by
  rw [tfSendBytes, Mem.length_load]
  exact tfSendLen_eq (Request.holds hfits req)

theorem length_putfilename (str : CString) (addlength : Bool) (pos : Nat) :
    ((ReqPut.putfilename str addlength).bytes pos).length =
      (if addlength then 2 else 0) + (str.strlen + 1) + (str.strlen + 1 + pos) % 2 := by
  cases addlength <;> simp [ReqPut.bytes, CString.strlen] <;> omega

theorem length_fileData (offset : UInt64) (data : List UInt8) :
    (Request.fileData offset data).length = 16 + data.length := by
  simp [Request.length, Request.payload, Request.puts, putBytes, ReqPut.bytes]
  omega

theorem fits_fileData (offset : UInt64) {data : List UInt8} (h : data.length ≤ maxPutSize) :
    (Request.fileData offset data).Fits := by
  rw [Request.Fits, length_fileData]
  simp only [maxPutSize] at h
  omega

/-- Only file data can have an odd length: what follows a filename starts at an even position. -/
theorem even_length {r : Request} (h : ∀ offset data, r ≠ .fileData offset data) :
    r.length % 2 = 0 := by
  have hput (put : ReqPut) (rest : List ReqPut) (payload : List UInt8) :
      putBytes payload (put :: rest) =
        putBytes (payload ++ put.bytes (8 + payload.length)) rest := rfl
  have hnil (payload : List UInt8) : putBytes payload [] = payload := rfl
  have h8 (value : UInt8) (pos : Nat) : ((ReqPut.put8 value).bytes pos).length = 1 := rfl
  have h32 (value : UInt32) (pos : Nat) : ((ReqPut.put32 value).bytes pos).length = 4 := rfl
  have h64 (value : UInt64) (pos : Nat) : ((ReqPut.put64 value).bytes pos).length = 8 := rfl
  have hdata (data : List UInt8) (pos : Nat) : ((ReqPut.putdata data).bytes pos).length = data.length :=
    rfl
  cases r with
  | fileData offset data => exact absurd rfl (h offset data)
  | fileStart typefile =>
    have := typefile.length
    simp only [Request.length, Request.payload, Request.puts, hput, hnil, List.length_append, hdata,
      List.length_nil]
    omega
  | _ =>
    simp only [Request.length, Request.payload, Request.puts, hput, hnil, List.length_append,
      List.length_nil, length_putfilename, h8, h32, h64, if_true, if_false, Bool.false_eq_true]
    try omega

/-- **Transfer sizes.** The padding does its work on every request but file data of 47 bytes modulo 64. -/
theorem transferSize_iff {r : Request} (hfits : r.Fits) (req : Mem) :
    TransferSize r req ↔ ∀ offset data, r = .fileData offset data → data.length % 64 ≠ 47 := by
  have hn := length_tfSendBytes hfits req
  have hmax : r.length ≤ 0xFFFF := hfits
  constructor
  · rintro h offset data rfl
    have h64 := h.odd64
    rw [hn, length_fileData] at h64
    intro h47
    simp only [evenLength, sendTail] at h64
    split_ifs at h64 <;> omega
  · intro h
    have hresidue : r.length % 64 ≠ 63 := by
      by_cases hdata : ∃ offset data, r = .fileData offset data
      · obtain ⟨offset, data, rfl⟩ := hdata
        have := h offset data rfl
        rw [length_fileData]
        omega
      · push Not at hdata
        have := even_length hdata
        omega
    have hsize : (tfSendBytes (r.build req)).length =
        if r.length % 64 = 0 then r.length + 2 else r.length + r.length % 2 := by
      rw [hn]
      simp only [evenLength, sendTail]
      split_ifs <;> omega
    have hpacket : sizeofPacket = 0x10000 := rfl
    refine ⟨?_, ?_, ?_, ?_⟩ <;> rw [hsize] <;> split_ifs <;> omega

theorem transferSize_iff_rename :
    TransferSize (.rename ⟨[0x2F, 0x61], by decide⟩ ⟨[0x2F, 0x62], by decide⟩) (fun _ => 0xAA) ↔
      ∀ offset data, Request.rename ⟨[0x2F, 0x61], by decide⟩ ⟨[0x2F, 0x62], by decide⟩ =
        .fileData offset data → data.length % 64 ≠ 47 :=
  transferSize_iff (by decide) _

/-- Forty-seven bytes of file data make a packet of 63, which is sent as 64. -/
theorem not_transferSize_63 :
    ¬ TransferSize (.fileData 0 (List.replicate 47 0)) fun _ => 0 := by
  intro h
  have hfits : (Request.fileData 0 (List.replicate 47 0)).Fits := by decide
  have h64 := h.odd64
  rw [length_tfSendBytes hfits, length_fileData] at h64
  exact absurd h64 (by decide)

end Topfield
