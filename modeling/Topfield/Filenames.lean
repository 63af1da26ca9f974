import Topfield.Lib.Counted
import Topfield.Steps
import Topfield.TransferSize

/-!
# Filenames in a request

`tf_req_putfilename` puts a count before the name it writes. The count is decided before the two bytes it
takes are written, from a position that can be odd, and covers the terminator and the padding. What it
counts is exactly what follows it, so that the two names of a rename are read back one after the other.
-/

namespace Topfield

open Lib

/-- What is written for a name at position `pos`: the path with its slashes translated, and one or two
zeros. -/
def paddedName (str : CString) (pos : Nat) : List UInt8 :=
  str.bytes.map translateSlash ++ List.replicate ((str.strlen + 1 + pos) % 2 + 1) 0

theorem length_paddedName (str : CString) (pos : Nat) :
    (paddedName str pos).length = str.strlen + 1 + (str.strlen + 1 + pos) % 2 := by
  simp only [paddedName, List.length_append, List.length_map, List.length_replicate, CString.strlen]
  omega

theorem putfilename_bytes (str : CString) (pos : Nat) :
    (ReqPut.putfilename str true).bytes pos = counted (paddedName str pos) := by
  have hlength := length_paddedName str pos
  rw [counted, hlength]
  simp only [ReqPut.bytes, if_true, paddedName, List.replicate_succ, List.append_assoc,
    List.singleton_append]

theorem translateSlash_eq_zero (c : UInt8) : translateSlash c = 0 ↔ c = 0 := by
  unfold translateSlash
  split
  · rename_i h
    subst h
    decide
  · rfl

theorem nulFree_translated (str : CString) : 0 ∉ str.bytes.map translateSlash := by
  intro h
  obtain ⟨c, hc, hzero⟩ := List.mem_map.mp h
  rw [translateSlash_eq_zero] at hzero
  subst hzero
  exact str.nulFree hc

theorem stringOf_paddedName (str : CString) (pos : Nat) :
    stringOf (paddedName str pos) = str.bytes.map translateSlash :=
  stringOf_append_zeros _ (nulFree_translated str)

/-! ### One field -/

/-- A counted name fits into a packet at its present length. -/
structure FieldFits (req : Mem) (str : CString) : Prop where
  header : packetHeadSize ≤ (packetLength req).toNat
  room : (packetLength req).toNat + 2 + (paddedName str (packetLength req).toNat).length ≤ 0xFFFF

/-- The count and the name have been written after what was there, and the length is even. -/
structure FieldWritten (req : Mem) (str : CString) (filled : Mem) : Prop where
  field : ∃ k n, (k = 1 ∨ k = 2) ∧ n = str.strlen + k ∧
    filled.load (packetLength req).toNat 2 = toBE 2 n ∧
    filled.load ((packetLength req).toNat + 2) n = str.bytes.map translateSlash ++ List.replicate k 0 ∧
    (packetLength filled).toNat = (packetLength req).toNat + 2 + n
  even : (packetLength filled).toNat % 2 = 0
  before : filled.load 4 ((packetLength req).toNat - 4) = req.load 4 ((packetLength req).toNat - 4)

/-- Any packet of at least a header holds some payload. -/
theorem holds_of_length {req : Mem} (h : packetHeadSize ≤ (packetLength req).toNat) :
    Holds req (getU32 req 4) (req.load 8 ((packetLength req).toNat - 8)) := by
  simp only [packetHeadSize] at h
  have hlt := (packetLength req).toNat_lt
  have hcmd : toBE 4 (getU32 req 4).toNat = req.load 4 4 := by
    have hbytes := toBE_ofBE (req.load 4 4)
    rwa [Mem.length_load, ← getU32_toNat] at hbytes
  refine ⟨?_, ?_, ?_⟩
  · rw [Mem.length_load]
    omega
  · rw [Mem.length_load]
    omega
  · rw [Mem.length_load, Mem.load_add, hcmd]

theorem fieldWritten {req : Mem} {str : CString} (h : FieldFits req str) :
    FieldWritten req str (tfReqPutfilename req str true) := by
  have hheader := h.header
  have hroom := h.room
  have hholds := holds_of_length hheader
  simp only [packetHeadSize] at hheader
  have hpos : 8 + (req.load 8 ((packetLength req).toNat - 8)).length = (packetLength req).toNat := by
    rw [Mem.length_load]
    omega
  have hbytes := putfilename_bytes str (packetLength req).toNat
  have hlength : (counted (paddedName str (packetLength req).toNat)).length =
      2 + (paddedName str (packetLength req).toNat).length := by
    rw [counted, List.length_append, length_toBE]
  have hfilled := holds_putfilename hholds str true (by rw [hpos, hbytes, hlength]; omega)
  rw [hpos, hbytes] at hfilled
  have hlast := hfilled.length
  have hbody := hfilled.body
  rw [List.length_append, hlength] at hlast hbody
  have hname := length_paddedName str (packetLength req).toNat
  -- the body splits into what was there, the count and the name
  rw [← List.append_assoc, ← hholds.body] at hbody
  obtain ⟨hbefore, hfield⟩ := Mem.load_split hbody
  rw [counted] at hfield
  obtain ⟨hcount, hstring⟩ := Mem.load_split (n := 2 + (paddedName str (packetLength req).toNat).length)
    (by rwa [List.length_append, length_toBE] at hfield)
  have hat : 4 + (req.load 4 (4 + (req.load 8 ((packetLength req).toNat - 8)).length)).length =
      (packetLength req).toNat := by
    rw [Mem.length_load]
    omega
  rw [hat, length_toBE] at hcount hstring
  refine ⟨⟨(str.strlen + 1 + (packetLength req).toNat) % 2 + 1,
    (paddedName str (packetLength req).toNat).length, ?_, ?_, hcount, hstring, ?_⟩, ?_, ?_⟩
  · omega
  · omega
  · omega
  · omega
  · have hwhole : 4 + (req.load 8 ((packetLength req).toNat - 8)).length = (packetLength req).toNat - 4 := by
      rw [Mem.length_load]
      omega
    rw [Mem.length_load, hwhole] at hbefore
    exact hbefore

/-! ### The names of a rename -/

/-- What follows the header in a transfer, with the exchange of its bytes undone. -/
def wireBody (sent : List UInt8) : List UInt8 := (swapPairs sent).drop 8

/-- The two counted names of a transfer, read in turn. -/
def readNames (sent : List UInt8) : List UInt8 × List UInt8 :=
  let src := readCounted (wireBody sent)
  let dest := readCounted src.2
  (stringOf src.1, stringOf dest.1)

theorem wireBody_transfer {r : Request} (hfits : r.Fits) (req : Mem) :
    ∃ rest, wireBody (tfSendBytes (r.build req)) = r.payload ++ rest := by
  obtain ⟨tail, -, htransfer⟩ := Request.transfer hfits req
  have heven : (wireImage r.cmd r.payload).length % 2 = 0 := by
    rw [length_wireImage, evenLength]
    omega
  have hheader : (toBE 2 (8 + r.payload.length) ++ (toBE 2 (packetCrc r.cmd r.payload).toNat ++
      toBE 4 r.cmd.toNat)).length = 8 := by
    simp only [List.length_append, length_toBE]
  refine ⟨List.replicate ((packetImage r.cmd r.payload).length % 2) 0 ++ swapPairs tail, ?_⟩
  rw [htransfer, wireBody, swapPairs_append _ _ heven, wireImage, swapPairs_swapPairs, padEven_eq_append,
    packetImage]
  calc
    _ = ((toBE 2 (8 + r.payload.length) ++ (toBE 2 (packetCrc r.cmd r.payload).toNat ++
          toBE 4 r.cmd.toNat)) ++ (r.payload ++
          (List.replicate ((packetImage r.cmd r.payload).length % 2) 0 ++ swapPairs tail))).drop 8 := by
      simp only [List.append_assoc, packetImage]
    _ = _ := List.drop_left' hheader

theorem payload_rename (src dest : CString) :
    (Request.rename src dest).payload = counted (paddedName src 8) ++
      counted (paddedName dest (8 + (counted (paddedName src 8)).length)) := by
  have hfirst : [] ++ (ReqPut.putfilename src true).bytes (8 + ([] : List UInt8).length) =
      counted (paddedName src 8) := putfilename_bytes src 8
  simp only [Request.payload, Request.puts, putBytes, List.foldl_cons, List.foldl_nil]
  rw [hfirst, putfilename_bytes]

theorem readNames_rename {src dest : CString} (hfits : (Request.rename src dest).Fits) (req : Mem) :
    readNames (tfSendBytes ((Request.rename src dest).build req)) =
      (src.bytes.map translateSlash, dest.bytes.map translateSlash) := by
  obtain ⟨rest, hbody⟩ := wireBody_transfer hfits req
  have hlength : (Request.rename src dest).length ≤ 0xFFFF := hfits
  rw [Request.length, payload_rename, List.length_append, counted, counted, List.length_append,
    List.length_append] at hlength
  rw [payload_rename, List.append_assoc] at hbody
  simp only [readNames, hbody]
  rw [readCounted_counted _ (by omega)]
  simp only
  rw [readCounted_counted _ (by rw [counted, List.length_append]; omega), stringOf_paddedName,
    stringOf_paddedName]

/-- **Filename fields.** A counted name is its count and exactly the bytes it counts, and the two names of
a rename are read back from its transfer, so that different names make different packets. -/
theorem filename_fields :
    (∀ (req : Mem) (str : CString), FieldFits req str →
      FieldWritten req str (tfReqPutfilename req str true)) ∧
    (∀ (src dest : CString) (req : Mem), (Request.rename src dest).Fits →
      readNames (tfSendBytes ((Request.rename src dest).build req)) =
        (src.bytes.map translateSlash, dest.bytes.map translateSlash)) ∧
    (∀ (src dest src' dest' : CString) (req req' : Mem), (Request.rename src dest).Fits →
      (Request.rename src' dest').Fits →
      (src.bytes.map translateSlash, dest.bytes.map translateSlash) ≠
        (src'.bytes.map translateSlash, dest'.bytes.map translateSlash) →
      tfSendBytes ((Request.rename src dest).build req) ≠
        tfSendBytes ((Request.rename src' dest').build req')) := by
  refine ⟨fun req str => fieldWritten, fun src dest req hfits => readNames_rename hfits req, ?_⟩
  intro src dest src' dest' req req' hfits hfits' hne hsame
  apply hne
  rw [← readNames_rename hfits req, ← readNames_rename hfits' req', hsame]

theorem filename_fields_rename :
    let a : CString := ⟨[0x2F, 0x61], by decide⟩
    let b : CString := ⟨[0x2F, 0x62, 0x62], by decide⟩
    FieldWritten (tfReqInit (fun _ => 0xAA) tfMsgHddMkdir) a
        (tfReqPutfilename (tfReqInit (fun _ => 0xAA) tfMsgHddMkdir) a true) ∧
      readNames (tfSendBytes ((Request.rename a b).build fun _ => 0xAA)) =
        ([0x5C, 0x61], [0x5C, 0x62, 0x62]) ∧
      tfSendBytes ((Request.rename a b).build fun _ => 0xAA) ≠
        tfSendBytes ((Request.rename b a).build fun _ => 0x55) :=
  ⟨filename_fields.1 _ _ ⟨by decide, by decide⟩, filename_fields.2.1 _ _ _ (by decide),
    filename_fields.2.2 _ _ _ _ _ _ (by decide) (by decide) (by decide)⟩

end Topfield
