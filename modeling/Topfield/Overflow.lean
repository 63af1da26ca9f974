import Topfield.Building
import Topfield.Steps
import Topfield.TransferSize

/-!
# Paths that do not fit

No command checks its paths before they are put into a request. The length of the packet is 16 bits wide,
so a path that is too long makes it wrap to the start of the packet, where the rest of the path is written
over the header, and the request is sent all the same.
-/

namespace Topfield

open Lib

variable {σ : Type}

inductive PathCommand
  | delete (path : CString)
  | mkdir (path : CString)
  | rename (src dest : CString)
  | dirFirst (path : CString) (result : TfDirEntries)
  | get (path : CString) (offset : UInt64) (dirent : TfDirent)
  | put (path : CString) (size : UInt64) (stamp : Int) (offset : UInt64)

namespace PathCommand

def run (e : Env σ) (tf : TfHandle σ) : PathCommand → Call σ
  | delete path => tfCmdDelete e tf path
  | mkdir path => tfCmdMkdir e tf path
  | rename src dest => tfCmdRename e tf src dest
  | dirFirst path result => (tfCmdDirFirst e tf path result).toCall
  | get path offset dirent => (tfCmdGet e tf path offset dirent).toCall
  | put path size stamp offset => tfCmdPut e tf path size stamp offset

def request : PathCommand → Request
  | delete path => .delete path
  | mkdir path => .mkdir path
  | rename src dest => .rename src dest
  | dirFirst path _ => .dir path
  | get path offset _ => .fileGet path offset
  | put path _ _ offset => .filePut path offset

/-- The requests that may be built for a command: a put goes on with a file descriptor. -/
def Builds (c : PathCommand) (r : Request) : Prop :=
  r = c.request ∨ ∃ path size stamp offset typefile, c = put path size stamp offset ∧ r = .fileStart typefile

/-- The command returns an error and has sent nothing. -/
def Refused (e : Env σ) (tf : TfHandle σ) (c : PathCommand) : Prop :=
  (c.run e.logged tf.logging).ret < 0 ∧ transfers (c.run e.logged tf.logging).tf.usb.2 = []

/-- Requests are built inside their packet, whatever the buffer holds, and paths that do not fit are
refused. -/
structure SizeSafe (c : PathCommand) : Prop where
  inside : ∀ r, c.Builds r → ∀ req, BuildsInside (tfReqInit req r.cmd) r.puts
  refused : ¬ c.request.Fits → ∀ (σ : Type) (e : Env σ) (tf : TfHandle σ), c.Refused e tf

end PathCommand

theorem buildsInside_request {r : Request} (hfits : r.Fits) (req : Mem) :
    BuildsInside (tfReqInit req r.cmd) r.puts := by
  have hlength := packetLength_tfReqInit req r.cmd
  rw [buildsInside_iff r.puts (le_of_eq hlength.symm), hlength, writtenLength_eq_length hfits]
  exact hfits

/-! ### Nothing is refused -/

def deafDevice : Env Unit where
  toHost := Host.blank _
  write _ _ _ _ := (-1, ())
  read _ _ _ _ := ((-1, fun _ => 0), ())

/-- A command whose paths are anything at all gets as far as sending its request. -/
theorem run_deafDevice (c : PathCommand) (buf : Mem) :
    (c.run deafDevice.logged (TfHandle.opened () buf).logging).tf.usb.2 =
      [.wrote (tfSendBytes (c.request.build fun _ => 0)) (-1)] := by
  have hsend (req : Mem) : tfSend deafDevice.logged (TfHandle.opened () buf).logging req =
      ⟨tfErrIo, { (TfHandle.opened () buf).logging with
        error := tfErrIo
        usb := ((), [.wrote (tfSendBytes req) (-1)]) }⟩ := by
    have hlength : (-1 : Int) ≠ (tfSendBytes req).length := by omega
    rw [tfSend_logged deafDevice req rfl rfl]
    simp only [if_neg hlength]
    rfl
  have hcmd (req : Mem) : (tfCmd deafDevice.logged (TfHandle.opened () buf).logging req).tf.usb.2 =
      [.wrote (tfSendBytes req) (-1)] := by
    rw [tfCmd_of_send_error (hsend req) tfErrIo_neg.ne]
  cases c with
  | delete path => exact hcmd _
  | mkdir path => exact hcmd _
  | rename src dest => exact hcmd _
  | dirFirst path result =>
    simp only [PathCommand.run, tfCmdDirFirst, hsend, if_neg tfErrIo_neg.ne]
    rfl
  | get path offset dirent =>
    simp only [PathCommand.run, tfCmdGet, hsend, if_neg tfErrIo_neg.ne]
    rfl
  | put path size stamp offset =>
    simp only [PathCommand.run, tfCmdPut, hsend, if_neg tfErrIo_neg.ne]
    rfl

/-- **Paths of any length.** The requests for some paths are safe exactly if they fit. -/
theorem sizeSafe_iff (c : PathCommand) : c.SizeSafe ↔ c.request.Fits := by
  constructor
  · intro h
    by_contra hfits
    have hrefused := (h.refused hfits Unit deafDevice (TfHandle.opened () fun _ => 0)).2
    rw [run_deafDevice] at hrefused
    exact absurd hrefused (List.cons_ne_nil _ _)
  · intro hfits
    refine ⟨?_, fun hnot => absurd hfits hnot⟩
    rintro r (rfl | ⟨-, -, -, -, typefile, -, rfl⟩) req
    · exact buildsInside_request hfits req
    · exact buildsInside_request (fits_fileStart typefile) req

theorem fits_delete_iff (path : CString) : (Request.delete path).Fits ↔ path.strlen ≤ 65525 := by
  have hlength : (Request.delete path).length = 8 + ((ReqPut.putfilename path false).bytes 8).length := rfl
  rw [Request.Fits, hlength, length_putfilename]
  simp only [Bool.false_eq_true, if_false]
  omega

/-- A path that ends with the packet, or runs over its end with the terminator, makes the length wrap to
zero. -/
theorem packetLength_wrapped (req : Mem) (cmd : UInt32) {path : CString}
    (hpath : path.strlen = 65526 ∨ path.strlen = 65527) :
    packetLength (fillRequest req cmd [.putfilename path false]) = 0 := by
  have hstrlen : path.strlen = path.bytes.length := rfl
  have hinit := (holds_init req cmd).length
  have hchars := (holds_putchars (holds_init req cmd) path.bytes (by simp only [List.length_nil]; omega)).length
  have hwrap : (path.strlen + 1) % 2 ^ 32 = path.strlen + 1 := Nat.mod_eq_of_lt (by omega)
  have htake : (path.bytes ++ [0]).take (path.strlen + 1) = path.bytes ++ [0] :=
    List.take_of_length_le (by rw [List.length_append, List.length_singleton, hstrlen])
  rw [List.length_append, List.length_map, List.length_nil, Nat.zero_add, ← hstrlen] at hchars
  simp only [fillRequest, ReqPut.run, tfReqPutfilename, hwrap, htake, hinit, List.length_nil,
    List.foldl_append, List.foldl_cons,
    List.foldl_nil, tfReqPut8_eq, Bool.false_eq_true, if_false] at hchars ⊢
  generalize path.bytes.foldl (fun req c => tfReqPutdata req [translateSlash c]) (tfReqInit req cmd) = named
    at hchars ⊢
  have hnul : (packetLength (tfReqPutdata named [translateSlash 0])).toNat = (8 + path.strlen + 1) % 0x10000 := by
    rw [packetLength_putdata _ (by omega), hchars, List.length_singleton]
  apply UInt16.toNat_inj.mp
  rcases hpath with hpath | hpath
  · rw [hpath] at hnul ⊢
    rw [if_pos (by decide), packetLength_putdata [0] (by rw [hnul]; decide), hnul]
    rfl
  · rw [hpath] at hnul ⊢
    rw [if_neg (by decide), hnul]
    rfl

/-- A packet whose length has wrapped to zero is sent as its first two bytes. -/
theorem tfSendLen_wrapped {req : Mem} (h : packetLength req = 0) : tfSendLen (tfReqDone req) = 2 := by
  have hlength : getU16Raw (tfReqDone req) 0 = 0 := by
    have hload (m : Mem) (crc : Nat) : ((m.store 0 (toBE 2 0)).store 2 (toBE 2 crc)).load 0 2 = [0, 0] := by
      rw [Mem.load_store_disjoint _ (.inl (by decide))]
      exact Mem.load_store_self m 0 (toBE 2 0)
    have hzero : (0 : UInt16).toNat = 0 := rfl
    simp only [tfReqDone, h, hzero, Nat.zero_mod, if_neg (show ¬ 0 = 1 by decide), byteSwap, Mem.swab_zero,
      putU16_eq_store]
    apply UInt16.toNat_inj.mp
    rw [getU16Raw_toNat, hload]
    rfl
  rw [tfSendLen, hlength]
  rfl

theorem not_sizeSafe_delete {path : CString} (h : 65525 < path.strlen) :
    ¬ (PathCommand.delete path).SizeSafe := by
  intro hsafe
  have hfits := (fits_delete_iff path).mp ((sizeSafe_iff _).mp hsafe)
  omega

def longPath : CString where
  bytes := List.replicate 65526 0x61
  nulFree := fun h => absurd (List.eq_of_mem_replicate h) (by decide)

/-- A path of 65526 bytes makes the length wrap to zero. -/
theorem not_sizeSafe_longPath : ¬ (PathCommand.delete longPath).SizeSafe := by
  have hlength : longPath.strlen = 65526 := List.length_replicate
  exact not_sizeSafe_delete (by rw [hlength]; decide)

end Topfield
