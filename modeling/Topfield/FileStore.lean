import Topfield.FileServer
import Topfield.Lib.Pieces
import Topfield.Lib.Simulation

/-!
# The library as a file store

What clients make of a device that keeps files: whole uploads and downloads, deletions and renamings. What they
get is what a map from names to contents would give them, and that is the abstract model here.
-/

namespace Topfield

open Lib

/-- A path that fits into every request, also twice. -/
structure FilePath where
  path : CString
  short : path.strlen ≤ 32000

abbrev FilePath.name (path : FilePath) : FileName := path.path.fileName

/-- A block of an upload. -/
structure Block where
  bytes : List UInt8
  small : bytes.length ≤ maxPutSize

inductive FileCall
  | put (path : FilePath) (size : UInt64) (stamp : Int) (blocks : List Block)
  | get (path : FilePath) (offset : UInt64) (dirent : TfDirent) (buf : TfBuffer)
  | delete (path : FilePath)
  | rename (src dest : FilePath)

inductive FileResult
  | done
  | failed (ret : Int)
  | contents (bytes : List UInt8)
deriving DecidableEq

def numbered : (offset : Nat) → List Block → List (UInt64 × List UInt8)
  | _, [] => []
  | offset, block :: rest => (UInt64.ofNat offset, block.bytes) :: numbered (offset + block.bytes.length) rest

def resultOf (rets : List Int) : FileResult :=
  match rets.find? fun ret => ret ≠ tfErrNone with
  | none => .done
  | some ret => .failed ret

/-- The pieces of a download one after the other, if it came to the end of the file. -/
def assemble : List Outcome → FileResult
  | [] => .failed tfErrNone
  | .ended ret :: _ => if ret = tfErrDone then .contents [] else .failed ret
  | .chunk _ _ data :: rest =>
    match assemble rest with
    | .contents bytes => .contents (data ++ bytes)
    | result => result

/-- A client's calls for one file. `calls` is how often it is ready to call `tf_cmd_get_next`. -/
def fileStep {σ : Type} (e : Env σ) (calls : σ → Nat) (tf : TfHandle (σ × List Event)) :
    FileCall → FileResult × TfHandle (σ × List Event)
  | .put path size stamp blocks =>
    let run := upload e.logged tf path.path size stamp 0 (numbered 0 blocks)
    (resultOf run.1, run.2)
  | .get path offset dirent buf =>
    let get := tfCmdGet e.logged tf path.path offset dirent
    if get.ret = 0 then
      let run := download e buf (calls get.tf.usb.1) get.tf
      (assemble run.1, run.2)
    else (.failed get.ret, get.tf)
  | .delete path =>
    let call := tfCmdDelete e.logged tf path.path
    (resultOf [call.ret], call.tf)
  | .rename src dest =>
    let call := tfCmdRename e.logged tf src.path dest.path
    (resultOf [call.ret], call.tf)

/-! ### The abstract store -/

abbrev Store := FileName → Option (List UInt8)

def storeStep (store : Store) : FileCall → FileResult × Store
  | .put path _ _ blocks => (.done, Function.update store path.name (some (blocks.flatMap Block.bytes)))
  | .get path offset _ _ =>
    match store path.name with
    | none => (.failed (-6), store)
    | some data => (.contents (data.drop offset.toNat), store)
  | .delete path =>
    if store path.name = none then (.failed (-6), store)
    else (.done, Function.update store path.name none)
  | .rename src dest =>
    if store src.name = none ∨ store dest.name ≠ none then (.failed (-6), store)
    else (.done, Function.update (Function.update store src.name none) dest.name (store src.name))

/-- The device of the handle keeps the files of the store, and nothing is left of a download. -/
structure Serves (tf : TfHandle (FileServer × List Event)) (store : Store) : Prop where
  dev : tf.dev = true
  pending : tf.pending = 0
  files : tf.usb.1.files = store

/-! ### Requests that fit -/

namespace FilePath

theorem length_paddedName_le (path : FilePath) (pos : Nat) : (paddedName path.path pos).length ≤ 32002 := by
  have hshort := path.short
  rw [length_paddedName]
  omega

theorem length_counted_le (path : FilePath) (pos : Nat) : (counted (paddedName path.path pos)).length ≤ 32004 := by
  have hname := path.length_paddedName_le pos
  rw [counted, List.length_append, length_toBE]
  omega

theorem paddedName_lt (path : FilePath) (pos : Nat) : (paddedName path.path pos).length < 0x10000 :=
  Nat.lt_of_le_of_lt (path.length_paddedName_le pos) (by decide)

theorem fits_fileSend (path : FilePath) (dir : UInt8) (offset : UInt64) :
    requestLength [.put8 dir, .putfilename path.path true, .put64 offset] ≤ 0xFFFF := by
  have hname := path.length_counted_le 9
  rw [requestLength, Request.payload_fileSend, List.length_cons, List.length_append, length_toBE]
  omega

theorem fits_delete (path : FilePath) : (Request.delete path.path).Fits := by
  have hname := path.length_paddedName_le 8
  rw [Request.Fits, Request.length, Request.payload_delete]
  omega

theorem fits_rename (src dest : FilePath) : (Request.rename src.path dest.path).Fits := by
  have hsrc := src.length_counted_le 8
  have hdest := dest.length_counted_le (8 + (counted (paddedName src.path 8)).length)
  rw [Request.Fits, Request.length, payload_rename, List.length_append]
  omega

end FilePath

/-! ### What the client makes of the results -/

theorem resultOf_replicate (n : Nat) : resultOf (List.replicate n tfErrNone) = .done := by
  have hnone : (List.replicate n tfErrNone).find? (fun ret => ret ≠ tfErrNone) = none := by
    rw [List.find?_eq_none]
    intro ret hret
    rw [List.eq_of_mem_replicate hret]
    decide
  rw [resultOf, hnone]

theorem assemble_outcomes (chunks : List Chunk) :
    assemble (outcomes chunks) = .contents (chunks.flatMap Chunk.data) := by
  induction chunks with
  | nil => rfl
  | cons chunk rest ih =>
    show assemble (.chunk _ _ chunk.data :: outcomes rest) = _
    rw [assemble, ih]
    rfl

theorem flatMap_chunksFrom (offset : Nat) (pieces : List Piece) :
    (chunksFrom offset pieces).flatMap Chunk.data = pieces.flatMap Piece.bytes := by
  induction pieces generalizing offset with
  | nil => rfl
  | cons piece rest ih => rw [chunksFrom, List.flatMap_cons, ih, List.flatMap_cons]

/-! ### The calls -/

section Calls

variable (division : Division) (descriptor : FileName → Typefile) (stale : FileServer → Mem) (host : Host FileServer)
  {s : FileServer} {tf : TfHandle (FileServer × List Event)} {store : Store}

theorem At.serves (h : At s 0 tf) : Serves tf s.files := ⟨h.dev, h.pending, by rw [h.device]⟩

theorem Serves.at (h : Serves tf store) : At tf.usb.1 0 tf := ⟨h.dev, rfl, h.pending⟩

theorem putBlocks_at (offset : Nat) (blocks : List Block) (hoffset : s.data.length = offset)
    (h : At (s.handing []) 0 tf) :
    let run := putBlocks ((fileServer division descriptor stale).env host).logged (numbered offset blocks) tf
    run.1 = List.replicate blocks.length tfErrNone ∧
      At ({ s with data := s.data ++ blocks.flatMap Block.bytes }.handing []) 0 run.2 := by
  induction blocks generalizing s tf offset with
  | nil =>
    rw [List.flatMap_nil, List.append_nil]
    exact ⟨rfl, h⟩
  | cons block rest ih =>
    obtain ⟨hret, hput⟩ := tfCmdPutData_at division descriptor stale host h block.small
    subst hoffset
    obtain ⟨hrets, hrest⟩ := ih _ List.length_append hput
    rw [List.append_assoc] at hrest
    simp only [numbered, putBlocks]
    refine ⟨?_, hrest⟩
    rw [hret, hrets]
    rfl

theorem put_serves (h : Serves tf store) (path : FilePath) (size : UInt64) (stamp : Int) (blocks : List Block) :
    let run := upload ((fileServer division descriptor stale).env host).logged tf path.path size stamp 0
      (numbered 0 blocks)
    resultOf run.1 = .done ∧
      Serves run.2 (Function.update store path.name (some (blocks.flatMap Block.bytes))) := by
  obtain ⟨hput, hopened⟩ := tfCmdPut_at division descriptor stale host h.at path.path size stamp 0
    (path.fits_fileSend dirPut 0) (path.paddedName_lt 9)
  obtain ⟨hdata, hstored⟩ := putBlocks_at division descriptor stale host 0 blocks rfl hopened
  obtain ⟨hdone, hended⟩ := tfCmdPutDone_at division descriptor stale host hstored
  obtain ⟨-, -, rfl⟩ := h
  simp only [upload]
  refine ⟨?_, hended.serves⟩
  rw [hput, hdata, hdone, ← List.replicate_succ, ← List.replicate_succ', resultOf_replicate]

theorem get_serves (h : Serves tf store) (path : FilePath) (offset : UInt64) (dirent : TfDirent) (buf : TfBuffer) :
    let call := fileStep ((fileServer division descriptor stale).env host) (fun s => s.queue.length) tf
      (.get path offset dirent buf)
    call.1 = (storeStep store (.get path offset dirent buf)).1 ∧ Serves call.2 store := by
  have hat := h.at
  obtain ⟨-, -, rfl⟩ := h
  simp only [fileStep, storeStep]
  cases hfile : tf.usb.1.files path.name with
  | none =>
    obtain ⟨hget, hafter⟩ := tfCmdGet_missing division descriptor stale host hat path.path offset dirent
      (path.fits_fileSend dirGet offset) (path.paddedName_lt 9) hfile
    rw [if_neg (by rw [hget]; decide), hget]
    exact ⟨rfl, hafter.serves⟩
  | some data =>
    obtain ⟨hget, hafter⟩ := tfCmdGet_found division descriptor stale host hat path.path offset dirent
      (path.fits_fileSend dirGet offset) (path.paddedName_lt 9) hfile
    rw [if_pos hget, hafter.device]
    obtain ⟨hpieces, hlast⟩ := download_handing division descriptor stale host _ buf (.inl hafter)
    refine ⟨?_, hlast.serves⟩
    show assemble (download _ buf (filePackets _).length _).1 = _
    rw [hpieces, assemble_outcomes, flatMap_chunksFrom, division.flatten]

theorem runRequest_serves {r : Request} (hfits : r.Fits) (h : Serves tf store) :
    (∀ t, tf.usb.1.obey division descriptor r.cmd r.payload = FileServer.accept t →
      let call := runRequest ((fileServer division descriptor stale).env host).logged tf r
      resultOf [call.ret] = .done ∧ Serves call.tf t.files) ∧
    (∀ t, tf.usb.1.obey division descriptor r.cmd r.payload = FileServer.refuse t →
      let call := runRequest ((fileServer division descriptor stale).env host).logged tf r
      resultOf [call.ret] = .failed (-6) ∧ Serves call.tf t.files) := by
  refine ⟨fun t hobey => ?_, fun t hobey => ?_⟩
  · obtain ⟨hret, hafter⟩ := runRequest_accepted division descriptor stale host hfits h.at hobey
    simp only [hret]
    exact ⟨rfl, hafter.serves⟩
  · obtain ⟨hret, hafter⟩ := runRequest_refused division descriptor stale host hfits h.at hobey
    simp only [hret]
    exact ⟨rfl, hafter.serves⟩

theorem fileStep_simulates :
    Simulation Serves (fileStep ((fileServer division descriptor stale).env host) fun s => s.queue.length)
      storeStep := by
  intro tf store call h
  cases call with
  | put path size stamp blocks => exact put_serves division descriptor stale host h path size stamp blocks
  | get path offset dirent buf =>
    have hget := get_serves division descriptor stale host h path offset dirent buf
    refine ⟨hget.1, ?_⟩
    rw [show (storeStep store (.get path offset dirent buf)).2 = store from ?_]
    · exact hget.2
    · simp only [storeStep]
      split <;> rfl
  | delete path =>
    have hobey : tf.usb.1.obey division descriptor tfMsgHddDelete (Request.delete path.path).payload = _ :=
      FileServer.obey_delete path.path
    obtain ⟨-, -, rfl⟩ := id h
    simp only [fileStep, storeStep, tfCmdDelete]
    obtain ⟨haccepted, hrefused⟩ := runRequest_serves division descriptor stale host path.fits_delete h
    by_cases hmissing : tf.usb.1.files path.name = none
    · rw [if_pos hmissing] at hobey ⊢
      exact hrefused _ hobey
    · rw [if_neg hmissing] at hobey ⊢
      exact haccepted _ hobey
  | rename src dest =>
    have hobey : tf.usb.1.obey division descriptor tfMsgHddRename (Request.rename src.path dest.path).payload = _ :=
      FileServer.obey_rename (src.paddedName_lt 8)
        (dest.paddedName_lt (8 + (counted (paddedName src.path 8)).length))
    obtain ⟨-, -, rfl⟩ := id h
    simp only [fileStep, storeStep, tfCmdRename]
    obtain ⟨haccepted, hrefused⟩ := runRequest_serves division descriptor stale host (src.fits_rename dest) h
    by_cases hbad : tf.usb.1.files src.name = none ∨ tf.usb.1.files dest.name ≠ none
    · rw [if_pos hbad] at hobey ⊢
      exact hrefused _ hobey
    · rw [if_neg hbad] at hobey ⊢
      exact haccepted _ hobey

end Calls

/-- **Files.** On a device that keeps files, however it divides them, every client of uploads, downloads, deletions
and renamings gets the results of an abstract store, and the device ends up with the files of the store. -/
theorem client_files (division : Division) (descriptor : FileName → Typefile) (stale : FileServer → Mem)
    (host : Host FileServer) (tf : TfHandle FileServer) (client : Client FileCall FileResult) (n : Nat)
    (hdev : tf.dev = true) (hpending : tf.pending = 0) :
    let e := (fileServer division descriptor stale).env host
    let run := client.run (fileStep e fun s => s.queue.length) n [] tf.logging
    let stored := client.run storeStep n [] tf.usb.files
    run.1 = stored.1 ∧ run.2.usb.1.files = stored.2 := by
  intro e run stored
  have hserves : Serves tf.logging tf.usb.files := ⟨hdev, hpending, rfl⟩
  obtain ⟨hseen, hleft⟩ := (fileStep_simulates division descriptor stale host).run client n [] hserves
  exact ⟨hseen, hleft.files⟩

/-- Pieces of one size, and what is left. -/
def Division.upTo (limit : Nat) (hlimit : 0 < limit ∧ 16 + limit ≤ 0xFFFF) : Division where
  pieces data := (Lib.pieces limit data).attach.map fun piece =>
    ⟨piece.1, Nat.le_trans (Nat.add_le_add_left (length_pieces_le hlimit.1 data piece.1 piece.2) 16) hlimit.2⟩
  flatten data := by
    rw [List.flatMap_def, List.map_map]
    exact (congrArg List.flatten (List.attach_map_subtype_val _)).trans (flatten_pieces limit data)

/-- A file is put in two blocks, read from its second byte on in pieces of three bytes, renamed, and asked for again
under both names. -/
theorem client_files_rename :
    let a : FilePath := ⟨⟨[0x2F, 0x61], by decide⟩, by decide⟩
    let b : FilePath := ⟨⟨[0x2F, 0x62, 0x62], by decide⟩, by decide⟩
    let dirent : TfDirent := ⟨0, 0, 0, [], 0, []⟩
    let calls : List FileCall := [.put a 9 0 [⟨[1, 2, 3, 4], by decide⟩, ⟨[5, 6, 7, 8, 9], by decide⟩],
      .get a 1 dirent ⟨0, 0, 0⟩, .rename a b, .get a 0 dirent ⟨0, 0, 0⟩, .get b 6 dirent ⟨0, 0, 0⟩, .delete a]
    let e := (fileServer (Division.upTo 3 (by decide)) (fun _ => ⟨List.replicate 114 0, by decide⟩)
      fun _ _ => 0xAA).env (Host.blank FileServer)
    let tf := TfHandle.opened (FileServer.mk (fun _ => none) [] [] [] 0) fun _ => 0
    (Client.run (fun seen => calls[seen.length]?) (fileStep e fun s => s.queue.length) 6 [] tf.logging).1 =
      [.done, .contents [2, 3, 4, 5, 6, 7, 8, 9], .done, .failed (-6), .contents [7, 8, 9], .failed (-6)] :=
  (client_files _ _ _ _ _ _ _ rfl rfl).1.trans (by decide)

end Topfield
