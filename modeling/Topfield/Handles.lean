import Topfield.Lib.Execution
import Topfield.Opening

/-!
# Handles

Whatever the system answers, a handle has its lock file, the file of its device and its memory from when it is
opened until it is closed, and nothing when it is not; no request is made of what is no longer there; and the
device is not touched without the lock. The memory is two blocks, or one if the system refused the buffer, which
`topfield_open` does not look at. Any number of handles do not get in each other's way.
-/

namespace Topfield

open Lib

/-! ### What a handle has -/

def Moment.Locked (index : Int) (m : Moment) : Prop := ∃ fd, m.table (.fd fd) = some (lockHolding index)

/-- A proper request, and one that needs the lock if it is for the device. -/
def Moment.Safe (index : Int) (lock : TfLock) (m : Moment) : Prop :=
  m.Proper ∧ (lock ≠ .none → ∀ path, m.path = some path → usbDirectory <+: path → m.Locked index)

/-- What an open handle has: its device, the lock if it has asked for it, and its buffer. The requests that opened
it end with the `malloc` of the buffer, and there is none exactly if that was refused. -/
structure Connection.Has (tf : Connection) (index : Int) (lock : TfLock) (opening : List Moment)
    (dev : UsbDevHandle) (own : Table) : Prop where
  device : dev.Has own
  lockFd : if lock = .none then tf.lockFd = -1 else 0 ≤ tf.lockFd ∧ own (.fd tf.lockFd) = some (lockHolding index)
  malloc : ∃ table, opening.getLast? = some ⟨.malloc 0x10000, table, tf.buf⟩
  buf : tf.buf ≠ 0 → own (.block tf.buf) = some (.memory 0x10000)
  only : ∀ r, own r ≠ none → dev.Its r ∨ lock ≠ .none ∧ r = .fd tf.lockFd ∨ tf.buf ≠ 0 ∧ r = .block tf.buf

/-- What a handle has, opened or not. -/
def Connection.Owns (tf : Connection) (index : Int) (lock : TfLock) (opening : List Moment) (own : Table) : Prop :=
  match tf.dev with
  | none => own = nothing
  | some dev => tf.Has index lock opening dev own

section Handle

variable {κ : Type} (os : Os κ) {linuxVersionCode : Nat} {p : Process κ} {index ret : Int} {lock : TfLock}
  {opening : List Moment}

theorem Moment.Aside.safe {m : Moment} (h : m.Aside) : m.Safe index lock :=
  ⟨h.1, fun _ path hpath hprefix => absurd hprefix (h.2 path hpath)⟩

/-- While the lock is there, every request is safe. -/
theorem Moment.During.safe {m : Moment} {table : Table} (h : m.During table) (fd : Int)
    (hlock : lock ≠ .none → table (.fd fd) = some (lockHolding index)) : m.Safe index lock :=
  ⟨h.1, fun hne _ _ _ => ⟨fd, h.2 _ _ (hlock hne)⟩⟩

theorem lockPart_of_ne (hlock : lock ≠ .none) (fd : Int) :
    lockPart index lock fd (.fd fd) = some (lockHolding index) := by
  rw [lockPart, if_neg hlock, single_self]

theorem safe_malloc (table : Table) (size : Nat) : Moment.Safe index lock ⟨.malloc size, table, ret⟩ :=
  ⟨Moment.proper_malloc size table, fun _ => nofun⟩

theorem lockPart_ne_none {fd : Int} {r : Resource} (h : lockPart index lock fd r ≠ none) :
    lock ≠ .none ∧ r = .fd fd := by
  unfold lockPart at h
  split_ifs at h with hlock
  · exact absurd rfl h
  · refine ⟨hlock, ?_⟩
    by_contra hne
    exact h (single_of_ne hne _)

theorem closeLock_spec {fd : Int} {rest : Table} (hfd : if lock = .none then fd = -1 else 0 ≤ fd)
    (h : Parts rest (lockPart index lock fd) p.table) :
    p.Made (Moment.Safe index lock) (p.call os (.close fd)).process ∧
      (p.call os (.close fd)).process.table = rest := by
  have hmade := Process.made_refl (Moment.Safe index lock) p
  unfold lockPart at h
  split_ifs at hfd h with hlock
  · rw [hfd]
    exact ⟨hmade.call os _ (aside_close _).safe, h.eq_rest fun _ => rfl⟩
  · exact ⟨hmade.call os _ (aside_descriptor hfd rfl (h.of_part (single_self _ _))).safe, close_opened os hfd h⟩

theorem buffer_spec {dev : UsbDevHandle} {own rest : Table} (hfound : HasFound (some dev) own)
    (h : Parts rest own p.table) :
    let buf := p.call os (.malloc 0x10000)
    ∃ own', Parts rest own' buf.process.table ∧ dev.Has own' ∧
      (buf.ret ≠ 0 → own' (.block buf.ret) = some (.memory 0x10000)) ∧
      ∀ r, own' r ≠ none → dev.Its r ∨ buf.ret ≠ 0 ∧ r = .block buf.ret := by
  obtain ⟨hdev, honly⟩ := hfound
  rcases Process.call_malloc os h 0x10000 with ⟨hret, hparts⟩ | ⟨hret, hfree, hparts⟩
  · exact ⟨own, hparts, hdev, fun hne => absurd hret hne, fun r hr => .inl (honly r hr)⟩
  · obtain ⟨path, hpath, hfile⟩ := hdev.file
    have hne : (Resource.block dev.ptr) ≠ .block (p.call os (.malloc 0x10000)).ret := by
      intro heq
      rw [← heq] at hfree
      exact h.in_use hdev.memory hfree
    refine ⟨_, hparts, ⟨hdev.fd_nonneg, hdev.ptr_ne, ⟨path, hpath, ?_⟩, ?_⟩, fun _ => Function.update_self _ _ _, ?_⟩
    · rw [Function.update_of_ne (by simp), hfile]
    · rw [Function.update_of_ne hne, hdev.memory]
    · intro r hr
      by_cases hblock : r = .block (p.call os (.malloc 0x10000)).ret
      · exact .inr ⟨hret, hblock⟩
      · rw [Function.update_of_ne hblock] at hr
        exact .inl (honly r hr)

theorem topfieldOpen_spec {call : OpenCall κ} (hcall : topfieldOpen os linuxVersionCode index lock p = some call) :
    p.Made (Moment.Safe index lock) call.process ∧ call.tf.dev.isSome = decide (call.ret = 0) ∧
      ∃ own, call.tf.Owns index lock (call.process.log.drop p.log.length) own ∧
        Parts p.table own call.process.table := by
  obtain ⟨hmade, hunlocked, hlocked⟩ := enterLock_spec os index lock p
  simp only [topfieldOpen] at hcall
  generalize enterLock os index lock p = locking at hcall hmade hunlocked hlocked
  replace hmade : p.Made (Moment.Safe index lock) locking.process := hmade.mono fun m h => h.safe
  split_ifs at hcall with hnot
  · obtain rfl := Option.some.inj hcall
    refine ⟨hmade, rfl, nothing, rfl, ?_⟩
    rw [(hunlocked hnot).2]
    exact Parts.empty p.table
  · obtain ⟨hfd, hlock⟩ := hlocked (Bool.not_eq_false _ ▸ hnot)
    have hheld (h : lock ≠ .none) : locking.process.table (.fd locking.fd) = some (lockHolding index) :=
      hlock.of_part (lockPart_of_ne h _)
    cases hopened : openUsbDev os linuxVersionCode topfieldVendorId topfield5000pvrtId index locking.process with
    | none => rw [hopened] at hcall; cases hcall
    | some opened =>
      obtain ⟨found, p'⟩ := opened
      obtain ⟨hduring, own, hfound, hparts⟩ := openUsbDev_spec os hopened
      replace hmade := hmade.trans (hduring.mono fun m h => h.safe _ hheld)
      rw [hopened] at hcall
      cases found with
      | none =>
        obtain rfl := Option.some.inj hcall
        rw [← hparts.eq_rest fun r => by rw [hfound]; rfl] at hlock
        obtain ⟨hclosed, htable⟩ := closeLock_spec os hfd hlock
        refine ⟨hmade.trans hclosed, rfl, nothing, rfl, ?_⟩
        rw [htable]
        exact Parts.empty p.table
      | some dev =>
        obtain rfl := Option.some.inj hcall
        obtain ⟨own', hparts, hdev, hbuf, honly⟩ := buffer_spec os hfound hparts
        refine ⟨hmade.call os _ (safe_malloc _ _), rfl, _, ?_, hlock.trans hparts⟩
        have hin {r v} (h : own' r = some v) : (own' r).or (lockPart index lock locking.fd r) = some v := by
          rw [h, Option.some_or]
        constructor
        case device =>
          obtain ⟨path, hpath, hfile⟩ := hdev.file
          exact ⟨hdev.fd_nonneg, hdev.ptr_ne, ⟨path, hpath, hin hfile⟩, hin hdev.memory⟩
        case lockFd =>
          split_ifs at hfd ⊢ with hnone
          · exact hfd
          · refine ⟨hfd, ?_⟩
            rw [hparts.not_part (hheld hnone), Option.none_or, lockPart_of_ne hnone]
        case malloc => exact ⟨_, hmade.getLast?_call os (.malloc 0x10000)⟩
        case buf => exact fun hne => hin (hbuf hne)
        case only =>
          intro r hr
          cases hown : own' r with
          | none =>
            rw [hown, Option.none_or] at hr
            exact .inr (.inl (lockPart_ne_none hr))
          | some v => exact (honly r (by rw [hown]; exact Option.some_ne_none v)).imp_right .inr

theorem freeBuf_spec (index : Int) (lock : TfLock) {buf : Int} {own rest : Table}
    (hbuf : buf ≠ 0 → own (.block buf) = some (.memory 0x10000))
    (h : Parts rest own p.table) :
    let own' : Table := fun r => if buf ≠ 0 ∧ r = .block buf then none else own r
    p.Made (Moment.Safe index lock) (p.call os (.free buf)).process ∧
      Parts rest own' (p.call os (.free buf)).process.table := by
  have hproper (hfree : buf = 0 ∨ p.table (.block buf) ≠ none) (ret : Int) :
      Moment.Safe index lock ⟨.free buf, p.table, ret⟩ :=
    ⟨Moment.proper_free hfree, fun _ => nofun⟩
  have hmade := Process.made_refl (Moment.Safe index lock) p
  by_cases hnull : buf = 0
  · simp only [hnull, ne_eq, not_true_eq_false, false_and, if_false]
    exact ⟨hmade.call os _ (hnull ▸ hproper (.inl hnull) _), h⟩
  · have hin := hbuf hnull
    have hfreed := Process.call_free os h hnull hin
    refine ⟨hmade.call os _ (hproper (.inr (h.in_use hin)) _), ?_⟩
    rw [show (fun r => if buf ≠ 0 ∧ r = .block buf then none else own r) =
      Function.update own (.block buf) none from ?_]
    · exact hfreed
    · funext r
      rw [Function.update_apply]
      simp only [hnull, ne_eq, not_false_eq_true, true_and]

theorem topfieldClose_spec (linuxVersionCode : Nat) {tf : Connection} {own rest : Table}
    (hown : tf.Owns index lock opening own)
    (h : Parts rest own p.table) :
    p.Made (Moment.Safe index lock) (topfieldClose os linuxVersionCode tf p).2 ∧
      (topfieldClose os linuxVersionCode tf p).2.table = rest ∧
      (topfieldClose os linuxVersionCode tf p).1.dev = none := by
  unfold Connection.Owns at hown
  simp only [topfieldClose]
  cases hdev : tf.dev with
  | none =>
    rw [hdev] at hown
    exact ⟨Process.made_refl _ p, h.eq_rest fun r => by rw [hown]; rfl, hdev⟩
  | some dev =>
    rw [hdev] at hown
    dsimp only
    obtain ⟨hdevice, hlockFd, -, hbuf, honly⟩ := hown
    obtain ⟨path, -, hfile⟩ := hdevice.file
    have hmemory := hdevice.memory
    have hits (r : Resource) (hr : dev.Its r) : rest r = none := by
      rcases hr with rfl | rfl
      · exact h.not_rest hfile
      · exact h.not_rest hmemory
    have hparts := h.remove dev.Its hits
    obtain ⟨hduring, htable⟩ := closeUsbDev_spec os linuxVersionCode
      (hdevice.its fun _ _ => h.of_part) (Parts.of_removed dev.Its p.table)
    rw [← htable] at hparts
    have hbuf' (hne : tf.buf ≠ 0) : (if dev.Its (.block tf.buf) then none else own (.block tf.buf)) =
        some (.memory 0x10000) := by
      have hin := hbuf hne
      rw [if_neg, hin]
      rintro (heq | heq)
      · cases heq
      · rw [heq, hmemory] at hin
        cases hin
    have hlock (hne : lock ≠ .none) : 0 ≤ tf.lockFd ∧ ¬ dev.Its (.fd tf.lockFd) ∧
        own (.fd tf.lockFd) = some (lockHolding index) := by
      rw [if_neg hne] at hlockFd
      refine ⟨hlockFd.1, ?_, hlockFd.2⟩
      rintro (heq | heq)
      · rw [heq, hfile] at hlockFd
        cases hlockFd.2
      · cases heq
    have hmade : p.Made (Moment.Safe index lock) (closeUsbDev os linuxVersionCode dev p) := by
      refine hduring.mono fun m hm => hm.safe tf.lockFd fun hne => ?_
      rw [if_neg (hlock hne).2.1, h.of_part (hlock hne).2.2]
    generalize closeUsbDev os linuxVersionCode dev p = closed at hmade hparts
    obtain ⟨hfreed, hparts⟩ := freeBuf_spec os index lock hbuf' hparts
    generalize closed.call os (.free tf.buf) = freed at hfreed hparts
    -- the lock is all that is left
    have hleft : (fun r => if tf.buf ≠ 0 ∧ r = .block tf.buf then none else if dev.Its r then none else own r) =
        lockPart index lock tf.lockFd := by
      funext r
      by_cases hr : lock ≠ .none ∧ r = .fd tf.lockFd
      · obtain ⟨hne, rfl⟩ := hr
        rw [lockPart_of_ne hne, if_neg (by simp), if_neg (hlock hne).2.1, (hlock hne).2.2]
      · have hnone : lockPart index lock tf.lockFd r = none := by
          by_contra hpart
          exact hr (lockPart_ne_none hpart)
        rw [hnone]
        split_ifs with hblock hits
        · rfl
        · rfl
        · by_contra hin
          rcases honly r hin with h | h | h
          · exact hits h
          · exact hr h
          · exact hblock h
    rw [hleft] at hparts
    have hfd : if lock = .none then tf.lockFd = -1 else 0 ≤ tf.lockFd := by
      split_ifs at hlockFd ⊢ with hnone
      · exact hlockFd
      · exact hlockFd.1
    obtain ⟨hclosed, hrest⟩ := closeLock_spec os hfd hparts
    exact ⟨(hmade.trans hfreed).trans hclosed, hrest, rfl⟩

end Handle

/-! ### A program -/

inductive HandleCall (H : Type)
  | topfieldOpen (handle : H) (index : Int) (lock : TfLock)
  | topfieldClose (handle : H)

def HandleCall.handle {H : Type} : HandleCall H → H
  | .topfieldOpen handle _ _ => handle
  | .topfieldClose handle => handle

/-- A program with any number of handles: which of them it takes to be open, what it has asked for with each, and
the requests that were made for that. -/
structure Program (κ H : Type) where
  process : Process κ
  tf : H → Connection
  isOpen : H → Bool
  asked : H → Int × TfLock
  opening : H → List Moment

section Program

variable {κ H : Type} [DecidableEq H] (os : Os κ) (linuxVersionCode : Nat)

/-- A handle that is open is closed before it is opened again. One that is not may be closed. -/
def programStep (s : Program κ H) : HandleCall H → Option (Program κ H)
  | .topfieldOpen handle index lock =>
    if s.isOpen handle then none
    else (topfieldOpen os linuxVersionCode index lock s.process).map fun call =>
      { process := call.process
        tf := Function.update s.tf handle call.tf
        isOpen := Function.update s.isOpen handle (decide (call.ret = (0 : Int)))
        asked := Function.update s.asked handle (index, lock)
        opening := Function.update s.opening handle (call.process.log.drop s.process.log.length) }
  | .topfieldClose handle =>
    let closed := topfieldClose os linuxVersionCode (s.tf handle) s.process
    some { s with
      process := closed.2
      tf := Function.update s.tf handle closed.1
      isOpen := Function.update s.isOpen handle false }

def programStart (H : Type) (p : Process κ) : Program κ H where
  process := p
  tf _ := Connection.cleared
  isOpen _ := false
  asked _ := (0, .none)
  opening _ := []

abbrev ProgramRun (H : Type) [DecidableEq H] (p : Process κ) :=
  Execution (programStep os linuxVersionCode) (programStart H p)

variable {os linuxVersionCode} {p : Process κ} {s s' : Program κ H} {a : HandleCall H}

/-- Beside what there was at the start, each handle has what it should have. -/
structure Program.Divides (start : Table) (s : Program κ H) (own : H → Table) : Prop where
  divided : Divided start s.process.table own
  isOpen : ∀ handle, (s.tf handle).dev.isSome = s.isOpen handle
  owns : ∀ handle,
    (s.tf handle).Owns (s.asked handle).1 (s.asked handle).2 (s.opening handle) (own handle)

theorem programStep_divides {start : Table} {own : H → Table} (h : programStep os linuxVersionCode s a = some s')
    (hs : s.Divides start own) :
    s.process.Made (Moment.Safe (s'.asked a.handle).1 (s'.asked a.handle).2) s'.process ∧
      ∃ own', s'.Divides start own' := by
  obtain ⟨hdivided, hopen, howns⟩ := hs
  cases a with
  | topfieldOpen handle index lock =>
    simp only [programStep] at h
    split_ifs at h with hclosed
    obtain ⟨call, hcall, rfl⟩ := Option.map_eq_some_iff.mp h
    obtain ⟨hmade, hret, new, hnew, hparts⟩ := topfieldOpen_spec os hcall
    have hnothing : own handle = nothing := by
      have hdev : (s.tf handle).dev = none := by
        rw [← Option.not_isSome_iff_eq_none, hopen]
        exact hclosed
      have howned := howns handle
      rwa [Connection.Owns, hdev] at howned
    have hbefore := Parts.empty s.process.table
    rw [← hnothing] at hbefore
    refine ⟨?_, Function.update own handle new, hdivided.exchange hbefore hparts, fun other => ?_, fun other => ?_⟩
    · simp only [HandleCall.handle, Function.update_self]
      exact hmade
    · by_cases hother : other = handle
      · simp only [hother, Function.update_self, hret]
      · simp only [Function.update_of_ne hother, hopen]
    · by_cases hother : other = handle
      · simp only [hother, Function.update_self]
        exact hnew
      · simp only [Function.update_of_ne hother]
        exact howns other
  | topfieldClose handle =>
    obtain rfl := Option.some.inj h
    obtain ⟨hmade, hrest, hdev⟩ := topfieldClose_spec os linuxVersionCode
      (howns handle) (hdivided.parts handle)
    have hafter := Parts.empty (topfieldClose os linuxVersionCode (s.tf handle) s.process).2.table
    rw [hrest] at hafter
    refine ⟨hmade, Function.update own handle nothing, hdivided.exchange (hdivided.parts handle) (hrest ▸ hafter),
      fun other => ?_, fun other => ?_⟩
    · by_cases hother : other = handle
      · simp only [hother, Function.update_self, hdev, Option.isSome_none]
      · simp only [Function.update_of_ne hother, hopen]
    · by_cases hother : other = handle
      · simp only [hother, Function.update_self, Connection.Owns, hdev]
      · simp only [Function.update_of_ne hother]
        exact howns other

theorem divides_start (H : Type) (p : Process κ) :
    (programStart H p).Divides p.table fun _ => nothing where
  divided := Divided.start_nothing p.table
  isOpen _ := rfl
  owns _ := rfl

namespace ProgramRun

variable {run : ProgramRun os linuxVersionCode H p} {i : Nat}

theorem divides (run : ProgramRun os linuxVersionCode H p) (hi : i ≤ run.length) :
    p.Made Moment.Proper (run.state i).process ∧ ∃ own, (run.state i).Divides p.table own := by
  refine run.induction
    (fun i => p.Made Moment.Proper (run.state i).process ∧ ∃ own, (run.state i).Divides p.table own) ?_ ?_ i hi
  · rw [run.state_zero]
    exact ⟨Process.made_refl _ p, _, divides_start H p⟩
  · rintro i hi ⟨hmade, own, hdivides⟩
    obtain ⟨hstep, hafter⟩ := programStep_divides (run.next i hi) hdivides
    exact ⟨hmade.trans (hstep.mono fun m hm => hm.1), hafter⟩

/-- Whatever the system answers and in whatever order handles are opened and closed, every open handle has the
lock file that it asked for, locked, the file of its device, claimed, and the memory it was given; no two have the
same; beside these there is what there was at the start; and no request was made of anything that was not there. -/
theorem accounted (run : ProgramRun os linuxVersionCode H p) (hi : i ≤ run.length) :
    p.Made Moment.Proper (run.state i).process ∧ (∃ own, (run.state i).Divides p.table own) ∧
      ((∀ handle, (run.state i).isOpen handle = false) → (run.state i).process.table = p.table) := by
  obtain ⟨hmade, own, hdivides⟩ := divides run hi
  refine ⟨hmade, ⟨own, hdivides⟩, fun hclosed => hdivides.divided.eq_start fun handle => ?_⟩
  have hdev : ((run.state i).tf handle).dev = none := by
    rw [← Option.not_isSome_iff_eq_none, hdivides.isOpen, hclosed]
    exact Bool.false_ne_true
  have howned := hdivides.owns handle
  rwa [Connection.Owns, hdev] at howned

/-- The file of a device is opened, used and closed while the lock of the handle's index is held, if the handle is
opened with it. -/
theorem device_locked (run : ProgramRun os linuxVersionCode H p) (hi : i < run.length)
    (hlock : ((run.state (i + 1)).asked (run.action i).handle).2 ≠ .none) :
    (run.state i).process.Made (fun m => ∀ path, m.path = some path → usbDirectory <+: path →
      m.Locked ((run.state (i + 1)).asked (run.action i).handle).1) (run.state (i + 1)).process := by
  obtain ⟨-, own, hdivides⟩ := divides run (Nat.le_of_lt hi)
  obtain ⟨hmade, -⟩ := programStep_divides (run.next i hi) hdivides
  exact hmade.mono fun m hm => hm.2 hlock

end ProgramRun

end Program

/-- A system that refuses nothing. -/
def willingOs : Os Nat where
  pid := 100
  answer n request :=
    let number : Int :=
      match request with
      | .openFile _ _ => n + 3
      | .fopen _ => n + 1
      | .malloc _ => n + 1
      | _ => 0
    ((number, if request = .fopen procDevices then devicesText [topfieldEntry] else []), n + 1)

def idleProcess : Process Nat where
  system := 0
  table := nothing
  log := []

theorem willing_opens : (programStep willingOs (kernelVersion 2 6 12) (programStart Unit idleProcess)
    (.topfieldOpen () 0 .hup)).isSome = true := by
  decide +kernel

def openedRun : ProgramRun willingOs (kernelVersion 2 6 12) Unit idleProcess :=
  Execution.ofActions [.topfieldOpen () 0 .hup, .topfieldClose ()] (.topfieldClose ()) (by
    obtain ⟨s, hs⟩ := Option.isSome_iff_exists.mp willing_opens
    intro i hi
    match i, hi with
    | 0, _ =>
      show programStep willingOs (kernelVersion 2 6 12) _ _ = some ((programStep willingOs _ _ _).getD _)
      rw [hs, Option.getD_some]
      exact hs
    | 1, _ => rfl)

theorem accounted_opened : idleProcess.Made Moment.Proper (openedRun.state 2).process ∧
    (openedRun.state 2).process.table = nothing := by
  have h := openedRun.accounted (i := 2) (Nat.le_refl 2)
  exact ⟨h.1, h.2.2 fun _ => rfl⟩

theorem device_locked_opened : (openedRun.state 0).process.Made (fun m => ∀ path, m.path = some path →
      usbDirectory <+: path → m.Locked 0) (openedRun.state 1).process ∧
    .openFile (devicePath 1 3) .readWrite ∈ (openedRun.state 1).process.log.map Moment.request := by
  have hasked : ((openedRun.state (0 + 1)).asked (openedRun.action 0).handle).1 = 0 := by decide +kernel
  have hlocked := openedRun.device_locked (i := 0) (by decide) (by decide +kernel)
  rw [hasked] at hlocked
  exact ⟨hlocked, by decide +kernel⟩

end Topfield
