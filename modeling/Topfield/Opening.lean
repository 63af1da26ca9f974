import Topfield.Lock
import Topfield.Process
import Topfield.UsbDevices

/-!
# Opening and closing

`topfield_open` and `topfield_close`, with `open_usb_dev` and `close_usb_dev` of the build without libusb, by
the requests they make, and what there is after the loop that takes the lock and after the device was looked
for, whatever the system answers.
-/

namespace Topfield

open Lib

/-! ### The functions -/

def procDevices : List UInt8 := "/proc/bus/usb/devices".toUTF8.toList

def usbDirectory : List UInt8 := "/proc/bus/usb/".toUTF8.toList

/-- `%03d` -/
def decimal03 (n : Int) : List UInt8 :=
  let digits := decimal n.natAbs
  if n < 0 then 0x2D :: (List.replicate (2 - digits.length) 0x30 ++ digits)
  else List.replicate (3 - digits.length) 0x30 ++ digits

def devicePath (bus device : Int) : List UInt8 := usbDirectory ++ decimal03 bus ++ [0x2F] ++ decimal03 device

def kernelVersion (a b c : Nat) : Nat := a * 65536 + b * 256 + c

/-- `struct usb_dev_handle`, and where it is. -/
structure UsbDevHandle where
  ptr : Int
  fd : Int

def sizeofUsbDevHandle : Nat := 4

/-- The fields of `tf_handle` that are resources. `dev` is `none` and `buf` is 0 where they are NULL. -/
structure Connection where
  lockFd : Int
  dev : Option UsbDevHandle
  buf : Int

def Connection.cleared : Connection where
  lockFd := 0
  dev := none
  buf := 0

section Functions

variable {κ : Type} (os : Os κ) (linuxVersionCode : Nat)

/-- The ioctls of `open_usb_dev`. When there is no memory for the handle it is written to all the same, and the
process is gone. -/
def setUpUsbDev (fd : Int) (p : Process κ) : Option (Option UsbDevHandle × Process κ) :=
  let reset := p.call os (.ioctl fd .reset)
  if reset.ret < 0 ∧ kernelVersion 2 6 0 ≤ linuxVersionCode then
    some (none, (reset.process.call os (.close fd)).process)
  else
    let claim := reset.process.call os (.ioctl fd .claimInterface)
    if claim.ret < 0 then some (none, (claim.process.call os (.close fd)).process)
    else
      let set := claim.process.call os (.ioctl fd .setInterface)
      if set.ret < 0 then some (none, (set.process.call os (.close fd)).process)
      else
        let dev := set.process.call os (.malloc sizeofUsbDevHandle)
        if dev.ret = 0 then none else some (some ⟨dev.ret, fd⟩, dev.process)

def openUsbDev (vendorId productId index : Int) (p : Process κ) : Option (Option UsbDevHandle × Process κ) :=
  let fh := p.call os (.fopen procDevices)
  if fh.ret = 0 then some (none, fh.process)
  else
    let p := (fh.process.call os (.fclose fh.ret)).process
    match findDevice vendorId productId index fh.data with
    | none => some (none, p)
    | some (bus, device) =>
      let fd := p.call os (.openFile (devicePath bus device) .readWrite)
      if fd.ret < 0 then some (none, fd.process) else setUpUsbDev os linuxVersionCode fd.ret fd.process

def closeUsbDev (dev : UsbDevHandle) (p : Process κ) : Process κ :=
  let control :=
    if kernelVersion 2 6 0 ≤ linuxVersionCode ∧ linuxVersionCode ≤ kernelVersion 2 6 10 then UsbControl.reset
    else .releaseInterface
  let p := (p.call os (.ioctl dev.fd control)).process
  let p := (p.call os (.close dev.fd)).process
  (p.call os (.free dev.ptr)).process

/-- Where the loop of `topfield_open` is left, or a turn of it. -/
structure Locking (κ : Type) where
  locked : Bool
  fd : Int
  process : Process κ

/-- A turn of the loop, up to where the lock file is closed again. -/
def tryLock (index : Int) (p : Process κ) : Locking κ :=
  let fd := p.call os (.openFile (lockFilename index) .create)
  if fd.ret < 0 then ⟨false, fd.ret, (fd.process.call os (.close fd.ret)).process⟩
  else
    let lock := fd.process.call os (.flock fd.ret)
    if lock.ret = 0 then ⟨true, fd.ret, (lock.process.call os (.write fd.ret (pidText os.pid))).process⟩
    else ⟨false, fd.ret, (lock.process.call os (.close fd.ret)).process⟩

/-- The rest of the turn with `TF_LOCK_HUP`: whether it was of any use. -/
def hangUp (index : Int) (p : Process κ) : Bool × Process κ :=
  let fd := p.call os (.openFile (lockFilename index) .readOnly)
  if fd.ret < 0 then (false, fd.process)
  else
    let buf := fd.process.call os (.read fd.ret 9)
    let pid := readPid (buf.data.take buf.ret.toNat) true
    let p := (buf.process.call os (.close fd.ret)).process
    if pid > 0 then
      let kill := p.call os (.kill pid)
      if kill.ret = 0 then (true, (kill.process.call os (.sleep 2)).process) else (false, kill.process)
    else (false, p)

/-- The loop, which is entered again as often as `hups` says. -/
def takeLock (index : Int) : (hups : Nat) → Process κ → Locking κ
  | 0, p => tryLock os index p
  | hups + 1, p =>
    let turn := tryLock os index p
    if turn.locked then turn
    else
      let again := hangUp os index turn.process
      if again.1 then takeLock index hups again.2 else ⟨false, turn.fd, again.2⟩

structure OpenCall (κ : Type) where
  ret : Int
  tf : Connection
  process : Process κ

def enterLock (index : Int) (lock : TfLock) (p : Process κ) : Locking κ :=
  match lock with
  | .none => ⟨true, -1, p⟩
  | .std => takeLock os index 0 p
  | .hup => takeLock os index 1 p

def topfieldOpen (index : Int) (lock : TfLock) (p : Process κ) : Option (OpenCall κ) :=
  let locking := enterLock os index lock p
  if locking.locked = false then some ⟨1, { Connection.cleared with lockFd := locking.fd }, locking.process⟩
  else
    match openUsbDev os linuxVersionCode topfieldVendorId topfield5000pvrtId index locking.process with
    | none => none
    | some (none, p) => some ⟨-1, { Connection.cleared with lockFd := -1 }, (p.call os (.close locking.fd)).process⟩
    | some (some dev, p) =>
      let buf := p.call os (.malloc 0x10000)
      some ⟨0, ⟨locking.fd, some dev, buf.ret⟩, buf.process⟩

def topfieldClose (tf : Connection) (p : Process κ) : Connection × Process κ :=
  match tf.dev with
  | none => (tf, p)
  | some dev =>
    let p := closeUsbDev os linuxVersionCode dev p
    let p := (p.call os (.free tf.buf)).process
    ({ tf with dev := none, buf := 0 }, (p.call os (.close tf.lockFd)).process)

end Functions

/-! ### The device -/

/-- What a device handle has: its file, with the interface claimed, and its memory. -/
structure UsbDevHandle.Has (dev : UsbDevHandle) (own : Table) : Prop where
  fd_nonneg : 0 ≤ dev.fd
  ptr_ne : dev.ptr ≠ 0
  file : ∃ path, usbDirectory <+: path ∧ own (.fd dev.fd) = some (.file path false true)
  memory : own (.block dev.ptr) = some (.memory sizeofUsbDevHandle)

def UsbDevHandle.Its (dev : UsbDevHandle) (r : Resource) : Prop := r = .fd dev.fd ∨ r = .block dev.ptr

instance (dev : UsbDevHandle) : DecidablePred dev.Its := fun _ => inferInstanceAs (Decidable (_ ∨ _))

/-- What there is after `open_usb_dev`. -/
def HasFound : Option UsbDevHandle → Table → Prop
  | none, own => own = nothing
  | some dev, own => dev.Has own ∧ ∀ r, own r ≠ none → dev.Its r

/-- A proper request, with everything of a table still in use. -/
def Moment.During (table : Table) (m : Moment) : Prop := m.Proper ∧ m.Keeps table

section Device

variable {κ : Type} (os : Os κ) {linuxVersionCode : Nat} {p p' : Process κ} {rest part : Table}
  {ret : Int}

theorem during_descriptor {request : OsCall} {fd : Int} {table : Table} {v : Holding} (h : Parts rest part table)
    (hrequest : request.descriptor = some fd) (hfd : part (.fd fd) = some v) :
    Moment.During rest ⟨request, table, ret⟩ :=
  ⟨Moment.proper_descriptor hrequest (h.of_part hfd), fun _ _ hr => h.of_rest hr⟩

theorem during_other {request : OsCall} {table : Table} (h : Parts rest part table)
    (hproper : Moment.Proper ⟨request, table, ret⟩) : Moment.During rest ⟨request, table, ret⟩ :=
  ⟨hproper, fun _ _ hr => h.of_rest hr⟩

theorem call_control (h : Parts rest part p.table) (fd : Int) (control : UsbControl)
    (hcontrol : control = .reset ∨ control = .setInterface) :
    Parts rest part (p.call os (.ioctl fd control)).process.table := by
  rcases hcontrol with rfl | rfl <;> exact h

theorem close_opened {fd : Int} {v : Holding} (hfd : 0 ≤ fd)
    (h : Parts rest (single (.fd fd) v) p.table) :
    (p.call os (.close fd)).process.table = rest := by
  have hclosed := Process.call_close os h hfd (single_self _ _)
  rw [update_single_none] at hclosed
  exact hclosed.eq_rest fun _ => rfl

theorem setUpUsbDev_spec {fd : Int} {path : List UInt8} {found : Option UsbDevHandle} (hfd : 0 ≤ fd)
    (hpath : usbDirectory <+: path)
    (h : Parts rest (single (.fd fd) (.file path false false)) p.table)
    (hcall : setUpUsbDev os linuxVersionCode fd p = some (found, p')) :
    p.Made (Moment.During rest) p' ∧ ∃ own, HasFound found own ∧ Parts rest own p'.table := by
  simp only [setUpUsbDev] at hcall
  have hopened := single_self (Resource.fd fd) (Holding.file path false false)
  have hclaimed := single_self (Resource.fd fd) (Holding.file path false true)
  have hmade := (Process.made_refl (Moment.During rest) p).call os (.ioctl fd .reset)
    (during_descriptor h rfl hopened)
  have hafter := call_control os h fd .reset (.inl rfl)
  generalize p.call os (.ioctl fd .reset) = reset at hcall hmade hafter
  -- the file is closed wherever the function gives up
  have hclose : ∀ {p'' : Process κ} {v : Holding}, p.Made (Moment.During rest) p'' →
      Parts rest (single (.fd fd) v) p''.table → (none, (p''.call os (.close fd)).process) =
        (found, p') → p.Made (Moment.During rest) p' ∧ ∃ own, HasFound found own ∧ Parts rest own p'.table := by
    rintro p'' v hmade hparts ⟨⟩
    refine ⟨hmade.call os _ (during_descriptor hparts rfl (single_self _ _)), nothing, rfl, ?_⟩
    rw [close_opened os hfd hparts]
    exact Parts.empty rest
  split_ifs at hcall with hreset hclaim hset hnull
  · exact hclose hmade hafter (Option.some.inj hcall)
  all_goals
    replace hmade := hmade.call os (.ioctl fd .claimInterface) (during_descriptor hafter rfl hopened)
    replace hafter := Process.call_claimInterface os hafter hopened
  · rw [if_pos hclaim] at hafter
    exact hclose hmade hafter (Option.some.inj hcall)
  all_goals
    rw [if_neg hclaim, update_single] at hafter
    replace hmade := hmade.call os (.ioctl fd .setInterface) (during_descriptor hafter rfl hclaimed)
    replace hafter := call_control os hafter fd .setInterface (.inr rfl)
  · exact hclose hmade hafter (Option.some.inj hcall)
  · replace hmade := hmade.call os (.malloc sizeofUsbDevHandle)
      (during_other hafter (Moment.proper_malloc _ _))
    rcases Process.call_malloc os hafter sizeofUsbDevHandle with ⟨hret, -⟩ | ⟨hret, hfree, hparts⟩
    · exact absurd hret hnull
    · obtain ⟨rfl, rfl⟩ := Prod.mk.inj (Option.some.inj hcall)
      refine ⟨hmade, _, ⟨⟨hfd, hret, ⟨path, hpath, ?_⟩, Function.update_self _ _ _⟩, ?_⟩, hparts⟩
      · rw [Function.update_of_ne (by simp)]
        exact hclaimed
      · intro r hr
        by_contra hother
        rw [UsbDevHandle.Its, not_or] at hother
        rw [Function.update_of_ne hother.2, single_of_ne hother.1] at hr
        exact hr rfl

theorem usbDirectory_devicePath (bus device : Int) : usbDirectory <+: devicePath bus device := by
  rw [devicePath, List.append_assoc, List.append_assoc]
  exact List.prefix_append _ _

theorem openUsbDev_spec {vendorId productId index : Int} {found : Option UsbDevHandle}
    (hcall : openUsbDev os linuxVersionCode vendorId productId index p = some (found, p')) :
    p.Made (Moment.During p.table) p' ∧ ∃ own, HasFound found own ∧ Parts p.table own p'.table := by
  simp only [openUsbDev] at hcall
  have hstart := Parts.empty p.table
  have hmade := (Process.made_refl (Moment.During p.table) p).call os (.fopen procDevices)
    (during_other hstart (Moment.proper_fopen _ _))
  rcases Process.call_fopen os hstart procDevices with ⟨hret, hparts⟩ | ⟨hret, -, hparts⟩
  · rw [if_pos hret] at hcall
    obtain ⟨rfl, rfl⟩ := Prod.mk.inj (Option.some.inj hcall)
    exact ⟨hmade, nothing, rfl, hparts⟩
  · rw [if_neg hret] at hcall
    generalize p.call os (.fopen procDevices) = fh at hcall hmade hret hparts
    have hopen := single_self (Resource.stream fh.ret) (Holding.file procDevices false false)
    rw [← single] at hparts
    replace hmade := hmade.call os (.fclose fh.ret)
      (during_other hparts (Moment.proper_fclose (hparts.in_use hopen)))
    replace hparts := Process.call_fclose os hparts hopen
    rw [update_single_none] at hparts
    split at hcall
    · obtain ⟨rfl, rfl⟩ := Prod.mk.inj (Option.some.inj hcall)
      exact ⟨hmade, nothing, rfl, hparts⟩
    · rename_i bus device hfound
      replace hmade := hmade.call os (.openFile (devicePath bus device) .readWrite)
        (during_other hparts (Moment.proper_openFile _ _ _))
      rcases Process.call_openFile os hparts (devicePath bus device) .readWrite with
        ⟨hret, hparts⟩ | ⟨hret, -, hparts⟩
      · rw [if_pos (by omega)] at hcall
        obtain ⟨rfl, rfl⟩ := Prod.mk.inj (Option.some.inj hcall)
        exact ⟨hmade, nothing, rfl, hparts⟩
      · rw [if_neg (by omega)] at hcall
        obtain ⟨hrest, hown⟩ := setUpUsbDev_spec os hret (usbDirectory_devicePath bus device) hparts hcall
        exact ⟨hmade.trans hrest, hown⟩

/-- The device handle gives up what it has. -/
theorem closeUsbDev_spec (linuxVersionCode : Nat) {dev : UsbDevHandle} (hdev : HasFound (some dev) part)
    (h : Parts rest part p.table) :
    p.Made (Moment.During rest) (closeUsbDev os linuxVersionCode dev p) ∧
      (closeUsbDev os linuxVersionCode dev p).table = rest := by
  obtain ⟨⟨hnonneg, hptr, ⟨path, -, hfile⟩, hmemory⟩, honly⟩ := hdev
  simp only [closeUsbDev]
  generalize hcontrol : (if kernelVersion 2 6 0 ≤ linuxVersionCode ∧ linuxVersionCode ≤ kernelVersion 2 6 10 then
    UsbControl.reset else .releaseInterface) = control
  have hioctl : ∃ v, Parts rest (Function.update part (.fd dev.fd) (some v))
      (p.call os (.ioctl dev.fd control)).process.table := by
    split_ifs at hcontrol
    · refine ⟨.file path false true, ?_⟩
      rw [← hfile, Function.update_eq_self, ← hcontrol]
      exact call_control os h dev.fd .reset (.inl rfl)
    · rw [← hcontrol]
      exact Process.call_releaseInterface os h hfile
  obtain ⟨v, hparts⟩ := hioctl
  have hmade := (Process.made_refl (Moment.During rest) p).call os (.ioctl dev.fd control)
    (during_descriptor h rfl hfile)
  generalize p.call os (.ioctl dev.fd control) = ioctl at hmade hparts
  have hin : Function.update part (.fd dev.fd) (some v) (.fd dev.fd) = some v := Function.update_self _ _ _
  replace hmade := hmade.call os (.close dev.fd) (during_descriptor hparts rfl hin)
  replace hparts := Process.call_close os hparts hnonneg hin
  rw [Function.update_idem] at hparts
  generalize ioctl.process.call os (.close dev.fd) = closed at hmade hparts
  have hblock : Function.update part (.fd dev.fd) none (.block dev.ptr) = some (.memory sizeofUsbDevHandle) := by
    rw [Function.update_of_ne (by simp)]
    exact hmemory
  refine ⟨hmade.call os _ (during_other hparts (Moment.proper_free (.inr (hparts.in_use hblock)))), ?_⟩
  refine (Process.call_free os hparts hptr hblock).eq_rest fun r => ?_
  by_contra hr
  have hptr : r ≠ .block dev.ptr := fun h => hr (by rw [h, Function.update_self])
  have hfd : r ≠ .fd dev.fd := fun h => hr (by rw [Function.update_of_ne hptr, h, Function.update_self])
  rw [Function.update_of_ne hptr, Function.update_of_ne hfd] at hr
  rcases honly r hr with h | h
  · exact hfd h
  · exact hptr h

theorem UsbDevHandle.Has.its {dev : UsbDevHandle} {own whole : Table} (hdev : dev.Has own)
    (h : ∀ r v, own r = some v → whole r = some v) :
    HasFound (some dev) (fun r => if dev.Its r then whole r else none) := by
  have hin : ∀ r v, dev.Its r → own r = some v → (if dev.Its r then whole r else none) = some v := by
    intro r v hits hr
    rw [if_pos hits, h r v hr]
  obtain ⟨path, hpath, hfile⟩ := hdev.file
  refine ⟨⟨hdev.fd_nonneg, hdev.ptr_ne, ⟨path, hpath, hin _ _ (.inl rfl) hfile⟩, hin _ _ (.inr rfl) hdev.memory⟩,
    ?_⟩
  intro r hr
  by_contra hits
  exact hr (if_neg hits)

end Device

/-! ### The lock -/

/-- A proper request that is not for the device. -/
def Moment.Aside (m : Moment) : Prop := m.Proper ∧ ∀ path, m.path = some path → ¬ usbDirectory <+: path

theorem lockFilename_aside (index : Int) : ¬ usbDirectory <+: lockFilename index := by
  rintro ⟨rest, h⟩
  obtain ⟨suffix, hsuffix⟩ : ∃ suffix, lockFilename index = tfLockfile ++ suffix := by
    unfold lockFilename
    split_ifs
    · exact ⟨[], (List.append_nil _).symm⟩
    · exact ⟨_, List.append_assoc _ _ _⟩
  have htake := congrArg (List.take 2) (h.trans hsuffix)
  rw [List.take_append_of_le_length (by decide +kernel), List.take_append_of_le_length (by decide +kernel)] at htake
  exact absurd htake (by decide +kernel)

section Lock

variable {κ : Type} (os : Os κ) {p : Process κ} {index ret : Int}

theorem aside_openFile (index : Int) (table : Table) (mode : OpenMode) :
    Moment.Aside ⟨.openFile (lockFilename index) mode, table, ret⟩ := by
  refine ⟨Moment.proper_openFile _ _ _, ?_⟩
  rintro path ⟨⟩
  exact lockFilename_aside index

theorem aside_descriptor {request : OsCall} {table : Table} {fd : Int} {locked claimed : Bool} (hnonneg : 0 ≤ fd)
    (hrequest : request.descriptor = some fd)
    (hfd : table (.fd fd) = some (.file (lockFilename index) locked claimed)) :
    Moment.Aside ⟨request, table, ret⟩ := by
  refine ⟨Moment.proper_descriptor hrequest hfd, ?_⟩
  rw [Moment.path_descriptor hrequest hnonneg hfd]
  rintro path ⟨⟩
  exact lockFilename_aside index

theorem aside_close (table : Table) : Moment.Aside ⟨.close (-1), table, ret⟩ :=
  ⟨⟨fun _ _ => .inl rfl, nofun, nofun, nofun⟩, nofun⟩

theorem aside_kill {pid : Int} (hpid : 0 < pid) (table : Table) : Moment.Aside ⟨.kill pid, table, ret⟩ :=
  ⟨Moment.proper_kill hpid table, nofun⟩

theorem aside_sleep (seconds : Nat) (table : Table) : Moment.Aside ⟨.sleep seconds, table, ret⟩ :=
  ⟨Moment.proper_sleep seconds table, nofun⟩

def lockHolding (index : Int) : Holding := .file (lockFilename index) true false

def lockPart (index : Int) (lock : TfLock) (fd : Int) : Table :=
  if lock = .none then nothing else single (.fd fd) (lockHolding index)

structure Locking.Spec (locking : Locking κ) (index : Int) (p : Process κ) : Prop where
  made : p.Made Moment.Aside locking.process
  unlocked : locking.locked = false → locking.process.table = p.table
  locked : locking.locked = true → 0 ≤ locking.fd ∧
    Parts p.table (single (.fd locking.fd) (lockHolding index)) locking.process.table

theorem tryLock_spec (index : Int) (p : Process κ) : (tryLock os index p).Spec index p := by
  simp only [tryLock]
  have hstart := Parts.empty p.table
  have hmade := (Process.made_refl Moment.Aside p).call os _ (aside_openFile index p.table .create)
  rcases Process.call_openFile os hstart (lockFilename index) .create with
    ⟨hret, hparts⟩ | ⟨hret, -, hparts⟩
  · rw [if_pos (by omega), hret]
    refine ⟨hmade.call os _ (aside_close _), fun _ => ?_, fun hlocked => absurd hlocked Bool.false_ne_true⟩
    rw [Process.call_close_none]
    exact hparts.eq_rest fun _ => rfl
  · rw [if_neg (by omega)]
    generalize p.call os (.openFile (lockFilename index) .create) = fd at hmade hret hparts
    rw [← single] at hparts
    have hopened := single_self (Resource.fd fd.ret) (Holding.file (lockFilename index) false false)
    have hlocked := single_self (Resource.fd fd.ret) (lockHolding index)
    replace hmade := hmade.call os (.flock fd.ret)
      (aside_descriptor hret rfl (hparts.of_part hopened))
    replace hparts := Process.call_flock os hparts hopened
    split_ifs with hlock
    · rw [if_pos hlock, update_single] at hparts
      exact ⟨hmade.call os _ (aside_descriptor hret rfl (hparts.of_part hlocked)),
        fun hlocked => absurd hlocked.symm Bool.false_ne_true, fun _ => ⟨hret, hparts⟩⟩
    · rw [if_neg hlock] at hparts
      refine ⟨hmade.call os _ (aside_descriptor hret rfl (hparts.of_part hopened)), fun _ => ?_,
        fun hlocked => absurd hlocked Bool.false_ne_true⟩
      exact close_opened os hret hparts

theorem hangUp_spec (index : Int) (p : Process κ) :
    p.Made Moment.Aside (hangUp os index p).2 ∧ (hangUp os index p).2.table = p.table := by
  simp only [hangUp]
  have hstart := Parts.empty p.table
  have hmade := (Process.made_refl Moment.Aside p).call os _ (aside_openFile index p.table .readOnly)
  rcases Process.call_openFile os hstart (lockFilename index) .readOnly with
    ⟨hret, hparts⟩ | ⟨hret, -, hparts⟩
  · rw [if_pos (by omega)]
    exact ⟨hmade, hparts.eq_rest fun _ => rfl⟩
  · rw [if_neg (by omega)]
    generalize p.call os (.openFile (lockFilename index) .readOnly) = fd at hmade hret hparts
    rw [← single] at hparts
    have hopened := single_self (Resource.fd fd.ret) (Holding.file (lockFilename index) false false)
    replace hmade := hmade.call os (.read fd.ret 9)
      (aside_descriptor hret rfl (hparts.of_part hopened))
    replace hparts : Parts p.table _ (fd.process.call os (.read fd.ret 9)).process.table := hparts
    generalize fd.process.call os (.read fd.ret 9) = buf at hmade hparts
    replace hmade := hmade.call os (.close fd.ret)
      (aside_descriptor hret rfl (hparts.of_part hopened))
    have htable := close_opened os hret hparts
    generalize buf.process.call os (.close fd.ret) = closed at hmade htable
    split_ifs with hpid hkill
    · exact ⟨(hmade.call os (.kill _) (aside_kill hpid _)).call os (.sleep _) (aside_sleep _ _), htable⟩
    · exact ⟨hmade.call os (.kill _) (aside_kill hpid _), htable⟩
    · exact ⟨hmade, htable⟩

theorem takeLock_spec (index : Int) (hups : Nat) (p : Process κ) : (takeLock os index hups p).Spec index p := by
  induction hups generalizing p with
  | zero => exact tryLock_spec os index p
  | succ hups ih =>
    have hturn := tryLock_spec os index p
    simp only [takeLock]
    generalize tryLock os index p = turn at hturn
    split_ifs with hlocked hagain
    · exact hturn
    all_goals
      obtain ⟨hmade, htable⟩ := hangUp_spec os index turn.process
      rw [hturn.unlocked (Bool.not_eq_true _ ▸ hlocked)] at htable
      replace hmade := hturn.made.trans hmade
    · obtain ⟨hrest, hunlocked, hlocked⟩ := ih (hangUp os index turn.process).2
      rw [htable] at hunlocked hlocked
      exact ⟨hmade.trans hrest, hunlocked, hlocked⟩
    · exact ⟨hmade, fun _ => htable, nofun⟩

/-- After the loop there is the lock, or the lock was asked for in vain. -/
theorem enterLock_spec (index : Int) (lock : TfLock) (p : Process κ) :
    let locking := enterLock os index lock p
    p.Made Moment.Aside locking.process ∧
      (locking.locked = false → lock ≠ .none ∧ locking.process.table = p.table) ∧
      (locking.locked = true → (if lock = .none then locking.fd = -1 else 0 ≤ locking.fd) ∧
        Parts p.table (lockPart index lock locking.fd) locking.process.table) := by
  have htaken : ∀ hups, lock ≠ .none →
      let locking := takeLock os index hups p
      p.Made Moment.Aside locking.process ∧
        (locking.locked = false → lock ≠ .none ∧ locking.process.table = p.table) ∧
        (locking.locked = true → (if lock = .none then locking.fd = -1 else 0 ≤ locking.fd) ∧
          Parts p.table (lockPart index lock locking.fd) locking.process.table) := by
    intro hups hlock
    obtain ⟨hmade, hunlocked, hlocked⟩ := takeLock_spec os index hups p
    simp only [lockPart, if_neg hlock]
    exact ⟨hmade, fun h => ⟨hlock, hunlocked h⟩, hlocked⟩
  cases lock with
  | none => exact ⟨Process.made_refl _ p, nofun, fun _ => ⟨rfl, Parts.empty p.table⟩⟩
  | std => exact htaken 0 (by simp)
  | hup => exact htaken 1 (by simp)

end Lock

end Topfield
