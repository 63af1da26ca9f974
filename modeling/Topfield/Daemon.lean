import Topfield.Lib.Ownership
import Topfield.Lock
import Mathlib.Data.Finset.SDiff

/-!
# The pid file of a daemon

`daemon.c`: any number of processes lock one pid file by `daemon_acquire_lock` and `daemon_lock_pid`, in any order
and as often as they like, and every system call may fail. The lock is a record lock. It belongs to the process,
whichever descriptor it was asked for by, and goes when the process closes any descriptor of the file. Only the
holder's pid and a newline are in the file while the lock is held.
-/

namespace Topfield

open Lib

inductive DaemonFunction
  | acquireLock
  | lockPid
deriving DecidableEq

/-- What `fcntl(fd, F_SETLK, &lock)` says: EACCES and EAGAIN are `busy`. -/
inductive SetLock
  | ok
  | busy
  | error
deriving DecidableEq

/-- Where a process is: the next system call it makes, and what the variables are. -/
inductive DaemonPc
  | idle
  | opening (f : DaemonFunction) (blockSeconds : Int)
  | locking (f : DaemonFunction) (blockSeconds : Int) (tries fd : Nat)
  | sleeping (f : DaemonFunction) (blockSeconds : Int) (tries fd : Nat)
  | truncating (f : DaemonFunction) (fd : Nat)
  | writing (f : DaemonFunction) (fd : Nat)
  | gettingFd (f : DaemonFunction) (fd : Nat)
  | settingFd (f : DaemonFunction) (fd : Nat)
  /-- about to return, with the file left open -/
  | locked (f : DaemonFunction) (fd : Nat)
  /-- about to close `fd`, after which `daemon_acquire_lock` returns `ret` -/
  | failing (f : DaemonFunction) (ret : Int) (fd : Nat)
  /-- `daemon_lock_pid`, about to open the file for the pid in it -/
  | asking
  | reading (fd : Nat)
  | closingRead (pid : Int) (fd : Nat)
  | returned (f : DaemonFunction) (ret : Int)
  | exited
deriving DecidableEq

/-- Calls of the functions, and the system calls that they make, with their results. -/
inductive DaemonAction
  | acquireLock (blockSeconds : Int)
  | lockPid
  | releaseLock (fd : Nat)
  | openWrite (fd : Option Nat)
  | setLock (result : SetLock)
  | sleep
  | ftruncate (ok : Bool)
  | write (count : Option Nat)
  | getFd (ok : Bool)
  | setFd (ok : Bool)
  | close
  | openRead (fd : Option Nat)
  | read (ok : Bool)
  | ret
  | exit
deriving DecidableEq

/-- What a call does when `daemon_acquire_lock` has failed. -/
def DaemonFunction.failed (f : DaemonFunction) (ret : Int) : DaemonPc :=
  match f with
  | .acquireLock => .returned .acquireLock ret
  | .lockPid => if ret = -1 then .asking else .returned .lockPid (-1)

/-- Where a process is after an action, given its pid as text, what is in the file, whether another process has
the lock, and which descriptors of the file are open. -/
def DaemonPc.next (text file : List UInt8) (busy : Bool) (fds : Finset Nat) :
    DaemonPc → DaemonAction → Option DaemonPc
  | .idle, .acquireLock blockSeconds => some (.opening .acquireLock blockSeconds)
  | .idle, .lockPid => some (.opening .lockPid 0)
  | .idle, .releaseLock _ => some .idle
  | .returned _ _, .acquireLock blockSeconds => some (.opening .acquireLock blockSeconds)
  | .returned _ _, .lockPid => some (.opening .lockPid 0)
  | .returned _ _, .releaseLock _ => some .idle
  | .opening f _, .openWrite none => some (f.failed (-2))
  | .opening f blockSeconds, .openWrite (some fd) =>
    if fd ∈ fds then none else some (.locking f blockSeconds 0 fd)
  | .locking f _ _ fd, .setLock .ok => if busy then none else some (.truncating f fd)
  | .locking f blockSeconds tries fd, .setLock .busy =>
    if busy then
      some (if (tries : Int) ≥ blockSeconds then .failing f (-1) fd else .sleeping f blockSeconds (tries + 1) fd)
    else none
  | .locking f _ _ fd, .setLock .error => some (.failing f (-2) fd)
  | .sleeping f blockSeconds tries fd, .sleep => some (.locking f blockSeconds tries fd)
  | .truncating f fd, .ftruncate ok => some (if ok then .writing f fd else .failing f (-2) fd)
  | .writing f fd, .write count => some (if count = some text.length then .gettingFd f fd else .failing f (-2) fd)
  -- the close-on-exec flag is no matter of life and death
  | .gettingFd f fd, .getFd ok => some (if ok then .settingFd f fd else .locked f fd)
  | .settingFd f fd, .setFd _ => some (.locked f fd)
  | .locked f fd, .ret => some (.returned f (match f with | .acquireLock => fd | .lockPid => 0))
  | .failing f ret _, .close => some (f.failed ret)
  | .asking, .openRead none => some (.returned .lockPid 1)
  | .asking, .openRead (some fd) => if fd ∈ fds then none else some (.reading fd)
  | .reading fd, .read ok => some (.closingRead (readPid file ok) fd)
  | .closingRead pid _, .close => some (.returned .lockPid (if pid = 0 then 1 else pid))
  | _, .exit => some .exited
  | _, _ => none

/-- The descriptor that a call has opened and has neither closed nor returned. -/
def DaemonPc.fds : DaemonPc → Finset Nat
  | .locking _ _ _ fd => {fd}
  | .sleeping _ _ _ fd => {fd}
  | .truncating _ fd => {fd}
  | .writing _ fd => {fd}
  | .gettingFd _ fd => {fd}
  | .settingFd _ fd => {fd}
  | .locked _ fd => {fd}
  | .failing _ _ fd => {fd}
  | .reading fd => {fd}
  | .closingRead _ fd => {fd}
  | _ => ∅

/-- The pid file, the process that has its lock, and of every process the descriptors of the file it has open,
those it has been given by a call and has not released, and where it is. -/
structure DaemonState (Proc : Type) where
  file : List UInt8
  owner : Option Proc
  fds : Proc → Finset Nat
  held : Proc → Finset Nat
  pc : Proc → DaemonPc

structure Daemons (Proc : Type) where
  pid : Proc → Nat
  pid_lt : ∀ p, pid p < 10 ^ 9

variable {Proc : Type} [DecidableEq Proc]

namespace DaemonState

variable (s : DaemonState Proc) (p : Proc)

def goto (pc : DaemonPc) : DaemonState Proc := { s with pc := Function.update s.pc p pc }

def busy : Bool := s.owner.any (· ≠ p)

/-- `close`, with which the process loses the lock. -/
def closeFds (fds : Finset Nat) : DaemonState Proc :=
  { s with
    fds := Function.update s.fds p (s.fds p \ fds)
    owner := if s.owner = some p ∧ (s.fds p ∩ fds).Nonempty then none else s.owner }

/-- What an action does to the file, the lock and the descriptors. -/
@[simp] def perform (text : List UInt8) : DaemonAction → DaemonState Proc
  | .openWrite (some fd) => { s with fds := Function.update s.fds p (s.fds p ∪ {fd}) }
  | .openRead (some fd) => { s with fds := Function.update s.fds p (s.fds p ∪ {fd}) }
  | .setLock .ok => { s with owner := some p }
  | .ftruncate true => { s with file := [] }
  | .write (some count) => { s with file := overwrite s.file (text.take count) }
  | .close => s.closeFds p (s.pc p).fds
  | .ret => { s with held := Function.update s.held p (s.held p ∪ (s.pc p).fds) }
  | .releaseLock fd => { s.closeFds p {fd} with held := Function.update s.held p (s.held p \ {fd}) }
  | .exit => { s.closeFds p (s.fds p) with held := Function.update s.held p ∅ }
  | _ => s

end DaemonState

variable (daemons : Daemons Proc)

/-- Before any call, with what is in the file from earlier. -/
def daemonStart (stale : List UInt8) : DaemonState Proc where
  file := stale
  owner := none
  fds _ := ∅
  held _ := ∅
  pc _ := .idle

def daemonStep (s : DaemonState Proc) (step : Proc × DaemonAction) : Option (DaemonState Proc) :=
  ((s.pc step.1).next (pidText (daemons.pid step.1)) s.file (s.busy step.1) (s.fds step.1) step.2).map
    ((s.perform step.1 (pidText (daemons.pid step.1)) step.2).goto step.1)

/-- An interleaving of the actions of all the processes. -/
abbrev DaemonRun (stale : List UInt8) := Execution (daemonStep daemons) (daemonStart stale)

/-! ### What an action does -/

namespace DaemonPc

def Calling : DaemonPc → Prop
  | .idle => False
  | .returned _ _ => False
  | .exited => False
  | _ => True

def Locked : DaemonPc → Prop
  | .truncating _ _ => True
  | .writing _ _ => True
  | .gettingFd _ _ => True
  | .settingFd _ _ => True
  | .locked _ _ => True
  | _ => False

def Written : DaemonPc → Prop
  | .gettingFd _ _ => True
  | .settingFd _ _ => True
  | .locked _ _ => True
  | _ => False

def Writing : DaemonPc → Prop
  | .writing _ _ => True
  | _ => False

theorem locked_of_written {pc : DaemonPc} (h : pc.Written) : pc.Locked := by
  cases pc <;> trivial

theorem locked_of_writing {pc : DaemonPc} (h : pc.Writing) : pc.Locked := by
  cases pc <;> trivial

theorem calling_of_locked {pc : DaemonPc} (h : pc.Locked) : pc.Calling := by
  cases pc <;> trivial

def Begins : DaemonAction → Prop
  | .acquireLock _ => True
  | .lockPid => True
  | _ => False

variable (text file : List UInt8) (busy : Bool) (fds : Finset Nat)

/-- The moves of a process, one by one. -/
inductive Move : DaemonPc → DaemonAction → DaemonPc → Prop
  | acquireLock {pc b} : ¬ pc.Calling → Move pc (.acquireLock b) (.opening .acquireLock b)
  | lockPid {pc} : ¬ pc.Calling → Move pc .lockPid (.opening .lockPid 0)
  | releaseLock {pc fd} : ¬ pc.Calling → Move pc (.releaseLock fd) .idle
  | openFails {f b} : Move (.opening f b) (.openWrite none) (f.failed (-2))
  | opens {f b fd} : fd ∉ fds → Move (.opening f b) (.openWrite (some fd)) (.locking f b 0 fd)
  | locks {f b tries fd} : busy = false → Move (.locking f b tries fd) (.setLock .ok) (.truncating f fd)
  | givesUp {f b fd} {tries : Nat} : busy = true → b ≤ (tries : Int) →
      Move (.locking f b tries fd) (.setLock .busy) (.failing f (-1) fd)
  | waits {f b fd} {tries : Nat} : busy = true → (tries : Int) < b →
      Move (.locking f b tries fd) (.setLock .busy) (.sleeping f b (tries + 1) fd)
  | lockFails {f b tries fd} : Move (.locking f b tries fd) (.setLock .error) (.failing f (-2) fd)
  | wakes {f b tries fd} : Move (.sleeping f b tries fd) .sleep (.locking f b tries fd)
  | truncates {f fd} : Move (.truncating f fd) (.ftruncate true) (.writing f fd)
  | truncateFails {f fd} : Move (.truncating f fd) (.ftruncate false) (.failing f (-2) fd)
  | writes {f fd} : Move (.writing f fd) (.write (some text.length)) (.gettingFd f fd)
  | writeFails {f fd count} : count ≠ some text.length →
      Move (.writing f fd) (.write count) (.failing f (-2) fd)
  | getsFd {f fd} : Move (.gettingFd f fd) (.getFd true) (.settingFd f fd)
  | getFdFails {f fd} : Move (.gettingFd f fd) (.getFd false) (.locked f fd)
  | setsFd {f fd ok} : Move (.settingFd f fd) (.setFd ok) (.locked f fd)
  | acquires {fd} : Move (.locked .acquireLock fd) .ret (.returned .acquireLock fd)
  | locksPid {fd} : Move (.locked .lockPid fd) .ret (.returned .lockPid 0)
  | fails {f ret fd} : Move (.failing f ret fd) .close (f.failed ret)
  | askFails : Move .asking (.openRead none) (.returned .lockPid 1)
  | asks {fd} : fd ∉ fds → Move .asking (.openRead (some fd)) (.reading fd)
  | reads {ok fd} : Move (.reading fd) (.read ok) (.closingRead (readPid file ok) fd)
  | answers {pid fd} : Move (.closingRead pid fd) .close (.returned .lockPid (if pid = 0 then 1 else pid))
  | exits {pc} : Move pc .exit .exited

variable {text file busy fds} {pc pc' : DaemonPc} {a : DaemonAction}

theorem move_of_next (h : pc.next text file busy fds a = some pc') : Move text file busy fds pc a pc' := by
  unfold next at h
  split at h
  case h_8 f b fd =>
    split_ifs at h with hfd
    cases h
    exact .opens hfd
  case h_9 =>
    split_ifs at h with hbusy
    cases h
    exact .locks (Bool.eq_false_iff.mpr hbusy)
  case h_10 =>
    split_ifs at h with hbusy htries
    · cases h
      exact .givesUp hbusy htries
    · cases h
      exact .waits hbusy (Int.not_le.mp htries)
  case h_13 _ _ ok => cases ok <;> cases h <;> constructor
  case h_14 =>
    split_ifs at h with hcount
    · cases h
      rw [hcount]
      exact .writes
    · cases h
      exact .writeFails hcount
  case h_15 _ _ ok => cases ok <;> cases h <;> constructor
  case h_17 f _ => cases f <;> cases h <;> constructor
  case h_20 =>
    split_ifs at h with hfd
    cases h
    exact .asks hfd
  case h_24 => cases h
  all_goals
    cases h
    constructor
    try exact id

theorem failed_eq (f : DaemonFunction) (ret : Int) :
    (∃ g ret', f.failed ret = .returned g ret') ∨ f = .lockPid ∧ ret = -1 ∧ f.failed ret = .asking := by
  cases f with
  | acquireLock => exact .inl ⟨_, _, rfl⟩
  | lockPid =>
    by_cases hret : ret = -1
    · exact .inr ⟨rfl, hret, if_pos hret⟩
    · exact .inl ⟨_, _, if_neg hret⟩

theorem fds_failed (f : DaemonFunction) (ret : Int) : (f.failed ret).fds = ∅ := by
  rcases failed_eq f ret with ⟨g, ret', h⟩ | ⟨-, -, h⟩ <;> rw [h] <;> rfl

theorem not_locked_failed (f : DaemonFunction) (ret : Int) : ¬ (f.failed ret).Locked := by
  rcases failed_eq f ret with ⟨g, ret', h⟩ | ⟨-, -, h⟩ <;> rw [h] <;> exact id

theorem not_writing_failed (f : DaemonFunction) (ret : Int) : ¬ (f.failed ret).Writing := by
  rcases failed_eq f ret with ⟨g, ret', h⟩ | ⟨-, -, h⟩ <;> rw [h] <;> exact id

theorem fds_of_not_calling (h : ¬ pc.Calling) : pc.fds = ∅ := by
  cases pc <;> first | rfl | exact absurd trivial h

namespace Move

theorem calling (h : Move text file busy fds pc a pc') (hcalling : pc'.Calling) : pc.Calling ∨ Begins a := by
  cases h <;> first | exact .inl trivial | exact .inr trivial | exact hcalling.elim

/-- A call has the lock from `F_SETLK` on, and then does not close its descriptor before it returns. -/
theorem locked (h : Move text file busy fds pc a pc') (hlocked : pc'.Locked) :
    a = .setLock .ok ∧ busy = false ∨ pc.Locked ∧ a ≠ .close ∧ a ≠ .exit := by
  cases h with
  | locks hbusy => exact .inl ⟨rfl, hbusy⟩
  | fails => exact absurd hlocked (not_locked_failed _ _)
  | openFails => exact absurd hlocked (not_locked_failed _ _)
  | truncates => exact .inr ⟨trivial, by simp, by simp⟩
  | writes => exact .inr ⟨trivial, by simp, by simp⟩
  | getsFd => exact .inr ⟨trivial, by simp, by simp⟩
  | getFdFails => exact .inr ⟨trivial, by simp, by simp⟩
  | setsFd => exact .inr ⟨trivial, by simp, by simp⟩
  | _ => exact hlocked.elim

theorem written (h : Move text file busy fds pc a pc') (hwritten : pc'.Written) :
    pc.Writing ∧ a = .write (some text.length) ∨
      pc.Written ∧ a ≠ .ftruncate true ∧ ∀ count, a ≠ .write (some count) := by
  cases h with
  | writes => exact .inl ⟨trivial, rfl⟩
  | fails => exact absurd (locked_of_written hwritten) (not_locked_failed _ _)
  | openFails => exact absurd (locked_of_written hwritten) (not_locked_failed _ _)
  | getsFd => exact .inr ⟨trivial, by simp, by simp⟩
  | getFdFails => exact .inr ⟨trivial, by simp, by simp⟩
  | setsFd => exact .inr ⟨trivial, by simp, by simp⟩
  | _ => exact hwritten.elim

theorem writing (h : Move text file busy fds pc a pc') (hwriting : pc'.Writing) : a = .ftruncate true := by
  cases h with
  | truncates => rfl
  | fails => exact absurd hwriting (not_writing_failed _ _)
  | openFails => exact absurd hwriting (not_writing_failed _ _)
  | _ => exact hwriting.elim

theorem changes (h : Move text file busy fds pc a pc')
    (hchanges : a = .ftruncate true ∨ ∃ count, a = .write (some count)) : pc.Locked := by
  cases h <;> first | trivial | simp at hchanges

theorem setsLock (h : Move text file busy fds pc (.setLock .ok) pc') : busy = false := by
  cases h
  assumption

theorem closes (h : Move text file busy fds pc .close pc') : pc.Calling := by
  cases h <;> trivial

theorem releases {fd : Nat} (h : Move text file busy fds pc (.releaseLock fd) pc') : ¬ pc.Calling := by
  cases h
  assumption

theorem returns (h : Move text file busy fds pc .ret pc') : pc.Written ∧ ¬ pc'.Calling := by
  cases h <;> exact ⟨trivial, id⟩

end Move

end DaemonPc

variable {daemons} {stale : List UInt8} {s s' : DaemonState Proc} {p q : Proc} {a : DaemonAction}

theorem daemonStep_eq_some (h : daemonStep daemons s (p, a) = some s') :
    ∃ pc, DaemonPc.Move (pidText (daemons.pid p)) s.file (s.busy p) (s.fds p) (s.pc p) a pc ∧
      s' = (s.perform p (pidText (daemons.pid p)) a).goto p pc := by
  obtain ⟨pc, hpc, rfl⟩ := Option.map_eq_some_iff.mp h
  exact ⟨pc, DaemonPc.move_of_next hpc, rfl⟩

namespace DaemonState

variable (s) (text : List UInt8)

theorem perform_pc (p : Proc) (a : DaemonAction) : (s.perform p text a).pc = s.pc := by
  unfold perform
  split <;> rfl

theorem perform_fds_of_ne {p q : Proc} (a : DaemonAction) (hq : q ≠ p) :
    (s.perform p text a).fds q = s.fds q := by
  unfold perform closeFds
  split <;> first | rfl | exact Function.update_of_ne hq _ _

theorem perform_held_of_ne {p q : Proc} (a : DaemonAction) (hq : q ≠ p) :
    (s.perform p text a).held q = s.held q := by
  unfold perform closeFds
  split <;> first | rfl | exact Function.update_of_ne hq _ _

theorem closeFds_owner_of_ne {p q : Proc} (fds : Finset Nat) (hq : q ≠ p) (howner : s.owner = some q) :
    (s.closeFds p fds).owner = some q := by
  have hne : s.owner ≠ some p := by
    rw [howner]
    exact fun h => hq (Option.some.inj h)
  exact (if_neg fun h => hne h.1).trans howner

/-- A process loses the lock by its own actions only. -/
theorem perform_owner_of_ne {p q : Proc} (a : DaemonAction) (hq : q ≠ p) (howner : s.owner = some q)
    (hset : a = .setLock .ok → s.busy p = false) : (s.perform p text a).owner = some q := by
  unfold perform
  split
  case h_3 =>
    have hbusy := hset rfl
    rw [busy, howner, Option.any_some, decide_eq_false_iff_not] at hbusy
    exact absurd hq hbusy
  case h_6 => exact s.closeFds_owner_of_ne _ hq howner
  case h_8 => exact s.closeFds_owner_of_ne _ hq howner
  case h_9 => exact s.closeFds_owner_of_ne _ hq howner
  all_goals exact howner

theorem closeFds_owner_of_disjoint {p : Proc} {fds : Finset Nat} (h : Disjoint (s.fds p) fds) :
    (s.closeFds p fds).owner = s.owner := by
  refine if_neg fun hlost => ?_
  rw [Finset.disjoint_iff_inter_eq_empty.mp h] at hlost
  exact Finset.not_nonempty_empty hlost.2

theorem perform_owner_self {p : Proc} (a : DaemonAction) (howner : s.owner = some p) (hclose : a ≠ .close)
    (hexit : a ≠ .exit) (hrelease : ∀ fd, a = .releaseLock fd → fd ∉ s.fds p) :
    (s.perform p text a).owner = some p := by
  unfold perform
  split
  case h_3 => rfl
  case h_6 => exact absurd rfl hclose
  case h_8 fd =>
    have hfd := hrelease fd rfl
    exact (s.closeFds_owner_of_disjoint (Finset.disjoint_singleton_right.mpr hfd)).trans howner
  case h_9 => exact absurd rfl hexit
  all_goals exact howner

theorem perform_file (p : Proc) (a : DaemonAction) (h : (s.perform p text a).file ≠ s.file) :
    a = .ftruncate true ∨ ∃ count, a = .write (some count) := by
  unfold perform closeFds at h
  split at h <;> first | exact absurd rfl h | exact .inl rfl | exact .inr ⟨_, rfl⟩

@[simp] theorem goto_pc_self (p : Proc) (pc : DaemonPc) : (s.goto p pc).pc p = pc :=
  Function.update_self _ _ _

theorem goto_pc_of_ne {p q : Proc} (pc : DaemonPc) (hq : q ≠ p) : (s.goto p pc).pc q = s.pc q :=
  Function.update_of_ne hq _ _

@[simp] theorem goto_file (p : Proc) (pc : DaemonPc) : (s.goto p pc).file = s.file := rfl
@[simp] theorem goto_owner (p : Proc) (pc : DaemonPc) : (s.goto p pc).owner = s.owner := rfl
@[simp] theorem goto_fds (p : Proc) (pc : DaemonPc) : (s.goto p pc).fds = s.fds := rfl
@[simp] theorem goto_held (p : Proc) (pc : DaemonPc) : (s.goto p pc).held = s.held := rfl

end DaemonState

/-- Other processes are where they were, with the descriptors they had. -/
theorem daemonStep_other (h : daemonStep daemons s (p, a) = some s') (hq : q ≠ p) :
    s'.pc q = s.pc q ∧ s'.fds q = s.fds q ∧ s'.held q = s.held q := by
  obtain ⟨pc, -, rfl⟩ := daemonStep_eq_some h
  refine ⟨?_, s.perform_fds_of_ne _ a hq, s.perform_held_of_ne _ a hq⟩
  rw [DaemonState.goto_pc_of_ne _ _ hq, DaemonState.perform_pc]

/-! ### Descriptors -/

/-- A process has open the descriptors that it has been given and not released, and the one of the call it is in. -/
structure DaemonState.Accounts (s : DaemonState Proc) (p : Proc) : Prop where
  fds_eq : s.fds p = s.held p ∪ (s.pc p).fds
  fresh : Disjoint (s.held p) (s.pc p).fds

omit [DecidableEq Proc] in
/-- Without the descriptor of the call, it has those that it was given. -/
theorem DaemonState.Accounts.sdiff_eq (h : s.Accounts p) : s.fds p \ (s.pc p).fds = s.held p := by
  rw [h.fds_eq, Finset.union_sdiff_cancel_right h.fresh]

theorem daemonStep_accounts (h : daemonStep daemons s (p, a) = some s') (hs : s.Accounts p) : s'.Accounts p := by
  obtain ⟨pc, hmove, rfl⟩ := daemonStep_eq_some h
  clear h
  have hclosed := hs.sdiff_eq
  obtain ⟨hfds, hfresh⟩ := hs
  generalize hpc : s.pc p = pc₀ at hmove hfds hfresh hclosed
  cases hmove with
  | acquireLock hnot =>
    rw [DaemonPc.fds_of_not_calling hnot] at hfds hfresh
    constructor <;> simpa [DaemonState.perform]
  | lockPid hnot =>
    rw [DaemonPc.fds_of_not_calling hnot] at hfds hfresh
    constructor <;> simpa [DaemonState.perform]
  | releaseLock hnot =>
    rw [DaemonPc.fds_of_not_calling hnot] at hfds hfresh
    constructor <;> simp_all [DaemonState.perform, DaemonState.closeFds, DaemonPc.fds]
  | openFails => constructor <;> simpa only [DaemonState.goto_pc_self, DaemonPc.fds_failed]
  | fails =>
    constructor
    · simpa [DaemonState.perform, DaemonState.closeFds, DaemonPc.fds_failed, hpc] using hclosed
    · simp only [DaemonState.goto_pc_self, DaemonPc.fds_failed, Finset.disjoint_empty_right]
  | answers =>
    constructor
    · simpa [DaemonState.perform, DaemonState.closeFds, DaemonPc.fds, hpc] using hclosed
    · simp [DaemonPc.fds]
  | @writeFails f fd count => cases count <;> constructor <;> simp_all [DaemonState.perform, DaemonPc.fds]
  | _ => constructor <;> simp_all [DaemonState.perform, DaemonState.closeFds, DaemonPc.fds]

end Topfield
