import Topfield.DaemonLock

/-!
# Whom a daemon finds running, and how long it waits

The pid that `daemon_lock_pid` returns, and the tries that `daemon_acquire_lock` makes for the lock.
-/

namespace Topfield

open Lib

variable {Proc : Type} [DecidableEq Proc] {daemons : Daemons Proc} {stale : List UInt8}
  {s s' : DaemonState Proc} {p q : Proc} {a : DaemonAction}

/-! ### The pid -/

namespace DaemonPc.Move

variable {text file : List UInt8} {busy : Bool} {fds : Finset Nat} {pc pc' : DaemonPc}

/-- An answer is 0 with the lock, −1 for an error, 1 for a pid that cannot be told, or the pid from the file. -/
theorem answered {ret : Int} (h : Move text file busy fds pc a (.returned .lockPid ret)) :
    ret = 0 ∨ ret = -1 ∨ ret = 1 ∨ a = .close ∧ ∃ fd, pc = .closingRead ret fd := by
  generalize hpc : DaemonPc.returned .lockPid ret = pc' at h
  have hfailed {f : DaemonFunction} {ret' : Int} (h : f.failed ret' = .returned .lockPid ret) : ret = -1 := by
    cases f with
    | acquireLock => cases h
    | lockPid =>
      rw [DaemonFunction.failed] at h
      split_ifs at h
      cases h
      rfl
  cases h with
  | locksPid =>
    cases hpc
    exact .inl rfl
  | openFails => exact .inr (.inl (hfailed hpc.symm))
  | fails => exact .inr (.inl (hfailed hpc.symm))
  | askFails =>
    cases hpc
    exact .inr (.inr (.inl rfl))
  | @answers pid fd =>
    cases hpc
    by_cases hpid : pid = 0
    · rw [if_pos hpid]
      exact .inr (.inr (.inl rfl))
    · rw [if_neg hpid]
      exact .inr (.inr (.inr ⟨rfl, fd, rfl⟩))
  | _ => cases hpc

theorem read {pid : Int} {fd : Nat} (h : Move text file busy fds pc a (.closingRead pid fd)) :
    ∃ ok, a = .read ok ∧ pid = readPid file ok := by
  generalize hpc : DaemonPc.closingRead pid fd = pc' at h
  cases h with
  | reads =>
    cases hpc
    exact ⟨_, rfl, rfl⟩
  | openFails => rcases failed_eq _ _ with ⟨_, _, h⟩ | ⟨-, -, h⟩ <;> rw [h] at hpc <;> cases hpc
  | fails => rcases failed_eq _ _ with ⟨_, _, h⟩ | ⟨-, -, h⟩ <;> rw [h] at hpc <;> cases hpc
  | _ => cases hpc

theorem write {count : Option Nat} (h : Move text file busy fds pc (.write count) pc') : pc.Writing := by
  cases h <;> trivial

end DaemonPc.Move

theorem daemonStep_pc {step : Proc × DaemonAction} (h : daemonStep daemons s step = some s') (p : Proc) :
    (step.1 ≠ p ∧ s'.pc p = s.pc p) ∨ step.1 = p ∧
      DaemonPc.Move (pidText (daemons.pid p)) s.file (s.busy p) (s.fds p) (s.pc p) step.2 (s'.pc p) := by
  by_cases hp : p = step.1
  · subst hp
    obtain ⟨pc, hmove, rfl⟩ := daemonStep_eq_some h
    rw [DaemonState.goto_pc_self]
    exact .inr ⟨rfl, hmove⟩
  · exact .inl ⟨Ne.symm hp, (daemonStep_other h hp).1⟩

namespace DaemonRun

variable {run : DaemonRun daemons stale} {i k : Nat}

def WholeWrites (run : DaemonRun daemons stale) : Prop :=
  ∀ i < run.length, ∀ p count, run.action i = (p, .write (some count)) →
    count = (pidText (daemons.pid p)).length

/-- The process has last read the file at moment `r`. -/
structure LastRead (run : DaemonRun daemons stale) (k r : Nat) (p : Proc) (ok : Bool) : Prop where
  before : r < k
  read : run.action r = (p, .read ok)
  last : ∀ j, r < j → j < k → ∀ ok, run.action j ≠ (p, .read ok)

theorem LastRead.succ {r : Nat} {ok : Bool} (h : run.LastRead k r p ok)
    (hnot : ∀ ok, run.action k ≠ (p, .read ok)) : run.LastRead (k + 1) r p ok := by
  refine ⟨Nat.lt_succ_of_lt h.before, h.read, fun j hrj hj => ?_⟩
  rcases Nat.lt_succ_iff_lt_or_eq.mp hj with hlt | rfl
  · exact h.last j hrj hlt
  · exact hnot

/-- What is in the file was there before all calls, or is the pid of a process that had the lock when it wrote
it. -/
theorem WholeWrites.file_eq (h : run.WholeWrites) (hk : k ≤ run.length) :
    (run.state k).file = stale ∨ (run.state k).file = [] ∨
      ∃ w < k, ∃ q, (∃ count, run.action w = (q, .write (some count))) ∧ (run.state w).owner = some q ∧
        (run.state k).file = pidText (daemons.pid q) := by
  refine run.induction (fun k => (run.state k).file = stale ∨ (run.state k).file = [] ∨
      ∃ w < k, ∃ q, (∃ count, run.action w = (q, .write (some count))) ∧ (run.state w).owner = some q ∧
        (run.state k).file = pidText (daemons.pid q)) ?_ ?_ k hk
  · rw [run.state_zero]
    exact .inl rfl
  · intro k hk ih
    obtain ⟨pc, hmove, hnext⟩ := daemonStep_eq_some (run.next k hk)
    by_cases hsame : (run.state (k + 1)).file = (run.state k).file
    · rw [hsame]
      refine ih.imp id (Or.imp id ?_)
      rintro ⟨w, hw, hwritten⟩
      exact ⟨w, Nat.lt_succ_of_lt hw, hwritten⟩
    · rw [hnext, DaemonState.goto_file] at hsame ⊢
      rcases DaemonState.perform_file _ _ _ _ hsame with haction | ⟨count, haction⟩
      · rw [haction]
        exact .inr (.inl rfl)
      · have hwhole := h k hk _ count (Prod.ext rfl haction)
        have hwriting := DaemonPc.Move.write (haction ▸ hmove)
        refine .inr (.inr ⟨k, Nat.lt_succ_self k, (run.action k).1, ⟨count, Prod.ext rfl haction⟩,
          run.owner_of_locked (Nat.le_of_lt hk) (DaemonPc.locked_of_writing hwriting), ?_⟩)
        rw [haction, DaemonState.perform, run.file_of_writing (Nat.le_of_lt hk) hwriting, hwhole,
          List.take_length, overwrite_nil]

theorem read_before (run : DaemonRun daemons stale) (hk : k ≤ run.length) {pid : Int} {fd : Nat}
    (hpc : (run.state k).pc p = .closingRead pid fd) :
    ∃ r ok, run.LastRead k r p ok ∧ pid = readPid (run.state r).file ok := by
  refine run.induction (fun k => (run.state k).pc p = .closingRead pid fd →
    ∃ r ok, run.LastRead k r p ok ∧ pid = readPid (run.state r).file ok) ?_ ?_ k hk hpc
  · intro hpc
    rw [run.state_zero] at hpc
    cases hpc
  · intro k hk ih hpc
    rcases daemonStep_pc (run.next k hk) p with ⟨hother, hsame⟩ | ⟨hacts, hmove⟩
    · obtain ⟨r, ok, hread, hpid⟩ := ih (hsame ▸ hpc)
      exact ⟨r, ok, hread.succ fun ok h => hother (congrArg Prod.fst h), hpid⟩
    · rw [hpc] at hmove
      obtain ⟨ok, haction, hpid⟩ := hmove.read
      refine ⟨k, ok, ⟨Nat.lt_succ_self k, Prod.ext hacts haction, fun j hkj hj => ?_⟩, hpid⟩
      exact absurd hkj (Nat.not_lt.mpr (Nat.le_of_lt_succ hj))

theorem answer_before (run : DaemonRun daemons stale) (hk : k ≤ run.length) {ret : Int}
    (hpc : (run.state k).pc p = .returned .lockPid ret) : ret = 0 ∨ ret = -1 ∨ ret = 1 ∨
      ∃ r ok, run.LastRead k r p ok ∧ ret = readPid (run.state r).file ok := by
  refine run.induction (fun k => (run.state k).pc p = .returned .lockPid ret → ret = 0 ∨ ret = -1 ∨ ret = 1 ∨
    ∃ r ok, run.LastRead k r p ok ∧ ret = readPid (run.state r).file ok) ?_ ?_ k hk hpc
  · intro hpc
    rw [run.state_zero] at hpc
    cases hpc
  · intro k hk ih hpc
    rcases daemonStep_pc (run.next k hk) p with ⟨hother, hsame⟩ | ⟨-, hmove⟩
    · refine (ih (hsame ▸ hpc)).imp id (Or.imp id (Or.imp id ?_))
      rintro ⟨r, ok, hread, hret⟩
      exact ⟨r, ok, hread.succ fun ok h => hother (congrArg Prod.fst h), hret⟩
    · rw [hpc] at hmove
      refine hmove.answered.imp id (Or.imp id (Or.imp id ?_))
      rintro ⟨hclose, fd, hbefore⟩
      obtain ⟨r, ok, hread, hret⟩ := run.read_before (Nat.le_of_lt hk) hbefore
      refine ⟨r, ok, hread.succ fun ok h => ?_, hret⟩
      rw [h] at hclose
      cases hclose

end DaemonRun

/-- **Whom a daemon finds running.** If `daemon_lock_pid` does not return 0, −1 or 1, it has read the pid of a
process that had the lock when it wrote it, or what was in the file before all calls. If a process that has
written its pid has the lock when the file is read, it is that one's pid. -/
theorem DaemonRun.Careful.lockPid_answer {run : DaemonRun daemons stale} (h : run.Careful)
    (hwhole : run.WholeWrites) {k : Nat} (hk : k ≤ run.length) {p : Proc} {ret : Int}
    (hpc : (run.state k).pc p = .returned .lockPid ret) :
    ret = 0 ∨ ret = -1 ∨ ret = 1 ∨ ∃ r, run.LastRead k r p true ∧
      (∀ q, (run.state r).HasWritten q → ret = daemons.pid q) ∧
      (ret = readPid stale true ∨ ∃ w < r, ∃ q, (∃ count, run.action w = (q, .write (some count))) ∧
        (run.state w).owner = some q ∧ ret = daemons.pid q) := by
  have hpid (q : Proc) : readPid (pidText (daemons.pid q)) true = daemons.pid q := by
    have hread := readPid_pidText (daemons.pid_lt q) []
    rwa [List.append_nil] at hread
  rcases run.answer_before hk hpc with hzero | herror | hone | ⟨r, ok, hread, hret⟩
  · exact .inl hzero
  · exact .inr (.inl herror)
  · exact .inr (.inr (.inl hone))
  · cases ok with
    | false => exact .inl hret
    | true =>
      have hrlength : r ≤ run.length := Nat.le_trans (Nat.le_of_lt hread.before) hk
      rcases hwhole.file_eq hrlength with hfile | hfile | ⟨w, hw, q, hwrites, howner, hfile⟩
      · refine .inr (.inr (.inr ⟨r, hread, fun q hq => ?_, .inl (hfile ▸ hret)⟩))
        rw [hret, h.file_of_hasWritten hrlength hq, hpid]
      · rw [hfile, readPid_nil] at hret
        exact .inl hret
      · refine .inr (.inr (.inr ⟨r, hread, fun q hq => ?_, .inr ⟨w, hw, q, hwrites, howner, ?_⟩⟩))
        · rw [hret, h.file_of_hasWritten hrlength hq, hpid]
        · rw [hret, hfile, hpid]

theorem wholeWrites_locked : lockedRun.WholeWrites := by
  intro i hi
  have hi : i < 15 := hi
  interval_cases i <;> rintro p count ⟨⟩
  decide

theorem lockPid_answer_locked : (100 : Int) = 0 ∨ (100 : Int) = -1 ∨ (100 : Int) = 1 ∨ ∃ r,
    lockedRun.LastRead 15 r 1 true ∧
      (∀ q, (lockedRun.state r).HasWritten q → (100 : Int) = twoDaemons.pid q) ∧
      ((100 : Int) = readPid [] true ∨ ∃ w < r, ∃ q, (∃ count, lockedRun.action w = (q, .write (some count))) ∧
        (lockedRun.state w).owner = some q ∧ (100 : Int) = twoDaemons.pid q) :=
  careful_locked.lockPid_answer wholeWrites_locked (by decide) (by decide)

/-! ### The tries -/

namespace DaemonPc

/-- How long a call of `daemon_acquire_lock` has waited that was told to wait for so many seconds: how often the
lock was busy, and how often it has slept. -/
def Waited (blockSeconds : Int) (busy slept : Nat) : DaemonPc → Prop
  | .opening _ b => b = blockSeconds ∧ busy = 0 ∧ slept = 0
  | .locking _ b tries _ => b = blockSeconds ∧ busy = tries ∧ slept = tries ∧ tries ≤ blockSeconds.toNat
  | .sleeping _ b tries _ => b = blockSeconds ∧ busy = tries ∧ slept + 1 = tries ∧ tries ≤ blockSeconds.toNat
  | .failing _ ret _ =>
    slept ≤ blockSeconds.toNat ∧ (ret = -1 → busy = blockSeconds.toNat + 1 ∧ slept = blockSeconds.toNat)
  | _ => slept ≤ blockSeconds.toNat

def left : DaemonPc → Nat
  | .opening _ b => 2 * b.toNat + 8
  | .locking _ b tries _ => 2 * (b.toNat - tries) + 7
  | .sleeping _ b tries _ => 2 * (b.toNat - tries) + 8
  | .truncating _ _ => 6
  | .writing _ _ => 5
  | .failing _ _ _ => 4
  | .gettingFd _ _ => 3
  | .asking => 3
  | .settingFd _ _ => 2
  | .reading _ => 2
  | .locked _ _ => 1
  | .closingRead _ _ => 1
  | _ => 0

variable {text file : List UInt8} {busy : Bool} {fds : Finset Nat} {pc pc' : DaemonPc}

theorem left_failed_le (f : DaemonFunction) (ret : Int) : (f.failed ret).left ≤ 3 := by
  rcases failed_eq f ret with ⟨_, _, h⟩ | ⟨-, -, h⟩ <;> rw [h]
  · exact Nat.zero_le 3
  · exact Nat.le_refl 3

theorem Move.left_lt (h : Move text file busy fds pc a pc') (hcalling : pc.Calling) : pc'.left < pc.left := by
  cases h with
  | acquireLock hnot => exact absurd hcalling hnot
  | lockPid hnot => exact absurd hcalling hnot
  | releaseLock hnot => exact absurd hcalling hnot
  | openFails => exact Nat.lt_of_le_of_lt (left_failed_le _ _) (Nat.lt_add_left _ (by decide))
  | fails => exact Nat.lt_succ_of_le (left_failed_le _ _)
  | exits => cases pc <;> first | exact hcalling.elim | simp [left]
  | _ => simp only [left]; omega

theorem Waited.slept_le {blockSeconds : Int} {n m : Nat} (h : pc.Waited blockSeconds n m) :
    m ≤ blockSeconds.toNat := by
  cases pc with
  | opening => exact h.2.2 ▸ Nat.zero_le _
  | locking => exact h.2.2.1 ▸ h.2.2.2
  | sleeping =>
    obtain ⟨-, -, hslept, hle⟩ := h
    omega
  | failing => exact h.1
  | _ => exact h

theorem Move.waited {blockSeconds : Int} {n m : Nat} (h : Move text file busy fds pc a pc') (hcalling : pc.Calling)
    (hcalling' : pc'.Calling) (hwaited : pc.Waited blockSeconds n m) :
    pc'.Waited blockSeconds (n + if a = .setLock .busy then 1 else 0) (m + if a = .sleep then 1 else 0) := by
  cases h with
  | acquireLock hnot => exact absurd hcalling hnot
  | lockPid hnot => exact absurd hcalling hnot
  | releaseLock hnot => exact absurd hcalling hnot
  | exits => exact hcalling'.elim
  | openFails =>
    rcases failed_eq _ _ with ⟨_, _, hfailed⟩ | ⟨-, -, hfailed⟩ <;> rw [hfailed] at hcalling' ⊢
    · exact hcalling'.elim
    · obtain ⟨-, -, rfl⟩ := hwaited
      exact Nat.zero_le _
  | fails =>
    rcases failed_eq _ _ with ⟨_, _, hfailed⟩ | ⟨-, -, hfailed⟩ <;> rw [hfailed] at hcalling' ⊢
    · exact hcalling'.elim
    · exact hwaited.1
  | opens => exact ⟨hwaited.1, hwaited.2.1, hwaited.2.2, Nat.zero_le _⟩
  | @givesUp f b fd tries _ hlast =>
    obtain ⟨rfl, hbusy, hslept, hle⟩ := hwaited
    have htries : tries = b.toNat := by omega
    exact ⟨hslept ▸ hle, fun _ => ⟨congrArg Nat.succ (hbusy.trans htries), hslept.trans htries⟩⟩
  | @waits f b fd tries _ hmore =>
    obtain ⟨rfl, rfl, rfl, -⟩ := hwaited
    refine ⟨rfl, rfl, rfl, ?_⟩
    omega
  | wakes => exact ⟨hwaited.1, hwaited.2.1, hwaited.2.2.1, hwaited.2.2.2⟩
  | locks =>
    obtain ⟨-, -, rfl, hle⟩ := hwaited
    exact hle
  | lockFails =>
    obtain ⟨-, -, rfl, hle⟩ := hwaited
    exact ⟨hle, fun hret => absurd hret (by decide)⟩
  | truncateFails => exact ⟨hwaited, fun hret => absurd hret (by decide)⟩
  | writeFails => exact ⟨hwaited, fun hret => absurd hret (by decide)⟩
  | _ => exact hwaited

end DaemonPc

/-- A call begins that waits for so many seconds: `daemon_lock_pid` does not wait. -/
def DaemonAction.Calls (a : DaemonAction) (blockSeconds : Int) : Prop :=
  a = .acquireLock blockSeconds ∨ a = .lockPid ∧ blockSeconds = 0

theorem DaemonPc.Move.calls {text file : List UInt8} {busy : Bool} {fds : Finset Nat} {pc pc' : DaemonPc}
    {blockSeconds : Int} (h : Move text file busy fds pc a pc') (hcalls : a.Calls blockSeconds) :
    pc'.Waited blockSeconds 0 0 ∧ pc'.left = 2 * blockSeconds.toNat + 8 := by
  rcases hcalls with rfl | ⟨rfl, rfl⟩
  · cases h
    exact ⟨⟨rfl, rfl, rfl⟩, rfl⟩
  · cases h
    exact ⟨⟨rfl, rfl, rfl⟩, rfl⟩

namespace DaemonRun

variable (run : DaemonRun daemons stale) {i k : Nat}

/-- A process is in the call that it began at moment `i`. -/
structure InCall (i k : Nat) (p : Proc) (blockSeconds : Int) : Prop where
  began : (run.action i).1 = p
  calls : (run.action i).2.Calls blockSeconds
  before : i < k
  inside : k ≤ run.length
  calling : ∀ j, i < j → j ≤ k → ((run.state j).pc p).Calling

variable {run}

theorem InCall.waited {blockSeconds : Int} (h : run.InCall i k p blockSeconds) :
    ((run.state k).pc p).Waited blockSeconds (run.count (· = (p, .setLock .busy)) (i + 1) k)
      (run.count (· = (p, .sleep)) (i + 1) k) := by
  have hwaited : ∀ j, i + 1 ≤ j → j ≤ run.length → j ≤ k →
      ((run.state j).pc p).Waited blockSeconds (run.count (· = (p, .setLock .busy)) (i + 1) j)
        (run.count (· = (p, .sleep)) (i + 1) j) := by
    refine run.induction_from _ ?_ ?_
    · intro _
      rw [run.count_self, run.count_self]
      have hi : i < run.length := Nat.lt_of_lt_of_le h.before h.inside
      rcases daemonStep_pc (run.next i hi) p with ⟨hother, -⟩ | ⟨-, hmove⟩
      · exact absurd h.began hother
      · exact (hmove.calls h.calls).1
    · intro j hij hj ih hjk
      rw [run.count_succ _ hij, run.count_succ _ hij]
      have hbefore := ih (Nat.le_of_lt hjk)
      rcases daemonStep_pc (run.next j hj) p with ⟨hother, hsame⟩ | ⟨hacts, hmove⟩
      · have hne (a : DaemonAction) : run.action j ≠ (p, a) := fun haction => hother (congrArg Prod.fst haction)
        rw [if_neg (hne _), if_neg (hne _), hsame]
        exact hbefore
      · have hiff (a : DaemonAction) : run.action j = (p, a) ↔ (run.action j).2 = a := by
          rw [← hacts, Prod.ext_iff]
          exact and_iff_right rfl
        simp only [hiff]
        exact hmove.waited (h.calling j hij (Nat.le_of_lt hjk)) (h.calling (j + 1) (by omega) hjk) hbefore
  exact hwaited k h.before h.inside (Nat.le_refl k)

theorem InCall.count_le {blockSeconds : Int} (h : run.InCall i k p blockSeconds) :
    run.count (·.1 = p) (i + 1) k ≤ 2 * blockSeconds.toNat + 8 := by
  have hi : i < run.length := Nat.lt_of_lt_of_le h.before h.inside
  have hleft : ((run.state (i + 1)).pc p).left = 2 * blockSeconds.toNat + 8 := by
    rcases daemonStep_pc (run.next i hi) p with ⟨hother, -⟩ | ⟨-, hmove⟩
    · exact absurd h.began hother
    · exact (hmove.calls h.calls).2
  have hcount := run.count_add_le (·.1 = p) (fun s => (s.pc p).left) (Nat.succ_le_of_lt h.before) h.inside ?_
  · rw [← hleft]
    exact Nat.le_of_add_right_le hcount
  · intro j hij hjk
    rcases daemonStep_pc (run.next j (Nat.lt_of_lt_of_le hjk h.inside)) p with ⟨hother, hsame⟩ | ⟨hacts, hmove⟩
    · rw [if_neg hother, hsame]
      exact Nat.le_refl _
    · rw [if_pos hacts]
      exact hmove.left_lt (h.calling j hij (Nat.le_of_lt hjk))

end DaemonRun

/-- **How long a call waits.** A call that may wait for so many seconds sleeps no more often than that, and if it
gives up because of the lock it has slept exactly so often and found the lock busy once more. The number of its
steps before it returns is bounded. -/
theorem DaemonRun.InCall.waits {run : DaemonRun daemons stale} {i k : Nat} {p : Proc} {blockSeconds : Int}
    (h : run.InCall i k p blockSeconds) :
    run.count (· = (p, .sleep)) (i + 1) k ≤ blockSeconds.toNat ∧
      (∀ f fd, (run.state k).pc p = .failing f (-1) fd →
        run.count (· = (p, .setLock .busy)) (i + 1) k = blockSeconds.toNat + 1 ∧
          run.count (· = (p, .sleep)) (i + 1) k = blockSeconds.toNat) ∧
      run.count (·.1 = p) (i + 1) k ≤ 2 * blockSeconds.toNat + 8 := by
  have hwaited := h.waited
  refine ⟨hwaited.slept_le, fun f fd hpc => ?_, h.count_le⟩
  rw [hpc] at hwaited
  exact hwaited.2 rfl

theorem inCall_locked : lockedRun.InCall 8 11 1 0 where
  began := rfl
  calls := .inr ⟨rfl, rfl⟩
  before := by decide
  inside := by decide
  calling j hij hj := by interval_cases j <;> exact trivial

theorem waits_locked : lockedRun.count (· = (1, .sleep)) 9 11 ≤ 0 ∧
    (∀ f fd, (lockedRun.state 11).pc 1 = .failing f (-1) fd →
      lockedRun.count (· = (1, .setLock .busy)) 9 11 = 1 ∧ lockedRun.count (· = (1, .sleep)) 9 11 = 0) ∧
    lockedRun.count (·.1 = 1) 9 11 ≤ 8 :=
  inCall_locked.waits

end Topfield
