import Topfield.Lib.Decimal
import Topfield.Lib.Execution
import Mathlib.Logic.Function.Basic
import Mathlib.Tactic.IntervalCases
import Mathlib.Tactic.SplitIfs

/-!
# The lock file

`topfield_open` and `topfield_close` as far as the lock goes: any number of calls, by any number of processes,
take their steps in any order, and every system call may fail. A call that has the lock writes its pid over
what the file begins with; one that fails to get it reads a pid from there and sends it SIGHUP. That is the pid
of the process that wrote last, and it holds the lock only if it has not let go of it before.
-/

namespace Topfield

open Lib

/-! ### The file -/

/-- `TF_LOCKFILE` -/
def tfLockfile : List UInt8 := "/tmp/puppy".toUTF8.toList

def lockFilename (index : Int) : List UInt8 :=
  if index = 0 then tfLockfile else tfLockfile ++ [0x2E] ++ signedDecimal index

/-- The devices have lock files of their own. -/
theorem lockFilename_injective : Function.Injective lockFilename := by
  intro i j h
  unfold lockFilename at h
  split_ifs at h with hi hj hj
  · rw [hi, hj]
  · simp at h
  · simp at h
  · exact signedDecimal_injective (List.append_cancel_left h)

/-- `sprintf(buf, "%d\n", getpid())`, as it is written to the file. The NUL behind nine digits is one byte past
the end of `buf`. -/
def pidText (pid : Nat) : List UInt8 := signedDecimal pid ++ [0x0A]

/-- A write at the start of a file, which it does not truncate. -/
def overwrite (file text : List UInt8) : List UInt8 := text ++ file.drop text.length

/-- The pid that is read from the file, by a `read` of nine bytes that may fail. -/
def readPid (file : List UInt8) (ok : Bool) : Int :=
  let buf := if ok then file.take 9 else []
  if buf.length > 0 then atoi buf else 0

theorem readPid_nil (ok : Bool) : readPid [] ok = 0 := by
  cases ok <;> rfl

/-- The pid at the start of a file is read, whatever an earlier text has left behind it. -/
theorem readPid_pidText {pid : Nat} (h : pid < 10 ^ 9) (rest : List UInt8) :
    readPid (pidText pid ++ rest) true = pid := by
  have hdigits : signedDecimal pid = decimal pid := by
    rw [signedDecimal, if_neg (by omega), Int.natAbs_natCast]
  have hlength : (signedDecimal pid).length ≤ 9 := by
    rw [hdigits]
    exact length_decimal_le (by decide) h
  obtain ⟨c, text, -, htext⟩ := decimal_eq_cons pid
  have hbuf : (pidText pid ++ rest).take 9 =
      signedDecimal pid ++ (0x0A :: rest).take (9 - (signedDecimal pid).length) := by
    rw [pidText, List.append_assoc, List.take_append, List.take_of_length_le hlength, List.singleton_append]
  have hstop : ∀ c ∈ ((0x0A :: rest).take (9 - (signedDecimal pid).length)).head?, ¬ IsDigit c := by
    rw [List.head?_take]
    split_ifs
    · intro c hc
      cases hc
    · rintro c ⟨rfl⟩
      decide
  simp only [readPid, if_true, hbuf, atoi_signedDecimal _ hstop]
  rw [if_pos]
  rw [hdigits, htext]
  exact Nat.succ_pos _

/-! ### The calls -/

/-- `tf_lock_t` -/
inductive TfLock
  | std
  | none
  | hup
deriving DecidableEq

/-- Where a call is: the next system call it makes, and what it keeps for later. -/
inductive Pc
  /-- at the start of a turn of the loop -/
  | opening (lock : TfLock)
  | flocking (lock : TfLock)
  | writing
  /-- out of the loop, about to look for the device -/
  | finding
  /-- there is no device, and `lock_fd` is to be closed -/
  | leaving
  /-- `topfield_open` has returned 0, and `topfield_close` may be called -/
  | opened
  /-- no lock, and `lock_fd` is to be closed -/
  | closing (lock : TfLock)
  /-- about to open the file again, for its pid -/
  | asking
  | reading
  | closingRead (pid : Int)
  | killing (pid : Int)
  | sleeping
  | returned
  | exited
deriving DecidableEq

/-- The system calls with their results. A pid is written as a whole or not at all. -/
inductive SysCall
  | openLock (ok : Bool)
  | flock (ok : Bool)
  | write (ok : Bool)
  | openUsbDev (found : Bool)
  | close
  | openRead (ok : Bool)
  | read (ok : Bool)
  | kill (ok : Bool)
  | sleep
  | exit
deriving DecidableEq

/-- The calls of `topfield_open` on one index. A process may make any number of them. -/
structure Calls (Call : Type) where
  pid : Call → Nat
  lock : Call → TfLock
  pid_lt : ∀ c, pid c < 10 ^ 9

/-- The lock file, the call whose descriptor is locked, and where every call is. -/
structure LockState (Call : Type) where
  file : List UInt8
  holder : Option Call
  pc : Call → Pc

/-- `topfield_open` and then `topfield_close`: where a call is after a system call, given what is in the file and
whether a lock is free. -/
@[simp] def Pc.next (file : List UInt8) (free : Bool) : Pc → SysCall → Option Pc
  | .opening lock, .openLock ok => some (if ok then .flocking lock else .closing lock)
  | .flocking lock, .flock ok => if ok then (if free then some .writing else none) else some (.closing lock)
  | .writing, .write _ => some .finding
  | .finding, .openUsbDev found => some (if found then .opened else .leaving)
  | .leaving, .close => some .returned
  | .opened, .close => some .returned
  | .closing lock, .close => some (if lock = .hup then .asking else .returned)
  | .asking, .openRead ok => some (if ok then .reading else .returned)
  | .reading, .read ok => some (.closingRead (readPid file ok))
  | .closingRead pid, .close => some (if pid > 0 then .killing pid else .returned)
  | .killing _, .kill ok => some (if ok then .sleeping else .returned)
  -- no more than one try: the second one is as with `TF_LOCK_STD`
  | .sleeping, .sleep => some (.opening .std)
  | _, .exit => some .exited
  | _, _ => none

variable {Call : Type} [DecidableEq Call]

namespace LockState

variable (s : LockState Call) (c : Call)

def goto (pc : Pc) : LockState Call := { s with pc := Function.update s.pc c pc }

/-- What a system call does to the file and the lock. A lock goes with its descriptor; a call that closes
another one has no lock. -/
def perform (calls : Calls Call) : SysCall → LockState Call
  | .flock true => { s with holder := some c }
  | .write true => { s with file := overwrite s.file (pidText (calls.pid c)) }
  | .close => { s with holder := if s.holder = some c then none else s.holder }
  | .exit => { s with holder := if s.holder = some c then none else s.holder }
  | _ => s

end LockState

variable (calls : Calls Call)

/-- Before any call. With `TF_LOCK_NONE` there is no loop. -/
def lockStart : LockState Call where
  file := []
  holder := none
  pc c := if calls.lock c = .none then .finding else .opening (calls.lock c)

def lockStep (s : LockState Call) (step : Call × SysCall) : Option (LockState Call) :=
  ((s.pc step.1).next s.file s.holder.isNone step.2).map ((s.perform step.1 calls step.2).goto step.1)

/-- An interleaving of the steps of all the calls. -/
abbrev LockRun := Execution (lockStep calls) (lockStart calls)

namespace LockRun

variable {calls} (run : LockRun calls)

/-- The call fails to get the lock. -/
def FailsAt (i : Nat) (c : Call) : Prop :=
  run.action i = (c, .openLock false) ∨ run.action i = (c, .flock false)

/-- The call sends SIGHUP to a pid. -/
def HupsAt (k : Nat) (c : Call) (pid : Int) : Prop :=
  run.action k = (c, .kill true) ∧ (run.state k).pc c = .killing pid

/-- The call is the last one to have written its pid. -/
structure LastWrite (k w : Nat) (d : Call) : Prop where
  before : w < k
  wrote : run.action w = (d, .write true)
  last : ∀ j, w < j → j < k → ∀ c, run.action j ≠ (c, .write true)

/-- A pid that is sent SIGHUP is that of a call which had the lock at some moment after the sender failed to get
it and not later than it was sent. -/
def HupsHolders : Prop :=
  ∀ k < run.length, ∀ c pid, run.HupsAt k c pid →
    ∃ i < k, run.FailsAt i c ∧ ∃ j d, i < j ∧ j ≤ k ∧ (run.state j).holder = some d ∧ calls.pid d = pid

/-- When a call reads the file, the last pid was written after the call had failed to get the lock, or by the
call that had the lock when it failed. -/
def ReadsFresh : Prop :=
  ∀ r < run.length, ∀ c, run.action r = (c, .read true) → ∀ i < r, run.FailsAt i c →
    ∀ w d, run.LastWrite r w d → i < w ∨ (run.state (i + 1)).holder = some d

end LockRun

/-! ### What a step does -/

namespace Pc

variable {file : List UInt8} {free : Bool} {pc pc' : Pc} {call : SysCall}

/-- The lock was not to be had, and the file has not been read. -/
def Failed : Pc → Prop
  | .closing _ => True
  | .asking => True
  | .reading => True
  | _ => False

/-- The pid that has been read and not been sent to. -/
def got : Pc → Option Int
  | .closingRead pid => some pid
  | .killing pid => some pid
  | _ => none

theorem next_writing (h : pc.next file free call = some .writing) : call = .flock true := by
  unfold next at h
  split at h
  case h_2 =>
    split_ifs at h with hok
    · rw [hok]
    · cases h
  all_goals (try split_ifs at h) <;> cases h

theorem next_write {ok : Bool} (h : pc.next file free (.write ok) = some pc') : pc = .writing := by
  unfold next at h
  split at h <;> simp_all

theorem next_flock (h : pc.next file free (.flock true) = some pc') : free = true := by
  unfold next at h
  split at h <;> simp_all

theorem next_failed (h : pc.next file free call = some pc') (hfailed : pc'.Failed) :
    pc.Failed ∨ call = .openLock false ∨ call = .flock false := by
  unfold next at h
  split at h
  case h_1 lock ok =>
    cases ok with
    | false => exact .inr (.inl rfl)
    | true =>
      cases h
      exact hfailed.elim
  case h_2 lock ok =>
    cases ok with
    | false => exact .inr (.inr rfl)
    | true =>
      cases free with
      | false => cases h
      | true =>
        cases h
        exact hfailed.elim
  case h_7 => exact .inl trivial
  case h_8 => exact .inl trivial
  all_goals (try split_ifs at h) <;> cases h <;> exact hfailed.elim

theorem next_got {pid : Int} (h : pc.next file free call = some pc') (hgot : pc'.got = some pid) :
    pc.got = some pid ∨ pc.Failed ∧ ∃ ok, call = .read ok ∧ pid = readPid file ok := by
  unfold next at h
  split at h
  case h_9 ok =>
    cases h
    exact .inr ⟨trivial, ok, rfl, (Option.some.inj hgot).symm⟩
  case h_10 =>
    split_ifs at h
    · cases h
      exact .inl hgot
    · cases h
      cases hgot
  all_goals (try split_ifs at h) <;> cases h <;> cases hgot

theorem next_killing {pid : Int} (h : pc.next file free call = some (.killing pid)) : 0 < pid := by
  unfold next at h
  split at h
  case h_10 =>
    split_ifs at h with hpid
    · cases h
      exact hpid
    · cases h
  all_goals (try split_ifs at h) <;> cases h

end Pc

variable {calls} {s s' : LockState Call} {c d : Call} {call : SysCall}

theorem lockStep_eq_some {step : Call × SysCall} (h : lockStep calls s step = some s') :
    ∃ pc, (s.pc step.1).next s.file s.holder.isNone step.2 = some pc ∧
      s' = (s.perform step.1 calls step.2).goto step.1 pc := by
  obtain ⟨pc, hpc, rfl⟩ := Option.map_eq_some_iff.mp h
  exact ⟨pc, hpc, rfl⟩

theorem perform_pc (s : LockState Call) (c : Call) (call : SysCall) : (s.perform c calls call).pc = s.pc := by
  unfold LockState.perform
  split <;> rfl

theorem perform_file (s : LockState Call) (c : Call) (call : SysCall) : (s.perform c calls call).file =
    if call = .write true then overwrite s.file (pidText (calls.pid c)) else s.file := by
  cases call with
  | write ok => cases ok <;> rfl
  | flock ok => cases ok <;> rfl
  | _ => rfl

theorem lockStep_pc {step : Call × SysCall} (h : lockStep calls s step = some s') (c : Call) :
    s'.pc c = s.pc c ∨ step.1 = c ∧ (s.pc c).next s.file s.holder.isNone step.2 = some (s'.pc c) := by
  obtain ⟨pc, hpc, rfl⟩ := lockStep_eq_some h
  simp only [LockState.goto, perform_pc]
  by_cases hc : step.1 = c
  · subst hc
    rw [Function.update_self]
    exact .inr ⟨rfl, hpc⟩
  · exact .inl (Function.update_of_ne (Ne.symm hc) _ _)

theorem lockStep_file {step : Call × SysCall} (h : lockStep calls s step = some s') :
    s'.file = if step.2 = .write true then overwrite s.file (pidText (calls.pid step.1)) else s.file := by
  obtain ⟨pc, -, rfl⟩ := lockStep_eq_some h
  exact perform_file s step.1 step.2

/-- A call keeps the lock until it closes its descriptor. -/
theorem lockStep_holder {step : Call × SysCall} (h : lockStep calls s step = some s')
    (hholder : s.holder = some c) (hne : step.1 ≠ c) : s'.holder = some c := by
  obtain ⟨pc, hpc, rfl⟩ := lockStep_eq_some h
  have hrelease : (if s.holder = some step.1 then none else s.holder) = some c := by
    rw [if_neg, hholder]
    rw [hholder]
    exact fun heq => hne (Option.some.inj heq).symm
  simp only [LockState.goto, LockState.perform]
  split
  case h_1 hcall =>
    rw [hcall, hholder] at hpc
    exact absurd (Pc.next_flock hpc) Bool.false_ne_true
  case h_3 => exact hrelease
  case h_4 => exact hrelease
  all_goals exact hholder

/-! ### What a run does -/

namespace LockRun

variable (run : LockRun calls) {i k : Nat}

theorem killing_pos (hi : i ≤ run.length) {pid : Int} (h : (run.state i).pc c = .killing pid) : 0 < pid := by
  refine run.invariant (fun s => ∀ c pid, s.pc c = .killing pid → 0 < pid) ?_ ?_ i hi c pid h
  · intro c pid h
    simp only [lockStart] at h
    split_ifs at h
  · intro s step s' hinv hstep c pid h
    rcases lockStep_pc hstep c with hsame | ⟨-, hnext⟩
    · exact hinv c pid (hsame ▸ h)
    · exact Pc.next_killing (h ▸ hnext)

theorem writing_holder (hi : i ≤ run.length) (h : (run.state i).pc c = .writing) :
    (run.state i).holder = some c := by
  refine run.invariant (fun s => ∀ c, s.pc c = .writing → s.holder = some c) ?_ ?_ i hi c h
  · intro c h
    simp only [lockStart] at h
    split_ifs at h
  · intro s step s' hinv hstep c h
    by_cases hc : step.1 = c
    · obtain ⟨pc, hnext, rfl⟩ := lockStep_eq_some hstep
      subst hc
      simp only [LockState.goto, Function.update_self] at h
      rw [h] at hnext
      simp only [LockState.goto, Pc.next_writing hnext, LockState.perform]
    · rcases lockStep_pc hstep c with hsame | ⟨hacts, -⟩
      · exact lockStep_holder hstep (hinv c (hsame ▸ h)) hc
      · exact absurd hacts hc

theorem failed_before (hi : i ≤ run.length) (h : ((run.state i).pc c).Failed) : ∃ j < i, run.FailsAt j c := by
  refine run.induction (fun i => ((run.state i).pc c).Failed → ∃ j < i, run.FailsAt j c) ?_ ?_ i hi h
  · intro h
    rw [run.state_zero] at h
    simp only [lockStart] at h
    split_ifs at h <;> exact h.elim
  · intro i hi ih h
    have hearlier (hfailed : ((run.state i).pc c).Failed) : ∃ j < i + 1, run.FailsAt j c := by
      obtain ⟨j, hj, hfails⟩ := ih hfailed
      exact ⟨j, Nat.lt_succ_of_lt hj, hfails⟩
    rcases lockStep_pc (run.next i hi) c with hsame | ⟨hacts, hnext⟩
    · exact hearlier (hsame ▸ h)
    · rcases Pc.next_failed hnext h with hfailed | hopen | hflock
      · exact hearlier hfailed
      · exact ⟨i, Nat.lt_succ_self i, .inl (Prod.ext hacts hopen)⟩
      · exact ⟨i, Nat.lt_succ_self i, .inr (Prod.ext hacts hflock)⟩

/-- A pid that a call has got was read from the file, after the call had failed to get the lock. -/
theorem got_before (hi : i ≤ run.length) {pid : Int} (h : ((run.state i).pc c).got = some pid) :
    ∃ r < i, (∃ ok, run.action r = (c, .read ok) ∧ pid = readPid (run.state r).file ok) ∧
      ∃ j < r, run.FailsAt j c := by
  refine run.induction (fun i => ((run.state i).pc c).got = some pid →
    ∃ r < i, (∃ ok, run.action r = (c, .read ok) ∧ pid = readPid (run.state r).file ok) ∧
      ∃ j < r, run.FailsAt j c) ?_ ?_ i hi h
  · intro h
    rw [run.state_zero] at h
    simp only [lockStart] at h
    split_ifs at h <;> cases h
  · intro i hi ih h
    rcases lockStep_pc (run.next i hi) c with hsame | ⟨hacts, hnext⟩
    · obtain ⟨r, hr, hread⟩ := ih (hsame ▸ h)
      exact ⟨r, Nat.lt_succ_of_lt hr, hread⟩
    · rcases Pc.next_got hnext h with hgot | ⟨hfailed, ok, hcall, hpid⟩
      · obtain ⟨r, hr, hread⟩ := ih hgot
        exact ⟨r, Nat.lt_succ_of_lt hr, hread⟩
      · exact ⟨i, Nat.lt_succ_self i, ⟨ok, Prod.ext hacts hcall, hpid⟩,
          run.failed_before (Nat.le_of_lt hi) hfailed⟩

theorem file_written (hk : k ≤ run.length) :
    (run.state k).file = [] ∨
      ∃ w d rest, run.LastWrite k w d ∧ (run.state k).file = pidText (calls.pid d) ++ rest := by
  refine run.induction (fun k => (run.state k).file = [] ∨
    ∃ w d rest, run.LastWrite k w d ∧ (run.state k).file = pidText (calls.pid d) ++ rest) ?_ ?_ k hk
  · rw [run.state_zero]
    exact .inl rfl
  · intro k hk ih
    have hfile := lockStep_file (run.next k hk)
    by_cases hcall : (run.action k).2 = .write true
    · rw [if_pos hcall] at hfile
      refine .inr ⟨k, (run.action k).1, _, ⟨Nat.lt_succ_self k, Prod.ext rfl hcall, ?_⟩, hfile⟩
      intro j hkj hj
      exact absurd hkj (Nat.not_lt.mpr (Nat.le_of_lt_succ hj))
    · rw [if_neg hcall] at hfile
      rcases ih with hempty | ⟨w, d, rest, hlast, hwritten⟩
      · exact .inl (hfile.trans hempty)
      · refine .inr ⟨w, d, rest, ⟨Nat.lt_succ_of_lt hlast.before, hlast.wrote, ?_⟩, hfile.trans hwritten⟩
        intro j hwj hj c haction
        rcases Nat.lt_succ_iff_lt_or_eq.mp hj with hlt | rfl
        · exact hlast.last j hwj hlt c haction
        · exact hcall (congrArg Prod.snd haction)

end LockRun

/-! ### Whom the lock's SIGHUP hits -/

/-- **The lock's SIGHUP.** In every run in which no call reads the pid of one that has let go of the lock before,
every pid that is sent SIGHUP is that of a call which had the lock in the meantime. -/
theorem LockRun.hupsHolders_of_readsFresh (run : LockRun calls) (h : run.ReadsFresh) : run.HupsHolders := by
  rintro k hk c pid ⟨-, hpc⟩
  have hpos := run.killing_pos (Nat.le_of_lt hk) hpc
  have hgot : ((run.state k).pc c).got = some pid := by rw [hpc]; rfl
  obtain ⟨r, hr, ⟨ok, hread, hpid⟩, i, hi, hfails⟩ := run.got_before (Nat.le_of_lt hk) hgot
  have hrlength : r < run.length := Nat.lt_trans hr hk
  cases ok with
  | false => exact absurd hpid (Int.ne_of_gt hpos)
  | true =>
    rcases run.file_written (Nat.le_of_lt hrlength) with hempty | ⟨w, d, rest, hlast, hfile⟩
    · rw [hempty, readPid_nil] at hpid
      exact absurd hpid (Int.ne_of_gt hpos)
    · rw [hfile, readPid_pidText (calls.pid_lt d)] at hpid
      refine ⟨i, Nat.lt_trans hi hr, hfails, ?_⟩
      rcases h r hrlength c hread i hi hfails w d hlast with hiw | hholder
      · -- the pid was written since, by a call that had the lock then
        have hwlength : w < run.length := Nat.lt_trans hlast.before hrlength
        obtain ⟨pc, hnext, -⟩ := lockStep_eq_some (run.next w hwlength)
        rw [hlast.wrote] at hnext
        have hwriting := run.writing_holder (Nat.le_of_lt hwlength) (Pc.next_write hnext)
        exact ⟨w, d, hiw, Nat.le_of_lt (Nat.lt_trans hlast.before hr), hwriting, hpid.symm⟩
      · exact ⟨i + 1, d, Nat.lt_succ_self i, by omega, hholder, hpid.symm⟩

/-- The processes 100, 200 and 300, the last of them with `TF_LOCK_HUP`. -/
def threeCalls : Calls (Fin 3) where
  pid c := 100 * (c + 1)
  lock c := if c = 2 then .hup else .std
  pid_lt c := by omega

/-- Process 100 has the lock when process 300 comes. -/
def heldRun : LockRun threeCalls :=
  .ofActions
    [(0, .openLock true), (0, .flock true), (0, .write true), (2, .openLock true), (2, .flock false),
      (2, .close), (2, .openRead true), (2, .read true), (2, .close), (2, .kill true)]
    (0, .exit)
    (by intro i hi; simp only [List.length_cons, List.length_nil] at hi; interval_cases i <;> rfl)

theorem hupsHolders_of_readsFresh_held : heldRun.HupsHolders := by
  have hreads : ∀ r < 10, ∀ c, heldRun.action r = (c, .read true) → c = 2 := by decide
  have hfailsAt : ∀ i < 10, LockRun.FailsAt heldRun i 2 → i = 4 := by
    unfold LockRun.FailsAt
    decide
  have hwrites : ∀ w < 10, ∀ d, heldRun.action w = (d, .write true) → d = 0 := by decide
  refine LockRun.hupsHolders_of_readsFresh heldRun fun r hr c hread i hi hfails w d hlast => .inr ?_
  obtain rfl := hreads r hr c hread
  obtain rfl := hfailsAt i (Nat.lt_trans hi hr) hfails
  obtain rfl := hwrites w (Nat.lt_trans hlast.before hr) d hlast.wrote
  rfl

/-- Process 100 has had the lock and has let go of it. Process 200 has it, and has not written its pid, when
process 300 comes. -/
def staleRun : LockRun threeCalls :=
  .ofActions
    [(0, .openLock true), (0, .flock true), (0, .write true), (0, .openUsbDev true), (0, .close),
      (1, .openLock true), (1, .flock true), (2, .openLock true), (2, .flock false), (2, .close),
      (2, .openRead true), (2, .read true), (2, .close), (2, .kill true)]
    (0, .exit)
    (by intro i hi; simp only [List.length_cons, List.length_nil] at hi; interval_cases i <;> rfl)

/-- Process 100 is sent SIGHUP, and has not had the lock since process 300 failed to get it. -/
theorem not_hupsHolders_stale : ¬ staleRun.HupsHolders := by
  intro h
  have hfailsAt : ∀ i < 13, LockRun.FailsAt staleRun i 2 → i = 8 := by
    unfold LockRun.FailsAt
    decide
  have hholders : ∀ j < 14, 8 < j → (staleRun.state j).holder = some 1 := by decide
  obtain ⟨i, hi, hfails, j, d, hij, hj, hholder, hpid⟩ := h 13 (by decide) 2 100 ⟨rfl, rfl⟩
  obtain rfl := hfailsAt i hi hfails
  rw [hholders j (Nat.lt_succ_of_le hj) hij] at hholder
  obtain rfl := Option.some.inj hholder
  exact absurd hpid (by decide)

end Topfield
