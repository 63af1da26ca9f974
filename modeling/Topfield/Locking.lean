import Topfield.Lib.Ownership
import Topfield.Lock

/-!
# One call at a time

What the lock of `topfield_open` does for the device, in every run: between it and `topfield_close` there is one
call, its pid is the one that others read from the file, and no call waits for long.
-/

namespace Topfield

open Lib

variable {Call : Type} [DecidableEq Call] {calls : Calls Call} {s s' : LockState Call} {c d : Call}
  {call : SysCall}

namespace Pc

variable {file : List UInt8} {free : Bool} {pc pc' : Pc}

/-- Between the loop and the `close` of the lock file: where the device is looked for, opened and used. -/
def Within : Pc → Prop
  | .writing => True
  | .finding => True
  | .leaving => True
  | .opened => True
  | _ => False

/-- Out of the loop. -/
def Past : Pc → Prop
  | .finding => True
  | .leaving => True
  | .opened => True
  | .returned => True
  | .exited => True
  | _ => False

theorem next_within (h : pc.next file free call = some pc') (hwithin : pc'.Within) :
    (call = .flock true ∧ ∃ lock, pc = .flocking lock) ∨ pc.Within ∧ call ≠ .close ∧ call ≠ .exit := by
  unfold next at h
  split at h
  case h_2 =>
    split_ifs at h with hok
    · exact .inl ⟨congrArg _ hok, _, rfl⟩
    · cases h
      exact hwithin.elim
  case h_3 => exact .inr ⟨trivial, by simp, by simp⟩
  case h_4 => exact .inr ⟨trivial, by simp, by simp⟩
  all_goals (try split_ifs at h) <;> cases h <;> exact hwithin.elim

theorem next_past (h : pc.next file free call = some pc') (hpast : pc.Past) : pc'.Past := by
  unfold next at h
  split at h
  case h_4 => cases h; split_ifs <;> trivial
  case h_5 => cases h; trivial
  case h_6 => cases h; trivial
  case h_13 => cases h; trivial
  case h_14 => cases h
  all_goals exact hpast.elim

theorem next_wrote {ok : Bool} (h : pc.next file free (.write ok) = some pc') : pc' = .finding := by
  obtain rfl := next_write h
  exact (Option.some.inj h).symm

end Pc

/-! ### The device -/

/-- A call that has asked for the lock and is past it. -/
def Claims (calls : Calls Call) (s : LockState Call) (c : Call) : Prop := calls.lock c ≠ .none ∧ (s.pc c).Within

theorem lockStep_pc_self (h : lockStep calls s (c, call) = some s') :
    (s.pc c).next s.file s.holder.isNone call = some (s'.pc c) := by
  obtain ⟨pc, hnext, rfl⟩ := lockStep_eq_some h
  simp only [LockState.goto, Function.update_self]
  exact hnext

theorem lockStep_pc_of_ne {step : Call × SysCall} (h : lockStep calls s step = some s') (hc : c ≠ step.1) :
    s'.pc c = s.pc c := by
  rcases lockStep_pc h c with hsame | ⟨hacts, -⟩
  · exact hsame
  · exact absurd hacts.symm hc

theorem claimsDiscipline : LockDiscipline (lockStep calls) (fun _ _ => True) LockState.holder (Claims calls) where
  keeps h hc hholder := lockStep_holder h hholder (Ne.symm hc)
  others := by
    rintro s s' c d call h hd ⟨hlock, hwithin⟩
    rw [lockStep_pc_of_ne h hd] at hwithin
    exact ⟨hlock, hwithin⟩
  takes := by
    rintro s s' c call - h hholder ⟨hlock, hwithin⟩
    have hmoves := Pc.next_within (lockStep_pc_self h) hwithin
    obtain ⟨pc, -, rfl⟩ := lockStep_eq_some h
    rcases hmoves with ⟨rfl, -⟩ | ⟨hbefore, hclose, hexit⟩
    · rfl
    · have hkept := hholder ⟨hlock, hbefore⟩
      simp only [LockState.goto, LockState.perform]
      split
      case h_1 => rfl
      case h_3 => exact absurd rfl hclose
      case h_4 => exact absurd rfl hexit
      all_goals exact hkept

namespace LockRun

variable {run : LockRun calls} {i k w : Nat}

omit [DecidableEq Call] in
theorem not_claims_start (c : Call) : ¬ Claims calls (lockStart calls) c := by
  rintro ⟨hlock, hwithin⟩
  simp only [lockStart, if_neg hlock] at hwithin
  exact hwithin

theorem holder_of_claims (run : LockRun calls) (hk : k ≤ run.length) (h : Claims calls (run.state k) c) :
    (run.state k).holder = some c :=
  claimsDiscipline.owner_of_claims run (fun _ _ => trivial) not_claims_start hk h

theorem claims_unique (run : LockRun calls) (hk : k ≤ run.length) (hc : Claims calls (run.state k) c)
    (hd : Claims calls (run.state k) d) : c = d :=
  claimsDiscipline.claims_unique run (fun _ _ => trivial) not_claims_start hk hc hd

/-- The pid that a call has written stays in the file while the call has the lock. -/
theorem file_of_wrote (run : LockRun calls) (hlock : calls.lock c ≠ .none) (hw : w < k) (hk : k ≤ run.length)
    (hwrote : run.action w = (c, .write true)) (hwithin : ((run.state k).pc c).Within) :
    ∃ rest, (run.state k).file = pidText (calls.pid c) ++ rest := by
  have hwritten := run.induction_from
    (fun k => ((run.state k).pc c).Past ∧ (((run.state k).pc c).Within →
      ∃ rest, (run.state k).file = pidText (calls.pid c) ++ rest)) ?_ ?_ k hw hk
  · exact hwritten.2 hwithin
  · have hnext := run.next w (Nat.lt_of_lt_of_le hw hk)
    rw [hwrote] at hnext
    have hfile := lockStep_file hnext
    rw [if_pos rfl] at hfile
    refine ⟨?_, fun _ => ⟨_, hfile⟩⟩
    rw [Pc.next_wrote (lockStep_pc_self hnext)]
    trivial
  · rintro j - hj ⟨hpast, hfile⟩
    have hnext := run.next j hj
    have hsame (h : (run.action j).2 ≠ .write true) : (run.state (j + 1)).file = (run.state j).file := by
      rw [lockStep_file hnext, if_neg h]
    rcases lockStep_pc hnext c with hpc | ⟨hacts, hpc⟩
    · rw [hpc]
      refine ⟨hpast, fun hwithin => ?_⟩
      rw [hsame]
      · exact hfile hwithin
      · -- another call that writes has the lock
        intro hwrites
        have hwriting := Pc.next_write (hwrites ▸ lockStep_pc_self hnext)
        have hholder := run.holder_of_claims (Nat.le_of_lt hj) ⟨hlock, hwithin⟩
        rw [run.writing_holder (Nat.le_of_lt hj) hwriting] at hholder
        rw [Option.some.inj hholder] at hwriting
        rw [hwriting] at hpast
        exact hpast
    · refine ⟨Pc.next_past hpc hpast, fun hwithin => ?_⟩
      have hwrites : (run.action j).2 ≠ .write true := by
        intro hwrites
        rw [hwrites] at hpc
        rw [Pc.next_write hpc] at hpast
        exact hpast
      rw [hsame hwrites]
      rcases Pc.next_within hpc hwithin with ⟨-, lock, hflocking⟩ | ⟨hbefore, -⟩
      · rw [hflocking] at hpast
        exact hpast.elim
      · exact hfile hbefore

end LockRun

/-- **One call at a time.** In every run, a call that has asked for the lock and has got past it, with the device
or about to look for it, is the only one until it closes its lock file. Once it has written its pid, that is the pid
which other calls read. -/
theorem LockRun.holder_exclusive (run : LockRun calls) {k : Nat} (hk : k ≤ run.length) {c : Call}
    (h : Claims calls (run.state k) c) :
    (run.state k).holder = some c ∧ (∀ d, Claims calls (run.state k) d → d = c) ∧
      ∀ w < k, run.action w = (c, .write true) → readPid (run.state k).file true = calls.pid c := by
  refine ⟨run.holder_of_claims hk h, fun d hd => run.claims_unique hk hd h, fun w hw hwrote => ?_⟩
  obtain ⟨rest, hfile⟩ := run.file_of_wrote h.1 hw hk hwrote h.2
  rw [hfile, readPid_pidText (calls.pid_lt c)]

theorem holder_exclusive_held : (heldRun.state 4).holder = some 0 ∧
    (∀ d, Claims threeCalls (heldRun.state 4) d → d = 0) ∧
    ∀ w < 4, heldRun.action w = (0, .write true) → readPid (heldRun.state 4).file true = 100 :=
  LockRun.holder_exclusive heldRun (by decide) ⟨by decide, trivial⟩

/-! ### How long a call takes -/

namespace Pc

variable {file : List UInt8} {free : Bool} {pc pc' : Pc}

/-- How many more system calls a call makes, at most. -/
def left : Pc → Nat
  | .opening .hup => 14
  | .flocking .hup => 13
  | .closing .hup => 12
  | .asking => 11
  | .reading => 10
  | .closingRead _ => 9
  | .killing _ => 8
  | .sleeping => 7
  | .opening _ => 6
  | .flocking _ => 5
  | .writing => 4
  | .finding => 3
  | .leaving => 2
  | .opened => 2
  | .closing _ => 2
  | .returned => 1
  | .exited => 0

/-- Whether it may still send SIGHUP. -/
def hupsLeft : Pc → Nat
  | .opening .hup => 1
  | .flocking .hup => 1
  | .closing .hup => 1
  | .asking => 1
  | .reading => 1
  | .closingRead _ => 1
  | .killing _ => 1
  | _ => 0

theorem next_left (h : pc.next file free call = some pc') (hlive : pc ≠ .exited) : pc'.left < pc.left := by
  unfold next at h
  split at h
  case h_1 lock ok => cases ok <;> cases lock <;> cases h <;> decide
  case h_2 lock ok => cases ok <;> cases free <;> cases lock <;> cases h <;> decide
  case h_4 found => cases found <;> cases h <;> decide
  case h_7 lock => cases lock <;> cases h <;> decide
  case h_8 ok => cases ok <;> cases h <;> decide
  case h_10 =>
    split_ifs at h <;> cases h <;> simp [left]
  case h_11 ok => cases ok <;> cases h <;> simp [left]
  case h_13 =>
    cases h
    cases pc with
    | exited => exact absurd rfl hlive
    | opening lock => cases lock <;> decide
    | flocking lock => cases lock <;> decide
    | closing lock => cases lock <;> decide
    | _ => simp [left]
  all_goals cases h <;> simp [left]

theorem next_hupsLeft (h : pc.next file free call = some pc') :
    pc'.hupsLeft + (if call = .kill true then 1 else 0) ≤ pc.hupsLeft := by
  unfold next at h
  split at h
  case h_1 lock ok => cases ok <;> cases lock <;> cases h <;> decide
  case h_2 lock ok => cases ok <;> cases free <;> cases lock <;> cases h <;> decide
  case h_4 found => cases found <;> cases h <;> decide
  case h_7 lock => cases lock <;> cases h <;> decide
  case h_8 ok => cases ok <;> cases h <;> decide
  case h_10 =>
    split_ifs at h <;> cases h <;> simp [hupsLeft]
  case h_11 ok => cases ok <;> cases h <;> simp [hupsLeft]
  case h_13 =>
    cases h
    simp [hupsLeft]
  all_goals cases h <;> simp [hupsLeft]

omit [DecidableEq Call] in
theorem left_start (calls : Calls Call) (c : Call) : ((lockStart calls).pc c).left ≤ 14 := by
  simp only [lockStart]
  split_ifs
  · decide
  · cases calls.lock c <;> decide

omit [DecidableEq Call] in
theorem hupsLeft_start (calls : Calls Call) (c : Call) :
    ((lockStart calls).pc c).hupsLeft = if calls.lock c = .hup then 1 else 0 := by
  simp only [lockStart]
  cases calls.lock c <;> rfl

end Pc

/-- **No call waits for long.** However the steps of the calls are interleaved, a call takes no more than fourteen of
them up to the end of its process, all of `open_usb_dev` being one, and sends SIGHUP once at most, and only with
`TF_LOCK_HUP`. -/
theorem LockRun.bounded (run : LockRun calls) {k : Nat} (hk : k ≤ run.length) (c : Call) :
    ((∀ j < k, (run.state j).pc c ≠ .exited) → run.count (·.1 = c) 0 k ≤ 14) ∧
      run.count (· = (c, .kill true)) 0 k ≤ if calls.lock c = .hup then 1 else 0 := by
  constructor
  · intro hlive
    have hcount := run.count_add_le (·.1 = c) (fun s => (s.pc c).left) (Nat.zero_le k) hk ?_
    · rw [run.state_zero] at hcount
      exact Nat.le_trans (Nat.le_of_add_right_le hcount) (Pc.left_start calls c)
    · intro j _ hj
      have hnext := run.next j (Nat.lt_of_lt_of_le hj hk)
      split_ifs with hacts
      · subst hacts
        exact Pc.next_left (lockStep_pc_self hnext) (hlive j hj)
      · rw [lockStep_pc_of_ne hnext (Ne.symm hacts)]
        exact Nat.le_refl _
  · have hcount := run.count_add_le (· = (c, .kill true)) (fun s => (s.pc c).hupsLeft) (Nat.zero_le k) hk ?_
    · rw [run.state_zero, Pc.hupsLeft_start] at hcount
      exact Nat.le_of_add_right_le hcount
    · intro j _ hj
      have hnext := run.next j (Nat.lt_of_lt_of_le hj hk)
      by_cases hacts : (run.action j).1 = c
      · subst hacts
        have hhups := Pc.next_hupsLeft (lockStep_pc_self hnext)
        have hiff : run.action j = ((run.action j).1, .kill true) ↔ (run.action j).2 = .kill true := by
          rw [Prod.ext_iff]
          exact and_iff_right rfl
        simpa only [hiff] using hhups
      · rw [lockStep_pc_of_ne hnext (Ne.symm hacts), if_neg fun h => hacts (congrArg Prod.fst h)]
        exact Nat.le_refl _

theorem bounded_held : ((∀ j < 10, (heldRun.state j).pc 2 ≠ .exited) → heldRun.count (·.1 = 2) 0 10 ≤ 14) ∧
    heldRun.count (· = (2, .kill true)) 0 10 ≤ if threeCalls.lock 2 = .hup then 1 else 0 :=
  LockRun.bounded heldRun (by decide) 2

end Topfield
