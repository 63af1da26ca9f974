import Topfield.Daemon
import Mathlib.Tactic.IntervalCases

/-!
# One daemon at a time

What `daemon.h` promises of the lock, in every run: it is the returning call's until it is released, for one
process at a time, with its pid in the file, and what is returned says whether it is.
-/

namespace Topfield

open Lib

variable {Proc : Type} [DecidableEq Proc] {daemons : Daemons Proc} {stale : List UInt8}
  {s s' : DaemonState Proc} {p q : Proc} {a : DaemonAction}

/-! ### The lock during a call -/

theorem overwrite_nil (text : List UInt8) : overwrite [] text = text := by
  rw [overwrite, List.drop_nil, List.append_nil]

/-- A call has the lock from `F_SETLK` to its return. -/
theorem lockedDiscipline : LockDiscipline (daemonStep daemons) (fun _ _ => True) DaemonState.owner
    (fun s p => (s.pc p).Locked) where
  keeps := by
    intro s s' p q a h hq howner
    obtain ⟨pc, hmove, rfl⟩ := daemonStep_eq_some h
    refine s.perform_owner_of_ne _ a hq howner ?_
    rintro rfl
    exact hmove.setsLock
  others := by
    intro s s' p q a h hq hlocked
    rwa [(daemonStep_other h hq).1] at hlocked
  takes := by
    intro s s' p a _ h howner hlocked
    obtain ⟨pc, hmove, rfl⟩ := daemonStep_eq_some h
    rw [DaemonState.goto_pc_self] at hlocked
    rcases hmove.locked hlocked with ⟨rfl, -⟩ | ⟨hbefore, hclose, hexit⟩
    · rfl
    · refine s.perform_owner_self _ a (howner hbefore) hclose hexit ?_
      rintro fd rfl
      exact absurd (DaemonPc.calling_of_locked hbefore) hmove.releases

theorem writingGuards : Guards (daemonStep daemons) (fun _ _ => True) (fun s p => (s.pc p).Locked)
    DaemonState.file (fun s p => (s.pc p).Writing) (fun _ file => file = []) where
  claims h := DaemonPc.locked_of_writing h
  others := by
    intro s s' p q a h hq hwriting
    rwa [(daemonStep_other h hq).1] at hwriting
  changes := by
    intro s s' p a h hchanged
    obtain ⟨pc, hmove, rfl⟩ := daemonStep_eq_some h
    exact hmove.changes (s.perform_file _ p a hchanged)
  makes := by
    intro s s' p a _ h _ hwriting
    obtain ⟨pc, hmove, rfl⟩ := daemonStep_eq_some h
    rw [DaemonState.goto_pc_self] at hwriting
    rw [hmove.writing hwriting]
    rfl

namespace DaemonRun

variable (run : DaemonRun daemons stale) {i k : Nat}

theorem accounts (hi : i ≤ run.length) (p : Proc) : (run.state i).Accounts p := by
  refine run.invariant (fun s => ∀ p, s.Accounts p) ?_ ?_ i hi p
  · exact fun p => ⟨rfl, Finset.disjoint_empty_left _⟩
  · intro s ⟨q, a⟩ s' hs hstep p
    by_cases hp : p = q
    · subst hp
      exact daemonStep_accounts hstep (hs p)
    · obtain ⟨hpc, hfds, hheld⟩ := daemonStep_other hstep hp
      obtain ⟨hfds', hfresh⟩ := hs p
      constructor
      · rw [hfds, hheld, hpc, hfds']
      · rw [hheld, hpc]
        exact hfresh

theorem owner_of_locked (hi : i ≤ run.length) (h : ((run.state i).pc p).Locked) :
    (run.state i).owner = some p :=
  lockedDiscipline.owner_of_claims run (fun _ _ => trivial) (fun _ => id) hi h

theorem file_of_writing (hi : i ≤ run.length) (h : ((run.state i).pc p).Writing) : (run.state i).file = [] :=
  writingGuards.valid_of_finished lockedDiscipline run (fun _ _ => trivial) (fun _ => id) hi h

/-! ### The lock from call to release -/

/-- No process asks for the lock while it has it from an earlier call. -/
def Careful : Prop :=
  ∀ i < run.length, ∀ p a, run.action i = (p, a) → DaemonPc.Begins a → (run.state i).held p = ∅

end DaemonRun

/-- What is so for processes that ask for the lock only when they do not have it. -/
structure DaemonState.Settled (s : DaemonState Proc) (p : Proc) : Prop where
  accounts : s.Accounts p
  calling : (s.pc p).Calling → s.held p = ∅
  subsingleton : ∀ fd ∈ s.held p, ∀ fd' ∈ s.held p, fd = fd'

def DaemonState.HasLock (s : DaemonState Proc) (p : Proc) : Prop := (s.pc p).Locked ∨ (s.held p).Nonempty

def DaemonState.HasWritten (s : DaemonState Proc) (p : Proc) : Prop := (s.pc p).Written ∨ (s.held p).Nonempty

theorem daemonStep_held (h : daemonStep daemons s (p, a) = some s') :
    (a ≠ .ret ∧ a ≠ .exit ∧ (∀ fd, a ≠ .releaseLock fd) ∧ s'.held p = s.held p) ∨
    (a = .ret ∧ (s.pc p).Written ∧ s'.held p = s.held p ∪ (s.pc p).fds) ∨
    (∃ fd, a = .releaseLock fd ∧ ¬ (s.pc p).Calling ∧ s'.held p = s.held p \ {fd}) ∨
    (a = .exit ∧ s'.held p = ∅) := by
  obtain ⟨pc, hmove, rfl⟩ := daemonStep_eq_some h
  cases a with
  | ret => exact .inr (.inl ⟨rfl, hmove.returns.1, Function.update_self _ _ _⟩)
  | releaseLock fd => exact .inr (.inr (.inl ⟨fd, rfl, hmove.releases, Function.update_self _ _ _⟩))
  | exit => exact .inr (.inr (.inr ⟨rfl, Function.update_self _ _ _⟩))
  | openWrite fd => cases fd <;> exact .inl ⟨by simp, by simp, by simp, rfl⟩
  | openRead fd => cases fd <;> exact .inl ⟨by simp, by simp, by simp, rfl⟩
  | setLock result => cases result <;> exact .inl ⟨by simp, by simp, by simp, rfl⟩
  | ftruncate ok => cases ok <;> exact .inl ⟨by simp, by simp, by simp, rfl⟩
  | write count => cases count <;> exact .inl ⟨by simp, by simp, by simp, rfl⟩
  | _ => exact .inl ⟨by simp, by simp, by simp, rfl⟩

theorem DaemonPc.exists_fds (pc : DaemonPc) : pc.fds = ∅ ∨ ∃ fd, pc.fds = {fd} := by
  cases pc <;> first | exact .inl rfl | exact .inr ⟨_, rfl⟩

theorem daemonStep_settled (h : daemonStep daemons s (p, a) = some s') (hs : s.Settled p)
    (hbegins : DaemonPc.Begins a → s.held p = ∅) : s'.Settled p := by
  have hcallings : (s'.pc p).Calling → (s.pc p).Calling ∨ DaemonPc.Begins a := by
    obtain ⟨pc, hmove, rfl⟩ := daemonStep_eq_some h
    rw [DaemonState.goto_pc_self]
    exact hmove.calling
  refine ⟨daemonStep_accounts h hs.accounts, fun hcalling => ?_, ?_⟩
  · have hempty : s.held p = ∅ := (hcallings hcalling).elim hs.calling hbegins
    rcases daemonStep_held h with ⟨-, -, -, hheld⟩ | ⟨rfl, -, -⟩ | ⟨fd, -, -, hheld⟩ | ⟨-, hheld⟩
    · exact hheld.trans hempty
    · obtain ⟨pc, hmove, rfl⟩ := daemonStep_eq_some h
      rw [DaemonState.goto_pc_self] at hcalling
      exact absurd hcalling hmove.returns.2
    · rw [hheld, hempty, Finset.empty_sdiff]
    · exact hheld
  · rcases daemonStep_held h with ⟨-, -, -, hheld⟩ | ⟨-, hwritten, hheld⟩ | ⟨fd, -, -, hheld⟩ | ⟨-, hheld⟩
    · rw [hheld]
      exact hs.subsingleton
    · -- it has been given no other
      rw [hheld, hs.calling (DaemonPc.calling_of_locked (DaemonPc.locked_of_written hwritten)),
        Finset.empty_union]
      rcases (s.pc p).exists_fds with hfds | ⟨fd, hfds⟩ <;> rw [hfds]
      · simp
      · simp
    · rw [hheld]
      intro fd hfd fd' hfd'
      exact hs.subsingleton fd (Finset.mem_sdiff.mp hfd).1 fd' (Finset.mem_sdiff.mp hfd').1
    · rw [hheld]
      simp

/-- A process that has the lock from a call keeps it until it releases it. -/
theorem hasLockDiscipline : LockDiscipline (daemonStep daemons) (fun s step => s.Settled step.1)
    DaemonState.owner DaemonState.HasLock where
  keeps := lockedDiscipline.keeps
  others := by
    intro s s' p q a h hq hlock
    obtain ⟨hpc, -, hheld⟩ := daemonStep_other h hq
    rwa [DaemonState.HasLock, hpc, hheld] at hlock
  takes := by
    intro s s' p a hs h howner hlock
    by_cases hlocked : (s'.pc p).Locked
    · exact lockedDiscipline.takes trivial h (fun hbefore => howner (.inl hbefore)) hlocked
    · have hnonempty : (s'.held p).Nonempty := hlock.resolve_left hlocked
      obtain ⟨pc, hmove, rfl⟩ := daemonStep_eq_some h
      rcases daemonStep_held h with
        ⟨-, hexit, hrelease, hheld⟩ | ⟨rfl, hwritten, -⟩ | ⟨fd, rfl, hnot, hheld⟩ | ⟨-, hheld⟩
      · rw [hheld] at hnonempty
        refine s.perform_owner_self _ a (howner (.inr hnonempty)) ?_ hexit fun fd hfd => absurd hfd (hrelease fd)
        rintro rfl
        rw [hs.calling hmove.closes] at hnonempty
        exact Finset.not_nonempty_empty hnonempty
      · exact s.perform_owner_self _ _ (howner (.inl (DaemonPc.locked_of_written hwritten))) (by simp) (by simp)
          (by simp)
      · -- the descriptor is another one than that of the lock
        rw [hheld] at hnonempty
        obtain ⟨fd', hfd'⟩ := hnonempty
        rw [Finset.mem_sdiff, Finset.mem_singleton] at hfd'
        have hfd : fd ∉ s.fds p := by
          rw [hs.accounts.fds_eq, DaemonPc.fds_of_not_calling hnot, Finset.union_empty]
          exact fun hfd => hfd'.2 (hs.subsingleton fd' hfd'.1 fd hfd)
        refine s.perform_owner_self _ _ (howner (.inr ⟨fd', hfd'.1⟩)) (by simp) (by simp) ?_
        rintro _ ⟨⟩
        exact hfd
      · rw [hheld] at hnonempty
        exact absurd hnonempty Finset.not_nonempty_empty

theorem hasWrittenGuards : Guards (daemonStep daemons)
    (fun s step => s.Settled step.1 ∧ ((s.pc step.1).Writing → s.file = [])) DaemonState.HasLock DaemonState.file
    DaemonState.HasWritten (fun p file => file = pidText (daemons.pid p)) where
  claims h := h.imp DaemonPc.locked_of_written id
  others := by
    intro s s' p q a h hq hwritten
    obtain ⟨hpc, -, hheld⟩ := daemonStep_other h hq
    rwa [DaemonState.HasWritten, hpc, hheld] at hwritten
  changes h hchanged := .inl (writingGuards.changes h hchanged)
  makes := by
    rintro s s' p a ⟨hs, hempty⟩ h hfile hwritten
    have hkept (hbefore : s.HasWritten p) (hsame : ¬ (a = .ftruncate true ∨ ∃ count, a = .write (some count))) :
        s'.file = pidText (daemons.pid p) := by
      obtain ⟨pc, -, rfl⟩ := daemonStep_eq_some h
      rw [← hfile hbefore]
      by_contra hchanged
      exact hsame (s.perform_file _ p a hchanged)
    obtain ⟨pc, hmove, rfl⟩ := daemonStep_eq_some h
    rw [DaemonState.HasWritten, DaemonState.goto_pc_self] at hwritten
    rcases hwritten with hwritten | hnonempty
    · rcases hmove.written hwritten with ⟨hwriting, rfl⟩ | ⟨hbefore, htruncate, hwrite⟩
      · rw [DaemonState.goto_file, DaemonState.perform, hempty hwriting, List.take_length, overwrite_nil]
      · refine hkept (.inl hbefore) ?_
        rintro (hchanges | ⟨count, hchanges⟩)
        · exact htruncate hchanges
        · exact hwrite count hchanges
    · rcases daemonStep_held h with ⟨-, -, -, hheld⟩ | ⟨rfl, hbefore, -⟩ | ⟨fd, rfl, -, hheld⟩ | ⟨-, hheld⟩
      · rw [hheld] at hnonempty
        refine hkept (.inr hnonempty) fun hchanges => ?_
        rw [hs.calling (DaemonPc.calling_of_locked (hmove.changes hchanges))] at hnonempty
        exact Finset.not_nonempty_empty hnonempty
      · exact hkept (.inl hbefore) (by simp)
      · rw [hheld] at hnonempty
        exact hkept (.inr (hnonempty.mono Finset.sdiff_subset)) (by simp)
      · rw [hheld] at hnonempty
        exact absurd hnonempty Finset.not_nonempty_empty

namespace DaemonRun

variable {run : DaemonRun daemons stale} {i k : Nat}

theorem Careful.settled (h : run.Careful) (hi : i ≤ run.length) (p : Proc) : (run.state i).Settled p := by
  refine run.induction (fun i => ∀ p, (run.state i).Settled p) ?_ ?_ i hi p
  · intro p
    rw [run.state_zero]
    exact ⟨⟨rfl, Finset.disjoint_empty_left _⟩, fun _ => rfl, by simp [daemonStart]⟩
  · intro i hi ih p
    have hstep := run.next i hi
    by_cases hp : p = (run.action i).1
    · subst hp
      exact daemonStep_settled hstep (ih _) (h i hi _ _ rfl)
    · obtain ⟨hpc, hfds, hheld⟩ := daemonStep_other hstep hp
      obtain ⟨⟨hfds', hfresh⟩, hcalling, hsubsingleton⟩ := ih p
      refine ⟨⟨?_, ?_⟩, ?_, ?_⟩
      · rw [hfds, hheld, hpc, hfds']
      · rwa [hheld, hpc]
      · rwa [hheld, hpc]
      · rwa [hheld]

end DaemonRun

namespace DaemonRun.Careful

variable {run : DaemonRun daemons stale} {k : Nat}

theorem settled_before (h : run.Careful) : ∀ i < run.length, (run.state i).Settled (run.action i).1 :=
  fun _ hi => h.settled (Nat.le_of_lt hi) _

omit [DecidableEq Proc] in
theorem not_hasLock_start (p : Proc) : ¬ (daemonStart stale).HasLock p := by
  rintro (hlocked | hnonempty)
  · exact hlocked
  · exact Finset.not_nonempty_empty hnonempty

theorem owner_of_held (h : run.Careful) (hk : k ≤ run.length) (hheld : ((run.state k).held p).Nonempty) :
    (run.state k).owner = some p :=
  hasLockDiscipline.owner_of_claims run h.settled_before not_hasLock_start hk (.inr hheld)

theorem file_of_hasWritten (h : run.Careful) (hk : k ≤ run.length) (hwritten : (run.state k).HasWritten p) :
    (run.state k).file = pidText (daemons.pid p) := by
  refine hasWrittenGuards.valid_of_finished ⟨hasLockDiscipline.keeps, hasLockDiscipline.others,
    fun hallowed => hasLockDiscipline.takes hallowed.1⟩ run (fun i hi => ⟨h.settled_before i hi, fun hwriting => ?_⟩)
    not_hasLock_start hk hwritten
  exact run.file_of_writing (Nat.le_of_lt hi) hwriting

end DaemonRun.Careful

/-- **One daemon at a time.** While a process that has been given the lock has not released it, it is the only
one, and what is in the file is its pid. -/
theorem DaemonRun.Careful.lock_exclusive {run : DaemonRun daemons stale} (h : run.Careful) {k : Nat}
    (hk : k ≤ run.length) {p : Proc} (hheld : ((run.state k).held p).Nonempty) :
    (run.state k).owner = some p ∧ (run.state k).file = pidText (daemons.pid p) ∧
      ∀ q, ((run.state k).held q).Nonempty → q = p := by
  refine ⟨h.owner_of_held hk hheld, h.file_of_hasWritten hk (.inr hheld), fun q hq => ?_⟩
  exact hasLockDiscipline.claims_unique run h.settled_before not_hasLock_start hk (.inr hq) (.inr hheld)

def twoDaemons : Daemons (Fin 2) where
  pid p := 100 * (p + 1)
  pid_lt p := by omega

/-- Process 100 locks its pid file, and process 200 is told so. -/
def lockedRun : DaemonRun twoDaemons [] :=
  .ofActions
    [(0, .acquireLock 5), (0, .openWrite (some 3)), (0, .setLock .ok), (0, .ftruncate true), (0, .write (some 4)),
      (0, .getFd true), (0, .setFd true), (0, .ret), (1, .lockPid), (1, .openWrite (some 3)), (1, .setLock .busy),
      (1, .close), (1, .openRead (some 3)), (1, .read true), (1, .close)]
    (0, .exit)
    (by intro i hi; simp only [List.length_cons, List.length_nil] at hi; interval_cases i <;> rfl)

theorem careful_locked : lockedRun.Careful := by
  intro i hi
  have hi : i < 15 := hi
  interval_cases i <;> rintro p a ⟨⟩ h <;> first | exact h.elim | rfl

theorem lock_exclusive_locked : (lockedRun.state 15).owner = some 0 ∧ (lockedRun.state 15).file = pidText 100 ∧
    ∀ q, ((lockedRun.state 15).held q).Nonempty → q = 0 :=
  careful_locked.lock_exclusive (by decide) ⟨3, by decide⟩

/-! ### What is returned -/

/-- In a call that has the lock, or that has failed and is about to close its descriptor. -/
def DaemonPc.Holding : DaemonPc → Prop
  | .truncating _ _ => True
  | .writing _ _ => True
  | .gettingFd _ _ => True
  | .settingFd _ _ => True
  | .locked _ _ => True
  | .failing _ _ _ => True
  | _ => False

theorem DaemonPc.calling_of_holding {pc : DaemonPc} (h : pc.Holding) : pc.Calling := by
  cases pc <;> trivial

theorem DaemonPc.fds_of_holding {pc : DaemonPc} (h : pc.Holding) : pc.fds.Nonempty := by
  cases pc <;> first | exact Finset.singleton_nonempty _ | exact h.elim

theorem DaemonPc.holding_of_locked {pc : DaemonPc} (h : pc.Locked) : pc.Holding := by
  cases pc <;> trivial

theorem DaemonPc.Move.holding {text file : List UInt8} {busy : Bool} {fds : Finset Nat} {pc pc' : DaemonPc}
    (h : Move text file busy fds pc a pc') (hholding : pc.Holding) :
    pc'.Holding ∨ a = .ret ∨ a = .close ∨ a = .exit := by
  cases h with
  | acquireLock hnot => exact absurd (calling_of_holding hholding) hnot
  | lockPid hnot => exact absurd (calling_of_holding hholding) hnot
  | releaseLock hnot => exact absurd (calling_of_holding hholding) hnot
  | _ => first | exact hholding.elim | exact .inl trivial | exact .inr (by simp)

theorem DaemonPc.Move.setLock_holding {text file : List UInt8} {busy : Bool} {fds : Finset Nat} {pc pc' : DaemonPc}
    (h : Move text file busy fds pc (.setLock .ok) pc') : pc'.Holding := by
  cases h
  trivial

theorem DaemonState.owner_of_closeFds {fds : Finset Nat} (h : (s.closeFds p fds).owner = some p) :
    s.owner = some p ∧ Disjoint (s.fds p) fds := by
  unfold closeFds at h
  split_ifs at h with hlost
  refine ⟨h, ?_⟩
  rw [Finset.disjoint_iff_inter_eq_empty, ← Finset.not_nonempty_iff_eq_empty]
  exact fun hnonempty => hlost ⟨h, hnonempty⟩

/-- The owner of the lock is in a call that has it, or has been given it. -/
def DaemonState.Owned (s : DaemonState Proc) (p : Proc) : Prop :=
  s.owner = some p → (s.pc p).Holding ∨ (s.held p).Nonempty

theorem daemonStep_owned (h : daemonStep daemons s (p, a) = some s') (haccounts : s.Accounts p)
    (hs : s.Owned p) : s'.Owned p := by
  intro howner
  have hsubset : (s.pc p).fds ⊆ s.fds p := haccounts.fds_eq ▸ Finset.subset_union_right
  have hheldSubset : s.held p ⊆ s.fds p := haccounts.fds_eq ▸ Finset.subset_union_left
  have hheld := daemonStep_held h
  obtain ⟨pc, hmove, rfl⟩ := daemonStep_eq_some h
  rw [DaemonState.goto_pc_self]
  rw [DaemonState.goto_owner] at howner
  have hkeeps (hbefore : s.owner = some p) (hret : a ≠ .ret) (hclose : a ≠ .close) (hexit : a ≠ .exit)
      (hsame : ((s.perform p (pidText (daemons.pid p)) a).goto p pc).held p = s.held p) :
      pc.Holding ∨ (((s.perform p (pidText (daemons.pid p)) a).goto p pc).held p).Nonempty := by
    rcases hs hbefore with hholding | hnonempty
    · rcases hmove.holding hholding with hholding | hret' | hclose' | hexit'
      · exact .inl hholding
      · exact absurd hret' hret
      · exact absurd hclose' hclose
      · exact absurd hexit' hexit
    · exact .inr (hsame ▸ hnonempty)
  cases a with
  | close =>
    obtain ⟨hbefore, hdisjoint⟩ := DaemonState.owner_of_closeFds howner
    rcases hs hbefore with hholding | hnonempty
    · have hempty := Finset.disjoint_self_iff_empty _ |>.mp (hdisjoint.mono_left hsubset)
      exact absurd (DaemonPc.fds_of_holding hholding) (Finset.not_nonempty_iff_eq_empty.mpr hempty)
    · exact .inr hnonempty
  | ret =>
    right
    rcases hheld with ⟨hret, -⟩ | ⟨-, hwritten, hheld⟩ | ⟨fd, hfd, -⟩ | ⟨hexit, -⟩
    · exact absurd rfl hret
    · rw [hheld]
      have hholding := DaemonPc.holding_of_locked (DaemonPc.locked_of_written hwritten)
      exact (DaemonPc.fds_of_holding hholding).mono Finset.subset_union_right
    · cases hfd
    · cases hexit
  | exit =>
    obtain ⟨hbefore, hdisjoint⟩ := DaemonState.owner_of_closeFds howner
    have hempty := Finset.disjoint_self_iff_empty _ |>.mp hdisjoint
    rcases hs hbefore with hholding | hnonempty
    · exact absurd ((DaemonPc.fds_of_holding hholding).mono hsubset) (Finset.not_nonempty_iff_eq_empty.mpr hempty)
    · exact absurd (hnonempty.mono hheldSubset) (Finset.not_nonempty_iff_eq_empty.mpr hempty)
  | releaseLock fd =>
    obtain ⟨hbefore, hdisjoint⟩ := DaemonState.owner_of_closeFds howner
    refine hkeeps hbefore (by simp) (by simp) (by simp) ?_
    have hfd : Disjoint (s.held p) {fd} := hdisjoint.mono_left hheldSubset
    exact (Function.update_self _ _ _).trans (Finset.sdiff_eq_self_of_disjoint hfd)
  | setLock result =>
    cases result with
    | ok => exact .inl hmove.setLock_holding
    | _ => exact hkeeps howner (by simp) (by simp) (by simp) rfl
  | openWrite fd => cases fd <;> exact hkeeps howner (by simp) (by simp) (by simp) rfl
  | openRead fd => cases fd <;> exact hkeeps howner (by simp) (by simp) (by simp) rfl
  | ftruncate ok => cases ok <;> exact hkeeps howner (by simp) (by simp) (by simp) rfl
  | write count => cases count <;> exact hkeeps howner (by simp) (by simp) (by simp) rfl
  | _ => exact hkeeps howner (by simp) (by simp) (by simp) rfl

def DaemonFunction.Succeeded : DaemonFunction → Int → Prop
  | .acquireLock, ret => 0 ≤ ret
  | .lockPid, ret => ret = 0

def IsFailure (ret : Int) : Prop := ret = -1 ∨ ret = -2

namespace DaemonPc

/-- A call that fails is about to return one of the two errors. -/
def Fails (pc : DaemonPc) : Prop := ∀ f ret fd, pc = .failing f ret fd → IsFailure ret

variable {text file : List UInt8} {busy : Bool} {fds : Finset Nat} {pc pc' : DaemonPc}

theorem failed_fails (f : DaemonFunction) (ret : Int) : (f.failed ret).Fails := by
  intro g ret' fd hpc
  rcases failed_eq f ret with ⟨_, _, h⟩ | ⟨-, -, h⟩ <;> rw [h] at hpc <;> cases hpc

theorem of_failed_eq {f g : DaemonFunction} {ret ret' : Int} (hret : IsFailure ret)
    (h : f.failed ret = .returned g ret') : ¬ g.Succeeded ret' ∧ (g = .acquireLock → IsFailure ret') := by
  cases f with
  | acquireLock =>
    cases h
    refine ⟨fun hsucceeded => ?_, fun _ => hret⟩
    have hnonneg : 0 ≤ ret := hsucceeded
    rcases hret with rfl | rfl <;> exact absurd hnonneg (by decide)
  | lockPid =>
    rw [DaemonFunction.failed] at h
    split_ifs at h
    cases h
    exact ⟨by simp [DaemonFunction.Succeeded], by simp⟩

theorem Move.fails_of (h : Move text file busy fds pc a pc') : pc'.Fails := by
  cases h with
  | openFails => exact failed_fails _ _
  | fails => exact failed_fails _ _
  | _ =>
    rintro f ret fd ⟨⟩ <;> first | exact .inl rfl | exact .inr rfl

theorem Move.returned {f : DaemonFunction} {ret : Int} (h : Move text file busy fds pc a (.returned f ret))
    (hfails : pc.Fails) :
    (a = .ret ∧ f.Succeeded ret ∧ ∃ fd, pc.fds = {fd} ∧ (f = .acquireLock → ret = fd)) ∨
      (a ≠ .ret ∧ a ≠ .exit ∧ (∀ fd, a ≠ .releaseLock fd) ∧ pc.Calling ∧ ¬ f.Succeeded ret ∧
        (f = .acquireLock → IsFailure ret)) := by
  generalize hpc : DaemonPc.returned f ret = pc' at h
  cases h with
  | acquires =>
    cases hpc
    exact .inl ⟨rfl, Int.natCast_nonneg _, _, rfl, fun _ => rfl⟩
  | locksPid =>
    cases hpc
    exact .inl ⟨rfl, rfl, _, rfl, by simp⟩
  | openFails => exact .inr ⟨by simp, by simp, by simp, trivial, of_failed_eq (.inr rfl) hpc.symm⟩
  | fails =>
    exact .inr ⟨by simp, by simp, by simp, trivial, of_failed_eq (hfails _ _ _ rfl) hpc.symm⟩
  | askFails =>
    cases hpc
    exact .inr ⟨by simp, by simp, by simp, trivial, by simp [DaemonFunction.Succeeded], by simp⟩
  | answers =>
    cases hpc
    refine .inr ⟨by simp, by simp, by simp, trivial, ?_, by simp⟩
    simp only [DaemonFunction.Succeeded]
    split_ifs with hpid
    · decide
    · exact hpid
  | _ => cases hpc

end DaemonPc

/-- What a call has returned is so as long as the process does nothing. -/
structure DaemonState.Told (s : DaemonState Proc) (p : Proc) : Prop where
  fails : (s.pc p).Fails
  succeeded : ∀ f ret, s.pc p = .returned f ret → f.Succeeded ret →
    (s.held p).Nonempty ∧ (f = .acquireLock → ret.toNat ∈ s.held p)
  failed : ∀ f ret, s.pc p = .returned f ret → ¬ f.Succeeded ret →
    s.held p = ∅ ∧ (f = .acquireLock → IsFailure ret)

theorem daemonStep_told (h : daemonStep daemons s (p, a) = some s') (hsettled : s.Settled p) (hs : s.Told p) :
    s'.Told p := by
  have hheld := daemonStep_held h
  obtain ⟨pc, hmove, rfl⟩ := daemonStep_eq_some h
  refine ⟨?_, ?_, ?_⟩
  · rw [DaemonState.goto_pc_self]
    exact hmove.fails_of
  · intro f ret hpc hsucceeded
    rw [DaemonState.goto_pc_self] at hpc
    subst hpc
    rcases hmove.returned hs.fails with ⟨rfl, -, fd, hfds, hret⟩ | ⟨-, -, -, -, hfailed, -⟩
    · rcases hheld with ⟨hne, -⟩ | ⟨-, -, hheld⟩ | ⟨fd, hfd, -⟩ | ⟨hexit, -⟩
      · exact absurd rfl hne
      · rw [hheld, hfds]
        refine ⟨⟨fd, Finset.mem_union_right _ (Finset.mem_singleton_self fd)⟩, fun hf => ?_⟩
        rw [hret hf, Int.toNat_natCast]
        exact Finset.mem_union_right _ (Finset.mem_singleton_self fd)
      · cases hfd
      · cases hexit
    · exact absurd hsucceeded hfailed
  · intro f ret hpc hfailed
    rw [DaemonState.goto_pc_self] at hpc
    subst hpc
    rcases hmove.returned hs.fails with ⟨-, hsucceeded, -⟩ | ⟨hret, hexit, hrelease, hcalling, -, hisFailure⟩
    · exact absurd hsucceeded hfailed
    · rcases hheld with ⟨-, -, -, hheld⟩ | ⟨hret', -⟩ | ⟨fd, hfd, -⟩ | ⟨hexit', -⟩
      · rw [hheld]
        exact ⟨hsettled.calling hcalling, hisFailure⟩
      · exact absurd hret' hret
      · exact absurd hfd (hrelease fd)
      · exact absurd hexit' hexit

/-- No process gets the lock by what another one does. -/
theorem daemonStep_owner_of_ne (h : daemonStep daemons s (p, a) = some s') (hq : q ≠ p)
    (howner : s'.owner = some q) : s.owner = some q := by
  obtain ⟨pc, -, rfl⟩ := daemonStep_eq_some h
  have hclose (fds : Finset Nat) (h : (s.closeFds p fds).owner = some q) : s.owner = some q := by
    unfold DaemonState.closeFds at h
    split_ifs at h
    exact h
  rw [DaemonState.goto_owner, DaemonState.perform.eq_def] at howner
  split at howner
  case h_3 => exact absurd (Option.some.inj howner).symm hq
  case h_6 => exact hclose _ howner
  case h_8 => exact hclose _ howner
  case h_9 => exact hclose _ howner
  all_goals exact howner

namespace DaemonRun

variable {run : DaemonRun daemons stale} {i k : Nat}

theorem owned (run : DaemonRun daemons stale) (hi : i ≤ run.length) (p : Proc) : (run.state i).Owned p := by
  refine run.induction (fun i => ∀ p, (run.state i).Owned p) ?_ ?_ i hi p
  · intro p howner
    rw [run.state_zero] at howner
    cases howner
  · intro i hi ih p
    have hstep := run.next i hi
    by_cases hp : p = (run.action i).1
    · subst hp
      exact daemonStep_owned hstep (run.accounts (Nat.le_of_lt hi) _) (ih _)
    · obtain ⟨hpc, -, hheld⟩ := daemonStep_other hstep hp
      intro howner
      rw [hpc, hheld]
      exact ih p (daemonStep_owner_of_ne hstep hp howner)

theorem Careful.told (h : run.Careful) (hi : i ≤ run.length) (p : Proc) : (run.state i).Told p := by
  refine run.induction (fun i => ∀ p, (run.state i).Told p) ?_ ?_ i hi p
  · intro p
    rw [run.state_zero]
    exact ⟨fun _ _ _ hpc => (by cases hpc), fun _ _ hpc => (by cases hpc), fun _ _ hpc => (by cases hpc)⟩
  · intro i hi ih p
    have hstep := run.next i hi
    by_cases hp : p = (run.action i).1
    · subst hp
      exact daemonStep_told hstep (h.settled (Nat.le_of_lt hi) _) (ih _)
    · obtain ⟨hpc, -, hheld⟩ := daemonStep_other hstep hp
      obtain ⟨hfails, hsucceeded, hfailed⟩ := ih p
      refine ⟨?_, ?_, ?_⟩
      · rwa [hpc]
      · rwa [hpc, hheld]
      · rwa [hpc, hheld]

end DaemonRun

/-- **What is returned.** When a call has returned, with a descriptor from `daemon_acquire_lock` or 0 from
`daemon_lock_pid` the process has the lock, and with anything else it has neither the lock nor a descriptor of the
file left. -/
theorem DaemonRun.Careful.returned_owner {run : DaemonRun daemons stale} (h : run.Careful) {k : Nat}
    (hk : k ≤ run.length) {p : Proc} {f : DaemonFunction} {ret : Int}
    (hpc : (run.state k).pc p = .returned f ret) :
    (f.Succeeded ret → (run.state k).owner = some p ∧ (f = .acquireLock → (run.state k).fds p = {ret.toNat})) ∧
      (¬ f.Succeeded ret → (run.state k).owner ≠ some p ∧ (run.state k).fds p = ∅ ∧
        (f = .acquireLock → IsFailure ret)) := by
  have hsettled := h.settled hk p
  have htold := h.told hk p
  have hnot : ¬ ((run.state k).pc p).Calling := by
    rw [hpc]
    exact id
  have hfds : (run.state k).fds p = (run.state k).held p := by
    rw [hsettled.accounts.fds_eq, DaemonPc.fds_of_not_calling hnot, Finset.union_empty]
  constructor
  · intro hsucceeded
    obtain ⟨hnonempty, hret⟩ := htold.succeeded f ret hpc hsucceeded
    refine ⟨h.owner_of_held hk hnonempty, fun hf => ?_⟩
    rw [hfds, Finset.eq_singleton_iff_unique_mem]
    exact ⟨hret hf, fun fd hfd => hsettled.subsingleton fd hfd _ (hret hf)⟩
  · intro hfailed
    obtain ⟨hempty, hisFailure⟩ := htold.failed f ret hpc hfailed
    refine ⟨fun howner => ?_, hfds.trans hempty, hisFailure⟩
    rcases run.owned hk p howner with hholding | hnonempty
    · exact hnot (DaemonPc.calling_of_holding hholding)
    · exact Finset.not_nonempty_iff_eq_empty.mpr hempty hnonempty

/-- The first process has got descriptor 3, the second one the first one's pid. -/
theorem returned_owner_locked : ((lockedRun.state 15).owner = some 0 ∧ (lockedRun.state 15).fds 0 = {3}) ∧
    (lockedRun.state 15).owner ≠ some 1 ∧ (lockedRun.state 15).fds 1 = ∅ := by
  have hfirst : (lockedRun.state 15).pc 0 = .returned .acquireLock 3 := by decide
  have hsecond : (lockedRun.state 15).pc 1 = .returned .lockPid 100 := by decide
  obtain ⟨howner, hfds⟩ := (careful_locked.returned_owner (by decide) hfirst).1 (by simp [DaemonFunction.Succeeded])
  obtain ⟨hother, hempty, -⟩ :=
    (careful_locked.returned_owner (by decide) hsecond).2 (by simp [DaemonFunction.Succeeded])
  exact ⟨⟨howner, hfds rfl⟩, hother, hempty⟩

end Topfield
