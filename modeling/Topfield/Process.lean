import Topfield.Lib.Holdings

/-!
# The process and the system

What the library asks of the system below the bulk transfers: files, streams, memory, signals and the ioctls
that set a device up. The system answers as it likes, and may refuse anything; the process keeps the table of
what it has got. Messages on `stderr` are left out.
-/

namespace Topfield

open Lib

/-- A descriptor, a `FILE *`, or a pointer from `malloc`. -/
inductive Resource
  | fd (n : Int)
  | stream (fh : Int)
  | block (ptr : Int)
deriving DecidableEq

/-- What is known of a resource: for a file its path, whether there is a lock on it, and whether the interface of
the device was claimed with it. -/
inductive Holding
  | file (path : List UInt8) (locked claimed : Bool)
  | memory (size : Nat)
deriving DecidableEq

def Holding.lock : Holding → Holding
  | .file path _ claimed => .file path true claimed
  | .memory size => .memory size

def Holding.claim (claimed : Bool) : Holding → Holding
  | .file path locked _ => .file path locked claimed
  | .memory size => .memory size

/-- `O_RDWR | O_CREAT`, `O_RDONLY` and `O_RDWR` -/
inductive OpenMode
  | create
  | readOnly
  | readWrite
deriving DecidableEq

/-- The ioctls of usbfs, without those that transfer data. -/
inductive UsbControl
  | reset
  | claimInterface
  | setInterface
  | releaseInterface
deriving DecidableEq

inductive OsCall
  | openFile (path : List UInt8) (mode : OpenMode)
  | close (fd : Int)
  | flock (fd : Int)
  | write (fd : Int) (bytes : List UInt8)
  | read (fd : Int) (count : Nat)
  | ioctl (fd : Int) (control : UsbControl)
  | fopen (path : List UInt8)
  | fclose (fh : Int)
  | malloc (size : Nat)
  | free (ptr : Int)
  | kill (pid : Int)
  | sleep (seconds : Nat)
deriving DecidableEq

/-- The table of the process. -/
abbrev Table := Resource → Option Holding

/-- The system: a number and some bytes for every request. The bytes are those that `read` stores, and for
`fopen` those that are in the file. -/
structure Os (κ : Type) where
  pid : Nat
  answer : κ → OsCall → (Int × List UInt8) × κ

/-- A request, the table it finds, and what it returns. -/
structure Moment where
  request : OsCall
  table : Table
  ret : Int

structure Process (κ : Type) where
  system : κ
  table : Table
  log : List Moment

structure Answer (κ : Type) where
  ret : Int
  data : List UInt8
  process : Process κ

namespace OsCall

/-- What a request returns. What is in use is not given out a second time. -/
@[simp] def ret (table : Table) : OsCall → (number : Int) → Int
  | .openFile _ _, fd => if 0 ≤ fd ∧ table (.fd fd) = none then fd else -1
  | .fopen _, fh => if table (.stream fh) = none then fh else 0
  | .malloc _, ptr => if table (.block ptr) = none then ptr else 0
  | _, number => number

/-- What it makes of the table. -/
@[simp] def effect (table : Table) : OsCall → (ret : Int) → Table
  | .openFile path _, fd => if fd < 0 then table else Function.update table (.fd fd) (some (.file path false false))
  | .close fd, _ => if fd < 0 then table else Function.update table (.fd fd) none
  | .flock fd, ret => if ret = 0 then Function.update table (.fd fd) ((table (.fd fd)).map Holding.lock) else table
  | .ioctl fd .claimInterface, ret =>
    if ret < 0 then table else Function.update table (.fd fd) ((table (.fd fd)).map (Holding.claim true))
  | .ioctl fd .releaseInterface, ret =>
    if ret < 0 then table else Function.update table (.fd fd) ((table (.fd fd)).map (Holding.claim false))
  | .fopen path, fh => if fh = 0 then table else Function.update table (.stream fh) (some (.file path false false))
  | .fclose fh, _ => Function.update table (.stream fh) none
  | .malloc size, ptr => if ptr = 0 then table else Function.update table (.block ptr) (some (.memory size))
  | .free ptr, _ => if ptr = 0 then table else Function.update table (.block ptr) none
  | _, _ => table

end OsCall

namespace Process

variable {κ : Type} (os : Os κ) (p : Process κ)

def call (request : OsCall) : Answer κ :=
  let answer := os.answer p.system request
  let ret := request.ret p.table answer.1.1
  { ret
    data := answer.1.2
    process :=
      { system := answer.2
        table := request.effect p.table ret
        log := p.log ++ [⟨request, p.table, ret⟩] } }

end Process

/-- The descriptor that a request is made of. -/
def OsCall.descriptor : OsCall → Option Int
  | .close fd => some fd
  | .flock fd => some fd
  | .write fd _ => some fd
  | .read fd _ => some fd
  | .ioctl fd _ => some fd
  | _ => none

def Holding.path : Holding → Option (List UInt8)
  | .file path _ _ => some path
  | .memory _ => none

namespace Moment

/-- A request is made of what is there: what is closed or freed has not been closed or freed before. To close
`-1` and to free NULL does nothing. A signal is sent to one process. -/
structure Proper (m : Moment) : Prop where
  descriptor : ∀ fd, m.request.descriptor = some fd → m.request = .close (-1) ∨ m.table (.fd fd) ≠ none
  stream : ∀ fh, m.request = .fclose fh → m.table (.stream fh) ≠ none
  block : ∀ ptr, m.request = .free ptr → ptr = 0 ∨ m.table (.block ptr) ≠ none
  signal : ∀ pid, m.request = .kill pid → 0 < pid

def path (m : Moment) : Option (List UInt8) :=
  match m.request with
  | .openFile path _ => some path
  | request => request.descriptor.bind fun fd => if fd < 0 then none else (m.table (.fd fd)).bind Holding.path

/-- What is in a table is still in use. -/
def Keeps (table : Table) (m : Moment) : Prop := ∀ r v, table r = some v → m.table r = some v

variable {ret : Int}

theorem proper_descriptor {request : OsCall} {fd : Int} {table : Table} {v : Holding}
    (h : request.descriptor = some fd) (hfd : table (.fd fd) = some v) : Proper ⟨request, table, ret⟩ := by
  have hin : table (.fd fd) ≠ none := by rw [hfd]; exact Option.some_ne_none v
  cases request <;> cases h
  all_goals exact ⟨fun _ h => .inr (Option.some.inj h ▸ hin), nofun, nofun, nofun⟩

theorem proper_openFile (path : List UInt8) (mode : OpenMode) (table : Table) :
    Proper ⟨.openFile path mode, table, ret⟩ := ⟨nofun, nofun, nofun, nofun⟩

theorem proper_fopen (path : List UInt8) (table : Table) : Proper ⟨.fopen path, table, ret⟩ :=
  ⟨nofun, nofun, nofun, nofun⟩

theorem proper_malloc (size : Nat) (table : Table) : Proper ⟨.malloc size, table, ret⟩ :=
  ⟨nofun, nofun, nofun, nofun⟩

theorem proper_sleep (seconds : Nat) (table : Table) : Proper ⟨.sleep seconds, table, ret⟩ :=
  ⟨nofun, nofun, nofun, nofun⟩

theorem proper_fclose {fh : Int} {table : Table} (h : table (.stream fh) ≠ none) : Proper ⟨.fclose fh, table, ret⟩ :=
  ⟨nofun, fun _ hrequest => by cases hrequest; exact h, nofun, nofun⟩

theorem proper_free {ptr : Int} {table : Table} (h : ptr = 0 ∨ table (.block ptr) ≠ none) :
    Proper ⟨.free ptr, table, ret⟩ :=
  ⟨nofun, nofun, fun _ hrequest => by cases hrequest; exact h, nofun⟩

theorem proper_kill {pid : Int} (h : 0 < pid) (table : Table) : Proper ⟨.kill pid, table, ret⟩ :=
  ⟨nofun, nofun, nofun, fun _ hrequest => by cases hrequest; exact h⟩

theorem path_descriptor {request : OsCall} {fd : Int} {table : Table} {v : Holding}
    (h : request.descriptor = some fd) (hnonneg : 0 ≤ fd) (hfd : table (.fd fd) = some v) :
    path ⟨request, table, ret⟩ = v.path := by
  have hbind : (if fd < 0 then none else (table (.fd fd)).bind Holding.path) = v.path := by
    rw [if_neg (Int.not_lt.mpr hnonneg), hfd, Option.bind_some]
  cases request <;> cases h <;> exact hbind

end Moment

namespace Process

variable {κ : Type} {p p' p'' : Process κ} {Q Q' : Moment → Prop}

/-- From a moment on the process has made requests that are all as `Q` says. -/
def Made (Q : Moment → Prop) (p p' : Process κ) : Prop :=
  ∃ moments, p'.log = p.log ++ moments ∧ ∀ m ∈ moments, Q m

theorem made_refl (Q : Moment → Prop) (p : Process κ) : p.Made Q p :=
  ⟨[], (List.append_nil _).symm, fun _ hm => nomatch hm⟩

theorem Made.trans (h : p.Made Q p') (h' : p'.Made Q p'') : p.Made Q p'' := by
  obtain ⟨before, hbefore, hmade⟩ := h
  obtain ⟨after, hafter, hmade'⟩ := h'
  refine ⟨before ++ after, by rw [hafter, hbefore, List.append_assoc], fun m hm => ?_⟩
  rcases List.mem_append.mp hm with hm | hm
  · exact hmade m hm
  · exact hmade' m hm

theorem Made.mono (h : p.Made Q p') (hQ : ∀ m, Q m → Q' m) : p.Made Q' p' := by
  obtain ⟨moments, hlog, hmade⟩ := h
  exact ⟨moments, hlog, fun m hm => hQ m (hmade m hm)⟩

theorem Made.call (h : p.Made Q p') (os : Os κ) (request : OsCall)
    (hQ : Q ⟨request, p'.table, (p'.call os request).ret⟩) : p.Made Q (p'.call os request).process := by
  refine h.trans ⟨[⟨request, p'.table, (p'.call os request).ret⟩], rfl, fun m hm => ?_⟩
  rw [List.mem_singleton.mp hm]
  exact hQ

theorem Made.getLast?_call (h : p.Made Q p') (os : Os κ) (request : OsCall) :
    ((p'.call os request).process.log.drop p.log.length).getLast? =
      some ⟨request, p'.table, (p'.call os request).ret⟩ := by
  obtain ⟨moments, hlog, -⟩ := h
  have hcall : (p'.call os request).process.log = p'.log ++ [⟨request, p'.table, (p'.call os request).ret⟩] := rfl
  rw [hcall, hlog, List.append_assoc, List.drop_left, List.getLast?_concat]

/-! ### What a request does to the part of the table that one looks at -/

variable (os : Os κ) {rest part : Table}

theorem call_openFile (h : Parts rest part p.table) (path : List UInt8) (mode : OpenMode) :
    let r := p.call os (.openFile path mode)
    r.ret = -1 ∧ Parts rest part r.process.table ∨ 0 ≤ r.ret ∧ p.table (.fd r.ret) = none ∧
      Parts rest (Function.update part (.fd r.ret) (some (.file path false false))) r.process.table := by
  simp only [call, OsCall.ret, OsCall.effect]
  split_ifs with hfree hneg
  · omega
  · exact .inr ⟨hfree.1, hfree.2, h.update (h.free hfree.2).2 _⟩
  · exact .inl ⟨rfl, h⟩
  · omega

theorem call_fopen (h : Parts rest part p.table) (path : List UInt8) :
    let r := p.call os (.fopen path)
    r.ret = 0 ∧ Parts rest part r.process.table ∨ r.ret ≠ 0 ∧ p.table (.stream r.ret) = none ∧
      Parts rest (Function.update part (.stream r.ret) (some (.file path false false))) r.process.table := by
  simp only [call, OsCall.ret, OsCall.effect]
  split_ifs with hfree hnull hnull
  · exact .inl ⟨hnull, h⟩
  · exact .inr ⟨hnull, hfree, h.update (h.free hfree).2 _⟩
  · exact .inl ⟨rfl, h⟩
  · exact absurd rfl hnull

theorem call_malloc (h : Parts rest part p.table) (size : Nat) :
    let r := p.call os (.malloc size)
    r.ret = 0 ∧ Parts rest part r.process.table ∨ r.ret ≠ 0 ∧ p.table (.block r.ret) = none ∧
      Parts rest (Function.update part (.block r.ret) (some (.memory size))) r.process.table := by
  simp only [call, OsCall.ret, OsCall.effect]
  split_ifs with hfree hnull hnull
  · exact .inl ⟨hnull, h⟩
  · exact .inr ⟨hnull, hfree, h.update (h.free hfree).2 _⟩
  · exact .inl ⟨rfl, h⟩
  · exact absurd rfl hnull

theorem call_close (h : Parts rest part p.table) {fd : Int} {v : Holding} (hfd : 0 ≤ fd)
    (hpart : part (.fd fd) = some v) :
    Parts rest (Function.update part (.fd fd) none) (p.call os (.close fd)).process.table := by
  simp only [call, OsCall.effect, if_neg (Int.not_lt.mpr hfd)]
  exact h.update (h.not_rest hpart) _

theorem call_close_none (p : Process κ) : (p.call os (.close (-1))).process.table = p.table := rfl

theorem call_fclose (h : Parts rest part p.table) {fh : Int} {v : Holding} (hpart : part (.stream fh) = some v) :
    Parts rest (Function.update part (.stream fh) none) (p.call os (.fclose fh)).process.table :=
  h.update (h.not_rest hpart) _

theorem call_free (h : Parts rest part p.table) {ptr : Int} {v : Holding} (hptr : ptr ≠ 0)
    (hpart : part (.block ptr) = some v) :
    Parts rest (Function.update part (.block ptr) none) (p.call os (.free ptr)).process.table := by
  simp only [call, OsCall.effect, if_neg hptr]
  exact h.update (h.not_rest hpart) _

theorem call_flock (h : Parts rest part p.table) {fd : Int} {v : Holding} (hpart : part (.fd fd) = some v) :
    Parts rest (if (p.call os (.flock fd)).ret = 0 then Function.update part (.fd fd) (some v.lock) else part)
      (p.call os (.flock fd)).process.table := by
  simp only [call, OsCall.ret, OsCall.effect, h.of_part hpart, Option.map_some]
  split_ifs
  · exact h.update (h.not_rest hpart) _
  · exact h

theorem call_claimInterface (h : Parts rest part p.table) {fd : Int} {v : Holding}
    (hpart : part (.fd fd) = some v) :
    Parts rest (if (p.call os (.ioctl fd .claimInterface)).ret < 0 then part else
      Function.update part (.fd fd) (some (v.claim true)))
      (p.call os (.ioctl fd .claimInterface)).process.table := by
  simp only [call, OsCall.ret, OsCall.effect, h.of_part hpart, Option.map_some]
  split_ifs
  · exact h
  · exact h.update (h.not_rest hpart) _

theorem call_releaseInterface (h : Parts rest part p.table) {fd : Int} {v : Holding}
    (hpart : part (.fd fd) = some v) :
    ∃ v', Parts rest (Function.update part (.fd fd) (some v'))
      (p.call os (.ioctl fd .releaseInterface)).process.table := by
  simp only [call, OsCall.ret, OsCall.effect, h.of_part hpart, Option.map_some]
  split_ifs
  · refine ⟨v, ?_⟩
    rw [← hpart, Function.update_eq_self]
    exact h
  · exact ⟨v.claim false, h.update (h.not_rest hpart) _⟩

end Process

end Topfield
