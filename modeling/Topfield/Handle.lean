import Topfield.Lib.Transport

/-!
# The handle and what surrounds the library

The fields of `tf_handle` that the protocol code reads or writes, with the state of the device's side
of the connection behind `dev`, and the environment the library runs in: the bulk transfers, the bytes
an uninitialised local finds on the stack, and the C library's calendar.
-/

namespace Topfield

open Lib

/-- The fields of the C library's `struct tm` that the library uses. -/
structure Tm where
  sec : Int
  min : Int
  hour : Int
  mday : Int
  mon : Int
  year : Int
deriving DecidableEq, Repr

/-- The host the library runs on. `stack` is what a local buffer that nobody has initialised holds. -/
structure Host (σ : Type) where
  stack : σ → Mem
  localtime : Int → Tm
  mktime : Tm → Int

/-- The world around the library. -/
structure Env (σ : Type) extends Transport σ, Host σ

def Host.blank (σ : Type) : Host σ where
  stack _ := fun _ => 0
  localtime _ := ⟨0, 0, 0, 0, 0, 0⟩
  mktime _ := 0

/-- `tf_handle`, with the state `usb` of whatever is behind `dev`. The fields for tracing and for the
lock file are left out. -/
structure TfHandle (σ : Type) where
  timeout : Int
  nocrc : Int
  error : Int
  dev : Bool
  pending : Int
  buf : Mem
  usb : σ

/-- The handle `topfield_open` fills in: cleared, with the default timeout and a fresh buffer. -/
def TfHandle.opened {σ : Type} (usb : σ) (buf : Mem) : TfHandle σ where
  timeout := 11000
  nocrc := 0
  error := 0
  dev := true
  pending := 0
  buf := buf
  usb := usb

/-- The result of a call that takes a handle. -/
structure Call (σ : Type) where
  ret : Int
  tf : TfHandle σ

/-- The result of a call that also fills in an output parameter. -/
structure CallOut (σ α : Type) extends Call σ where
  out : α

/-! ### Error codes -/

abbrev tfErrNone : Int := 0
abbrev tfErrDone : Int := 1
abbrev tfErrCrc : Int := -1
abbrev tfErrUnexpected : Int := -100
abbrev tfErrIo : Int := -101
abbrev tfErrNoconn : Int := -102

theorem tfErrUnexpected_neg : tfErrUnexpected < 0 := by decide

theorem tfErrIo_neg : tfErrIo < 0 := by decide

theorem tfErrNoconn_neg : tfErrNoconn < 0 := by decide

/-- The environment with the list of its transfers beside its state. -/
def Env.logged {σ : Type} (e : Env σ) : Env (σ × List Event) where
  toTransport := e.toTransport.logged
  stack s := e.stack s.1
  localtime := e.localtime
  mktime := e.mktime

end Topfield
