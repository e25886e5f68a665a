import NodeSerialport.Parsers.Bytes
import Mathlib.Tactic.Common
/-!
# Device transfers

What a nonblocking serial device answers, and `TransferPoller` (`src/transfer.rs`), which polls a read and a write on one
device and lets the direction that did not transfer last go first.

* `IoError` — an error, with the code and text JavaScript sees;
* `Io` — the answer of one poll;
* `TransferPoller.poll` — one poll of both directions.
-/

namespace NodeSerialport.Native

open Parsers (Buffer)

inductive ErrorKind where
  | notFound | permissionDenied | invalidInput | invalidData | resourceBusy | wouldBlock | timedOut | unsupported
  | brokenPipe | notConnected | connectionAborted | connectionReset | unexpectedEof | writeZero | interrupted | other
  deriving DecidableEq, Repr

/-- `io::Error`. -/
structure IoError where
  kind : ErrorKind
  message : String
  errno : Option ℤ := none
  deriving DecidableEq, Repr

/-- `code`: the category of an error. -/
def IoError.code (error : IoError) : String :=
  match error.kind with
  | .notFound => "ERR_SERIALPORT_NOT_FOUND"
  | .permissionDenied => "ERR_SERIALPORT_PERMISSION_DENIED"
  | .invalidInput | .invalidData => "ERR_SERIALPORT_INVALID_ARGUMENT"
  | .resourceBusy | .wouldBlock => "ERR_SERIALPORT_BUSY"
  | .timedOut => "ERR_SERIALPORT_TIMED_OUT"
  | .unsupported => "ERR_SERIALPORT_UNSUPPORTED"
  | .brokenPipe | .notConnected | .connectionAborted | .connectionReset | .unexpectedEof | .writeZero =>
    "ERR_SERIALPORT_DISCONNECTED"
  | .interrupted | .other => "ERR_SERIALPORT_IO"

/-- The answer of one poll. -/
inductive Io (α : Type) where
  | pending
  | error (error : IoError)
  | ready (value : α)
  deriving DecidableEq, Repr

/-- A transfer that took place: the bytes read into the offered slice, or how many of the offered bytes were accepted. -/
inductive Transfer where
  | read (data : Buffer)
  | write (count : ℕ)
  deriving DecidableEq, Repr

/-- `retry_interrupted`: an interruption is pending, and wakes the task. -/
def retryInterrupted (result : Io Transfer) : Io Transfer × Bool :=
  match result with
  | .error error => if error.kind = .interrupted then (.pending, true) else (result, false)
  | _ => (result, false)

/-- `poll_read`, where a slice of some length may be offered. -/
def pollRead (offered : Option ℕ) (device : Io Buffer) : Io Transfer × Bool :=
  match offered with
  | none => (.pending, false)
  | some _ =>
    retryInterrupted (match device with
      | .pending => .pending
      | .error error => .error error
      | .ready data => .ready (.read data))

/-- `poll_write`. -/
def pollWrite (offered : Option Buffer) (device : Io ℕ) : Io Transfer × Bool :=
  match offered with
  | none => (.pending, false)
  | some _ =>
    retryInterrupted (match device with
      | .pending => .pending
      | .error error => .error error
      | .ready count => .ready (.write count))

structure TransferPoller where
  writeFirst : Bool := false
  deriving DecidableEq, Repr

/-- The second direction is polled where the first is pending; the flag tells whether the task was woken. -/
def andThen (first second : Io Transfer × Bool) : Io Transfer × Bool :=
  match first with
  | (.pending, woken) => (second.1, woken || second.2)
  | ready => ready

/-- `TransferPoller::poll`. -/
def TransferPoller.poll (t : TransferPoller) (read : Option ℕ) (write : Option Buffer) (reader : Io Buffer)
    (writer : Io ℕ) : (Io Transfer × Bool) × TransferPoller :=
  let result :=
    if t.writeFirst then andThen (pollWrite write writer) (pollRead read reader)
    else andThen (pollRead read reader) (pollWrite write writer)
  match result.1 with
  | .ready (.read _) => (result, ⟨true⟩)
  | .ready (.write _) => (result, ⟨false⟩)
  | _ => (result, t)

theorem retryInterrupted_ready {result : Io Transfer} {transfer : Transfer}
    (h : (retryInterrupted result).1 = .ready transfer) : result = .ready transfer := by
  unfold retryInterrupted at h
  split at h
  · split at h <;> cases h
  · exact h

theorem pollRead_ready {offered : Option ℕ} {device : Io Buffer} {transfer : Transfer}
    (h : (pollRead offered device).1 = .ready transfer) :
    offered.isSome = true ∧ ∃ data, device = .ready data ∧ transfer = .read data := by
  cases offered with
  | none => cases h
  | some length =>
    have hready := retryInterrupted_ready h
    cases device with
    | ready data => exact ⟨rfl, data, rfl, by cases hready; rfl⟩
    | pending => cases hready
    | error error => cases hready

theorem pollWrite_ready {offered : Option Buffer} {device : Io ℕ} {transfer : Transfer}
    (h : (pollWrite offered device).1 = .ready transfer) :
    offered.isSome = true ∧ ∃ count, device = .ready count ∧ transfer = .write count := by
  cases offered with
  | none => cases h
  | some data =>
    have hready := retryInterrupted_ready h
    cases device with
    | ready count => exact ⟨rfl, count, rfl, by cases hready; rfl⟩
    | pending => cases hready
    | error error => cases hready

theorem andThen_ready {first second : Io Transfer × Bool} {transfer : Transfer}
    (h : (andThen first second).1 = .ready transfer) : first.1 = .ready transfer ∨ second.1 = .ready transfer := by
  unfold andThen at h
  split at h
  · exact .inr h
  · exact .inl h

/-- **A transfer that `poll` reports** is one that was offered, and that the device made. -/
theorem TransferPoller.poll_ready {t : TransferPoller} {read : Option ℕ} {write : Option Buffer} {reader : Io Buffer}
    {writer : Io ℕ} {transfer : Transfer} (h : (t.poll read write reader writer).1.1 = .ready transfer) :
    (read.isSome = true ∧ ∃ data, reader = .ready data ∧ transfer = .read data) ∨
      write.isSome = true ∧ ∃ count, writer = .ready count ∧ transfer = .write count := by
  have hresult : (if t.writeFirst then andThen (pollWrite write writer) (pollRead read reader)
      else andThen (pollRead read reader) (pollWrite write writer)).1 = .ready transfer := by
    unfold poll at h
    dsimp only at h
    split at h <;> exact h
  split at hresult
  · rcases andThen_ready hresult with h | h
    · exact .inr (pollWrite_ready h)
    · exact .inl (pollRead_ready h)
  · rcases andThen_ready hresult with h | h
    · exact .inl (pollRead_ready h)
    · exact .inr (pollWrite_ready h)

end NodeSerialport.Native
