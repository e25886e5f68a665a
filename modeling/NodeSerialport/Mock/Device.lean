import NodeSerialport.Lib.Machine
import NodeSerialport.Parsers.ByteQueue
import Mathlib.Logic.Function.Basic
/-!
# The mock device

A `VirtualDevice` (`ts/lib/mock.ts`) keeps one queue of bytes for all its sessions.  A session is a `MockPortBinding`:
one read may be pending, and a `process.nextTick` that was scheduled for it looks at the queue.

* `VirtualDevice`, `MockPortBinding` — the objects; a session is named by its number;
* `Tick` — what is scheduled: `_wake`, the ready data, the two steps of a write, a flush;
* `MockBinding.step`, `mock` — the machine: calls of the methods, and scheduled callbacks, which may run in any order.
-/

namespace NodeSerialport.Mock

open Parsers (Buffer ByteQueue integer maxSafeInteger)
open Lib (Machine)

inductive MockError where
  | canceled | locked | invalidRange | readPending | writePending | changedSize
  /-- The queue threw. -/
  | queue (message : String)
  deriving DecidableEq, Repr

/-- `#pending`: `promise` names the read; the buffer is left to whoever owns it. -/
structure Request where
  promise : ℕ
  offset : ℕ
  length : ℕ
  deriving DecidableEq, Repr

/-- `writeOperation`: a promise that is settled stays until `write` goes on. -/
inductive WriteOperation where
  | running | settled
  deriving DecidableEq, Repr

structure MockPortBinding where
  lock : Bool
  isOpen : Bool := true
  pending : Option Request := none
  scheduled : Bool := false
  writeOperation : Option WriteOperation := none
  lastWrite : Option Buffer := none
  recorded : List Buffer := []
  deriving DecidableEq, Repr

structure VirtualDevice where
  bytes : ByteQueue := {}
  /-- The open sessions, in the order of the `Set`. -/
  sessions : List ℕ := []
  echo : Bool
  record : Bool
  maxReadSize : ℕ
  readyData : Option Buffer
  deriving DecidableEq, Repr

/-- A callback of `process.nextTick`. -/
inductive Tick where
  | ready (port : ℕ) (data : Buffer)
  | wake (port : ℕ)
  /-- `#write` goes on. -/
  | write (port : ℕ) (data : Buffer)
  | echo (port : ℕ) (data : Buffer)
  /-- `flush` goes on. -/
  | flush (port : ℕ)
  deriving DecidableEq, Repr

/-- The device, its sessions, and what is scheduled. -/
structure MockBinding where
  device : VirtualDevice
  ports : ℕ → Option MockPortBinding := fun _ => none
  /-- The number of sessions that were opened. -/
  opened : ℕ := 0
  ticks : List Tick := []
  /-- The number of reads that were asked for. -/
  reads : ℕ := 0

inductive Event where
  | open (lock : Bool)
  | close (port : ℕ)
  /-- A read into a buffer of this size. -/
  | read (port size : ℕ) (offset length : ℤ)
  | emitData (port : ℕ) (data : Buffer)
  /-- `feed` of the device itself. -/
  | feed (data : Buffer)
  | write (port : ℕ) (data : Buffer)
  /-- `write` goes on after `writeOperation`. -/
  | written (port : ℕ)
  | flush (port : ℕ)
  /-- A scheduled callback runs; `size` is the size of the destination of the pending read by now. -/
  | tick (tick : Tick) (size : ℕ)
  deriving DecidableEq, Repr

inductive Output where
  | opened (result : Except MockError ℕ)
  | closed (port : ℕ) (result : Except MockError Unit)
  | resolved (read : ℕ) (data : Buffer)
  | rejected (read : ℕ) (error : MockError)
  | threw (error : MockError)
  | wrote (port : ℕ) (result : Except MockError Unit)
  | flushed (port : ℕ) (result : Except MockError Unit)
  deriving Repr

/-! ### The device -/

/-- The checks of `createPort`. -/
def VirtualDevice.create (echo record : Bool) (maxReadSize : ℤ) (readyData : Option Buffer) : Except String VirtualDevice := do
  let maxReadSize ← integer maxReadSize "maxReadSize" 1 maxSafeInteger
  return { echo, record, maxReadSize := maxReadSize.toNat, readyData }

/-- `read`: the bytes that were copied into a buffer of this size. -/
def VirtualDevice.read (d : VirtualDevice) (size offset length : ℕ) : Except String (Buffer × VirtualDevice) :=
  let count := min (min length d.maxReadSize) d.bytes.length
  if count = 0 then .ok ([], d)
  else do
    let view ← d.bytes.peek count
    -- `copy` stops at the end of its target
    let copied := view.take (size - offset)
    let bytes ← d.bytes.discard copied.length
    return (copied, { d with bytes })

namespace MockBinding

def setPort (m : MockBinding) (p : ℕ) (port : MockPortBinding) : MockBinding :=
  { m with ports := Function.update m.ports p (some port) }

def schedule (m : MockBinding) (tick : Tick) : MockBinding := { m with ticks := m.ticks ++ [tick] }

/-- `_wake`. -/
def wake (m : MockBinding) (p : ℕ) : MockBinding :=
  match m.ports p with
  | none => m
  | some port =>
    if port.pending.isNone || port.scheduled then m else (m.setPort p { port with scheduled := true }).schedule (.wake p)

/-- `feed`: every open session is woken. -/
def feed (m : MockBinding) (data : Buffer) : MockBinding :=
  let m := { m with device := { m.device with bytes := m.device.bytes.append data } }
  m.device.sessions.foldl wake m

/-- `open` of the device, and the constructor of the session. -/
def openPort (m : MockBinding) (lock : Bool) : MockBinding × List Output :=
  let locked := m.device.sessions.any fun p => (m.ports p).any (·.lock)
  if locked || (lock && !m.device.sessions.isEmpty) then (m, [.opened (.error .locked)])
  else
    let p := m.opened
    let ready := (m.device.readyData.map (Tick.ready p)).toList
    let m := { m with opened := p + 1, ticks := m.ticks ++ ready }.setPort p { lock }
    ({ m with device := { m.device with sessions := m.device.sessions ++ [p] } }, [.opened (.ok p)])

/-- `close` of the device: the last session leaves nothing behind. -/
def leave (m : MockBinding) (p : ℕ) : MockBinding :=
  let sessions := m.device.sessions.filter (· != p)
  let bytes := if sessions.isEmpty then m.device.bytes.clear else m.device.bytes
  { m with device := { m.device with sessions, bytes } }

def closePort (m : MockBinding) (p : ℕ) (port : MockPortBinding) : MockBinding × List Output :=
  if !port.isOpen then (m, [.closed p (.error .canceled)])
  else
    let m := (m.setPort p { port with isOpen := false, pending := none }).leave p
    (m, (port.pending.map fun request => Output.rejected request.promise .canceled).toList ++ [.closed p (.ok ())])

def read (m : MockBinding) (p : ℕ) (port : MockPortBinding) (size : ℕ) (offset length : ℤ) : MockBinding × List Output :=
  let promise := m.reads
  let m := { m with reads := promise + 1 }
  if offset.natAbs > maxSafeInteger ∨ length.natAbs > maxSafeInteger ∨ offset < 0 ∨ length < 1 ∨ offset + length > size then
    (m, [.rejected promise .invalidRange])
  else if !port.isOpen then (m, [.rejected promise .canceled])
  else if port.pending.isSome then (m, [.rejected promise .readPending])
  else ((m.setPort p { port with pending := some ⟨promise, offset.toNat, length.toNat⟩ }).wake p, [])

def emitData (m : MockBinding) (port : MockPortBinding) (data : Buffer) : MockBinding × List Output :=
  if !port.isOpen then (m, [.threw .canceled]) else (m.feed data, [])

def write (m : MockBinding) (p : ℕ) (port : MockPortBinding) (data : Buffer) : MockBinding × List Output :=
  if !port.isOpen then (m, [.wrote p (.error .canceled)])
  else if port.writeOperation.isSome then (m, [.wrote p (.error .writePending)])
  else ((m.setPort p { port with writeOperation := some .running }).schedule (.write p data), [])

/-- `#write`, after its tick. -/
def writeTick (m : MockBinding) (p : ℕ) (port : MockPortBinding) (data : Buffer) : MockBinding × List Output :=
  let port := { port with writeOperation := some .settled }
  if !port.isOpen then (m.setPort p port, [.wrote p (.error .canceled)])
  else
    let recorded := if m.device.record then port.recorded ++ [data] else port.recorded
    let m := m.setPort p { port with lastWrite := some data, recorded }
    (if m.device.echo then m.schedule (.echo p data) else m, [.wrote p (.ok ())])

/-- The tick of `_wake`. -/
def wakeTick (m : MockBinding) (p : ℕ) (port : MockPortBinding) (size : ℕ) : MockBinding × List Output :=
  let port := { port with scheduled := false }
  match port.pending with
  | none => (m.setPort p port, [])
  | some request =>
    let settled := { port with pending := none }
    if request.offset + request.length > size then (m.setPort p settled, [.rejected request.promise .changedSize])
    else
      match m.device.read size request.offset request.length with
      | .error message => (m.setPort p settled, [.rejected request.promise (.queue message)])
      | .ok (data, device) =>
        if data = [] then ({ m with device }.setPort p port, [])
        else ({ m with device }.setPort p settled, [.resolved request.promise data])

def runTick (m : MockBinding) (tick : Tick) (size : ℕ) : Option (MockBinding × List Output) :=
  match tick with
  | .ready p data | .echo p data =>
    (m.ports p).map fun port => if port.isOpen then m.emitData port data else (m, [])
  | .wake p => (m.ports p).map fun port => m.wakeTick p port size
  | .write p data => (m.ports p).map fun port => m.writeTick p port data
  | .flush p =>
    (m.ports p).map fun port =>
      if !port.isOpen then (m, [.flushed p (.error .canceled)])
      else ({ m with device := { m.device with bytes := m.device.bytes.clear } }, [.flushed p (.ok ())])

def step (m : MockBinding) : Event → Option (MockBinding × List Output)
  | .open lock => some (m.openPort lock)
  | .close p => (m.ports p).map fun port => m.closePort p port
  | .read p size offset length => (m.ports p).map fun port => m.read p port size offset length
  | .emitData p data => (m.ports p).map fun port => m.emitData port data
  | .feed data => some (m.feed data, [])
  | .write p data => (m.ports p).map fun port => m.write p port data
  | .written p =>
    (m.ports p).bind fun port =>
      if port.writeOperation = some .settled then some (m.setPort p { port with writeOperation := none }, []) else none
  | .flush p =>
    (m.ports p).map fun port =>
      if !port.isOpen then (m, [.flushed p (.error .canceled)]) else (m.schedule (.flush p), [])
  | .tick tick size => if tick ∈ m.ticks then { m with ticks := m.ticks.erase tick }.runTick tick size else none

end MockBinding

/-- One virtual device. -/
def mock : Machine MockBinding Event Output := ⟨MockBinding.step⟩

end NodeSerialport.Mock
