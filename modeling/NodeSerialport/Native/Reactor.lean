import NodeSerialport.Lib.Machine
import NodeSerialport.Binding.Client
import NodeSerialport.Native.Transfer
/-!
# The native port

The Rust side of a port: the calls of `NativePort` (`src/lib.rs`), made by one JavaScript thread, and the reactor
(`src/reactor.rs`), which runs on its own thread.  They share the stop flag, the number of ordered commands that are
not done, the command channel, the session (the open device, under a mutex) and the callback queue.  A step accesses
what is shared once; the device, the scheduler and JavaScript choose the inputs.

* `Command`, `CallbackEvent` — what travels in the channel and in the callback queue;
* `Reactor`, `Pc` — the local variables of `run_open`, and where it stands;
* `Call` — where a call of `NativePort` stands;
* `NativePort.step`, `native` — the machine.
-/

namespace NodeSerialport.Native

open Parsers (Buffer)
open Lib (Machine)
open Binding (NativeEvent NativeCall Answer SerialError)

def chunkSize : ℕ := 64 * 1024
def readSlots : ℕ := 32
def maxPendingOps : ℕ := 64
/-- On 64-bit targets. -/
def inlineReadCapacity : ℕ := 96
def callbackQueueSize : ℕ := 128
def readBurstLimit : ℕ := 16

/-! ### Commands and callback events -/

inductive Operation where
  | read (length : ℕ)
  | readCredit (bytes slots : ℕ)
  | write (data : Buffer)
  | update (baudRate : ℕ)
  | set (flags : ℕ)
  | get
  | getBaudRate
  | flush
  | drain
  deriving DecidableEq, Repr

structure Command where
  id : ℕ
  operation : Operation
  deriving DecidableEq, Repr

/-- `Command::ordered`. -/
def Command.ordered (c : Command) : Bool :=
  match c.operation with
  | .read _ | .readCredit .. => false
  | _ => true

inductive CallbackEvent where
  /-- `bytes` is the whole fixed array, of which the first `len` count. -/
  | inlineRead (bytes : Buffer) (len : ℕ)
  | read (data : Buffer)
  | readBatch (buffers : List Buffer)
  | event (event : NativeEvent)
  deriving DecidableEq, Repr

/-- `CallbackEvent::read`, and the read buffer it leaves behind: kept where the bytes fit inline, else given away. -/
def CallbackEvent.ofRead (buffer : Buffer) (len : ℕ) : CallbackEvent × Buffer :=
  if inlineReadCapacity < len then (.read (buffer.take len), [])
  else (.inlineRead (buffer.take len ++ List.replicate (inlineReadCapacity - len) 0) len, buffer)

/-- What the JavaScript allocator does: it throws, or returns a buffer of some length. -/
abbrev Allocation := Except SerialError ℕ

/-- `pooled_read`. -/
def pooledRead (allocation : Allocation) (data : Buffer) : Except SerialError Buffer :=
  match allocation with
  | .error error => .error error
  | .ok length => if length = data.length then .ok data else .error { message := "Invalid read buffer allocation" }

/-- Small buffers are copied into pooled ones. -/
def pooled (allocation : Allocation) (data : Buffer) : Except SerialError Buffer :=
  if data.length ≤ 1024 then pooledRead allocation data else .ok data

/-- The same for a batch; `allocate` is asked with the number of buffers that follow. -/
def pooledBatch (allocate : ℕ → Allocation) : List Buffer → Except SerialError (List Buffer)
  | [] => .ok []
  | data :: rest =>
    match pooled (allocate rest.length) data with
    | .error error => .error error
    | .ok data =>
      match pooledBatch allocate rest with
      | .error error => .error error
      | .ok rest => .ok (data :: rest)

/-- The conversion on the JavaScript thread, and the callback it ends in. -/
def CallbackEvent.callback (allocate : ℕ → Allocation) : CallbackEvent → Binding.Callback
  | .inlineRead bytes len =>
    match pooledRead (allocate 0) (bytes.take len) with
    | .ok data => .read (.buffer data)
    | .error error => .failed error [bytes.take len]
  | .read data =>
    match pooled (allocate 0) data with
    | .ok data => .read (.buffer data)
    | .error error => .failed error [data]
  | .readBatch buffers =>
    match pooledBatch allocate buffers with
    | .ok buffers => .read (.batch buffers)
    | .error error => .failed error buffers
  | .event nativeEvent => .event nativeEvent

def NativeEvent.new (id : ℕ) (kind : Binding.EventKind) : NativeEvent := { id := id, kind := kind }

/-- `with_error`. -/
def NativeEvent.withError (event : NativeEvent) (error : IoError) : NativeEvent :=
  { event with message := some error.message, code := some error.code, errno := error.errno }

/-- `NativeEvent::error`. -/
def NativeEvent.error (id : ℕ) (error : IoError) : NativeEvent := NativeEvent.withError (NativeEvent.new id .error) error

/-! ### The reactor's variables -/

structure ReadWindow where
  bytes : ℕ := 0
  slots : ℕ := 0
  size : ℕ := 1024
  deriving DecidableEq, Repr

/-- `next_power_of_two`. -/
def nextPowerOfTwo (length : ℕ) : ℕ := if length ≤ 1 then 1 else 2 ^ ((length - 1).log2 + 1)

/-- The next size after a read of `length` bytes into a slice of `capacity`. -/
def nextSize (size capacity length : ℕ) : ℕ :=
  if length = capacity then min (size * 2) chunkSize else max 64 (min (nextPowerOfTwo length) chunkSize)

/-- Where the reactor stands. -/
inductive Pc where
  /-- `run` waits for the device to open, or has it. -/
  | opening
  | opened
  /-- The head of the loop of `run_open`. -/
  | top
  /-- The head of the loop over the queued commands, whose front command it is about to do. -/
  | commands
  | execute
  /-- A physical drain, on another thread and under the mutex. -/
  | draining
  | complete (event : NativeEvent)
  | notify (event : NativeEvent)
  | select
  /-- An event that is sent at the end of an iteration. -/
  | reply (event : NativeEvent)
  /-- A read of `length` bytes that is charged but not sent. -/
  | filled (length : ℕ) (full : Bool)
  | single (length : ℕ)
  | first (length : ℕ)
  /-- `send_ready_reads`, under the mutex, with at most `left` reads to go. -/
  | burst (left : ℕ) (first : Option Buffer) (batch : List Buffer)
  | publish (collected : Except IoError Unit) (first : Option Buffer) (batch : List Buffer)
  /-- `run` has its result, and drops `Completion`: stop, release the port, report the end. -/
  | done (result : Except IoError Unit)
  | stopped (result : Except IoError Unit)
  | released (result : Except IoError Unit)
  | reported
  | closed
  deriving Repr

structure Reactor where
  pc : Pc := .opening
  commands : List Command := []
  read : Option (ℕ × ℕ) := none
  streaming : Bool := false
  window : ReadWindow := {}
  written : ℕ := 0
  readBuffer : Buffer := []
  transfers : TransferPoller := {}
  isDraining : Bool := false
  deriving Repr

namespace Reactor

/-- The bytes offered to the device: the rest of a write at the front. -/
def write (r : Reactor) : Option Buffer :=
  match r.commands with
  | ⟨_, .write data⟩ :: _ => some (data.drop r.written)
  | _ => none

/-- `read_capacity`. -/
def readCapacity (r : Reactor) : Option ℕ :=
  let length := match r.read with
    | some (_, length) => some length
    | none => if 0 < r.window.bytes ∧ 0 < r.window.slots then some r.window.bytes else none
  length.map (min · r.window.size)

/-- `buffer.resize(capacity, 0)`, where the buffer is shorter. -/
def resize (buffer : Buffer) (capacity : ℕ) : Buffer :=
  buffer ++ List.replicate (capacity - buffer.length) 0

/-- Go on to the `select!`, with room for the read it offers. -/
def toSelect (r : Reactor) : Reactor :=
  { r with
    pc := .select
    readBuffer := match r.readCapacity with
      | none => r.readBuffer
      | some capacity => resize r.readBuffer capacity }

/-- A read into the front of the read buffer. -/
def fill (r : Reactor) (data : Buffer) : Buffer := data ++ r.readBuffer.drop data.length

/-- Charge a read to the streaming window. -/
def charge (r : Reactor) (length : ℕ) : ReadWindow :=
  { r.window with bytes := r.window.bytes - length, slots := r.window.slots - 1 }

end Reactor

/-- Follow-up reads: the first alone, from the second on as a batch. -/
def collect (first : Option Buffer) (batch : List Buffer) (data : Buffer) : Option Buffer × List Buffer :=
  match first with
  | some previous => (none, batch ++ [previous, data])
  | none => if batch = [] then (some data, batch) else (none, batch ++ [data])

/-! ### The shared state -/

/-- Where a call of `NativePort` stands. -/
inductive Call where
  | check (call : NativeCall)
  /-- `writev` after its snapshot, which may have run JavaScript. -/
  | recheck (id : ℕ) (data : Buffer) (inline : Bool)
  | ready (id : ℕ) (data : Buffer) (inline : Bool)
  | tryWrite (id : ℕ) (data : Buffer)
  | enqueue (command : Command)
  | reserve (command : Command)
  | send (command : Command)
  | undo (error : SerialError)
  | returned (answer : Answer)
  deriving Repr

structure NativePort where
  stop : Bool := false
  pendingOps : ℕ := 0
  session : Bool := false
  channel : List Command := []
  /-- Whether the receiver of the channel is still there. -/
  receiving : Bool := true
  callbacks : List CallbackEvent := []
  /-- The callback queue no longer takes events, as when the environment is torn down. -/
  teardown : Bool := false
  reactor : Reactor := {}
  call : Option Call := none
  deriving Repr

/-- What the modem lines and the driver say. -/
structure DeviceStatus where
  cts : Bool
  dsr : Bool
  dcd : Bool
  baudRate : ℕ
  deriving DecidableEq, Repr

/-- What the reactor finds when it goes on. -/
inductive ReactorInput where
  | run
  | opened (result : Except IoError Unit)
  | executed (result : Except IoError DeviceStatus)
  | bytesToWrite (result : Except IoError ℕ)
  | drained (result : Except IoError Unit)
  | notified
  | received
  | disconnected
  | transfer (reader : Io Buffer) (writer : Io ℕ)
  | timer
  | tryRead (result : Except IoError Buffer)
  | noBudget
  deriving Repr

inductive Input where
  /-- JavaScript calls `NativePort`, the call goes on, and returns. -/
  | call (call : NativeCall)
  | advance (writer : Io ℕ)
  | returns
  | reactor (input : ReactorInput)
  /-- The stop flag is set: by `close`, the cleanup hook, or the finalizer. -/
  | stop
  | teardown
  /-- JavaScript takes the first callback. -/
  | consume
  deriving Repr

inductive Output where
  /-- The device returned these bytes. -/
  | readData (data : Buffer)
  /-- The device accepted these bytes. -/
  | wrote (data : Buffer)
  /-- The device did what the command asks for. -/
  | executed (command : Command)
  | handed (event : CallbackEvent)
  | refused (event : CallbackEvent)
  | consumed (event : CallbackEvent)
  | answered (answer : Answer)
  deriving Repr

namespace NativePort

def push (n : NativePort) (event : CallbackEvent) : NativePort := { n with callbacks := n.callbacks ++ [event] }

/-- A nonblocking call of the callback, which fails where the queue is full or closing. -/
def send (n : NativePort) (event : CallbackEvent) : Option NativePort × List Output :=
  if n.callbacks.length < callbackQueueSize ∧ n.teardown = false then (some (n.push event), [.handed event])
  else (none, [.refused event])

def goto (n : NativePort) (pc : Pc) : NativePort := { n with reactor := { n.reactor with pc := pc } }

/-- `run_open` returns, and drops the receiver. -/
def finish (n : NativePort) (result : Except IoError Unit) : NativePort :=
  { n with receiving := false }.goto (.done result)

/-- Send an event and go on, or return. -/
def sendAnd (n : NativePort) (event : CallbackEvent) (next : NativePort → NativePort) : NativePort × List Output :=
  match n.send event with
  | (some n, outputs) => (next n, outputs)
  | (none, outputs) => (n.finish (.ok ()), outputs)

/-- `send_read`: the read buffer goes with its first `length` bytes, or keeps its storage. -/
def sendRead (n : NativePort) (length : ℕ) (pc : Pc) : NativePort × List Output :=
  let (event, readBuffer) := CallbackEvent.ofRead n.reactor.readBuffer length
  { n with reactor := { n.reactor with readBuffer := readBuffer } }.sendAnd event (goto · pc)

/-- `operation`: the fields a control operation answers with. -/
def operationEvent (command : Command) (status : DeviceStatus) : NativeEvent :=
  let event := NativeEvent.new command.id .ok
  match command.operation with
  | .getBaudRate => { event with baudRate := some status.baudRate }
  | .get => { event with cts := some status.cts, dsr := some status.dsr, dcd := some status.dcd }
  | _ => event

def disconnected : IoError := ⟨.brokenPipe, "Serial device disconnected", none⟩

/-- The loop over the queued commands, at its head. -/
def stepCommands (n : NativePort) : NativePort :=
  match n.reactor.commands with
  | [] => { n with reactor := n.reactor.toSelect }
  | command :: _ =>
    if n.stop then n.finish (.ok ())
    else
      match command.operation with
      | .write data =>
        if n.reactor.written < data.length then { n with reactor := n.reactor.toSelect }
        else { n with reactor := { n.reactor with written := 0, pc := .complete (NativeEvent.new command.id .ok) } }
      | _ => n.goto .execute

/-- A command arrives. -/
def stepReceived (n : NativePort) : Option NativePort :=
  match n.channel with
  | [] => none
  | command :: channel =>
    let n := { n with channel := channel }
    let r := n.reactor
    match command.operation with
    | .read length =>
      if r.read.isSome || r.streaming then
        some (n.goto (.reply (NativeEvent.error command.id ⟨.resourceBusy, "Read already pending", none⟩)))
      else some { n with reactor := { r with read := some (command.id, length), pc := .top } }
    | .readCredit bytes slots =>
      let window := { r.window with bytes := r.window.bytes + bytes, slots := r.window.slots + slots }
      if r.read.isSome || chunkSize < window.bytes || readSlots < window.slots then
        some ({ n with reactor := { r with window := window } }.finish
          (.error ⟨.invalidInput, "Invalid read credit", none⟩))
      else some { n with reactor := { r with window := window, streaming := true, pc := .top } }
    | _ => some { n with reactor := { r with commands := r.commands ++ [command], pc := .top } }

/-- The read side of a transfer that took place. -/
def stepRead (n : NativePort) (capacity : ℕ) (data : Buffer) : NativePort × List Output :=
  let r := n.reactor
  if data = [] then (n.finish (.error disconnected), [])
  else
    let r := { r with readBuffer := r.fill data, window := { r.window with
      size := nextSize r.window.size capacity data.length } }
    if r.streaming then
      ({ n with reactor := { r with
          window := r.charge data.length, pc := .filled data.length (data.length = capacity) } }, [.readData data])
    else
      match r.read with
      | none =>
        ({ n with reactor := r }.finish (.error ⟨.other, "Unexpected read completion", none⟩), [.readData data])
      | some (id, _) =>
        ({ n with reactor := { r with
            read := none
            readBuffer := []
            pc := .reply { NativeEvent.new id .read with data := some (r.readBuffer.take data.length) } } },
          [.readData data])

/-- A poll of the device, once a read or a write is offered. -/
def stepTransfer (n : NativePort) (reader : Io Buffer) (writer : Io ℕ) : Option (NativePort × List Output) :=
  let r := n.reactor
  let write := r.write
  let capacity := r.readCapacity
  if write = none ∧ capacity = none then none
  else
    let ((result, _), transfers) := r.transfers.poll capacity write reader writer
    let n := { n with reactor := { r with transfers := transfers } }
    match result with
    | .pending => some (n, [])
    | .error error => some (n.finish (.error error), [])
    | .ready (.read data) =>
      if data.length ≤ capacity.getD 0 then some (n.stepRead (capacity.getD 0) data) else none
    | .ready (.write count) =>
      if count ≤ (write.getD []).length then
        if count = 0 then some (n.finish (.error disconnected), [])
        else
          some ({ n with reactor := { n.reactor with written := n.reactor.written + count, pc := .top } },
            [.wrote ((write.getD []).take count)])
      else none

/-- Whether the burst goes on. -/
def burstGoesOn (n : NativePort) (left : ℕ) : Bool :=
  0 < left && !n.stop && n.pendingOps == 0 && 0 < n.reactor.window.bytes && 0 < n.reactor.window.slots

/-- One follow-up read. -/
def stepBurst (n : NativePort) (left : ℕ) (first : Option Buffer) (batch : List Buffer) (result : Except IoError Buffer) :
    Option (NativePort × List Output) :=
  let r := n.reactor
  let capacity := min r.window.bytes r.window.size
  let r := { r with readBuffer := Reactor.resize r.readBuffer capacity }
  let n := { n with reactor := r }
  match result with
  | .error error =>
    if error.kind = .wouldBlock ∨ error.kind = .interrupted then some (n.goto (.publish (.ok ()) first batch), [])
    else some (n.goto (.publish (.error error) first batch), [])
  | .ok data =>
    if data.length ≤ capacity then
      if data = [] then some (n.goto (.publish (.error disconnected) first batch), [])
      else
        let (first, batch) := collect first batch ((r.fill data).take data.length)
        some ({ n with reactor := { r with
          readBuffer := []
          window := { bytes := r.window.bytes - data.length, slots := r.window.slots - 1
                      size := nextSize r.window.size capacity data.length }
          pc := .burst (left - 1) first batch } }, [.readData data])
    else none

/-- What a burst ends in, once its reads were handed over. -/
def afterBurst (collected : Except IoError Unit) (n : NativePort) : NativePort :=
  match collected with
  | .ok () => n.goto .top
  | .error error => n.finish (.error error)

/-- After the mutex is released. -/
def stepPublish (n : NativePort) (collected : Except IoError Unit) (first : Option Buffer) (batch : List Buffer) :
    NativePort × List Output :=
  match first with
  | some data => n.sendAnd (.read data) (afterBurst collected)
  | none =>
    if batch = [] then (afterBurst collected n, []) else n.sendAnd (.readBatch batch) (afterBurst collected)

/-- The close event of `Completion::drop`. -/
def closeEvent : Except IoError Unit → NativeEvent
  | .ok () => NativeEvent.new 0 .closed
  | .error error => NativeEvent.withError (NativeEvent.new 0 .closed) error

/-- One step of the reactor. -/
def stepReactor (n : NativePort) (input : ReactorInput) : Option (NativePort × List Output) :=
  match n.reactor.pc, input with
  | .opening, .opened (.ok ()) => some ({ n with session := true }.goto .opened, [])
  | .opening, .opened (.error error) => some (n.goto (.done (.error error)), [])
  | .opened, .run =>
    if n.stop then some (n.goto (.done (.ok ())), [])
    else
      match n.send (.event (NativeEvent.new 0 .opened)) with
      | (some n, outputs) => some (n.goto .top, outputs)
      | (none, outputs) => some (n.goto (.done (.ok ())), outputs)
  | .top, .run =>
    if n.stop then some (n.finish (.ok ()), [])
    else some ({ n with reactor := { n.reactor with isDraining := false, pc := .commands } }, [])
  | .commands, .run => some (n.stepCommands, [])
  | .execute, .bytesToWrite result =>
    match n.reactor.commands with
    | ⟨_, .drain⟩ :: _ =>
      match result with
      | .error error => some (n.finish (.error error), [])
      | .ok count =>
        if count ≠ 0 then some ({ n with reactor := { n.reactor with isDraining := true }.toSelect }, [])
        else some (n.goto .draining, [])
    | _ => none
  | .execute, .executed result =>
    match n.reactor.commands with
    | [] | ⟨_, .drain⟩ :: _ => none
    | command :: _ =>
      match result with
      | .ok status => some (n.goto (.complete (operationEvent command status)), [.executed command])
      | .error error => some (n.goto (.complete (NativeEvent.error command.id error)), [.executed command])
  | .draining, .drained result =>
    match n.reactor.commands with
    | [] => none
    | command :: _ =>
      match result with
      | .ok () => some (n.goto (.complete (NativeEvent.new command.id .ok)), [.executed command])
      | .error error => some (n.goto (.complete (NativeEvent.error command.id error)), [.executed command])
  | .complete event, .run =>
    some ({ n with
      pendingOps := n.pendingOps - 1
      reactor := { n.reactor with commands := n.reactor.commands.tail, pc := .notify event } }, [])
  | .notify event, .run => some (n.sendAnd (.event event) (·.goto .commands))
  | .reply event, .run => some (n.sendAnd (.event event) (·.goto .top))
  | .select, .notified => some (n.goto .top, [])
  | .select, .received => n.stepReceived.map (·, [])
  | .select, .disconnected => if n.stop then some (n.finish (.ok ()), []) else none
  | .select, .transfer reader writer => n.stepTransfer reader writer
  | .select, .timer => if n.reactor.isDraining then some (n.goto .top, []) else none
  | .filled length full, .run =>
    if n.reactor.write.isSome || (!full && length < 1024) || n.pendingOps != 0 then some (n.goto (.single length), [])
    else some (n.goto (.first length), [])
  | .single length, .run => some (n.sendRead length .top)
  | .first length, .run =>
    some (n.sendRead length (if n.reactor.window.bytes = 0 ∨ n.reactor.window.slots = 0 then .top
      else .burst (readBurstLimit - 1) none []))
  | .burst left first batch, .run =>
    if n.burstGoesOn left then none else some (n.goto (.publish (.ok ()) first batch), [])
  | .burst left first batch, .noBudget =>
    if n.burstGoesOn left then some (n.goto (.publish (.ok ()) first batch), []) else none
  | .burst left first batch, .tryRead result =>
    if n.burstGoesOn left then n.stepBurst left first batch result else none
  | .publish collected first batch, .run => some (n.stepPublish collected first batch)
  | .done result, .run => some ({ n with stop := true }.goto (.stopped result), [])
  | .stopped result, .run => some ({ n with session := false }.goto (.released result), [])
  | .released result, .run =>
    match n.send (.event (closeEvent result)) with
    | (some n, outputs) => some (n.goto .reported, outputs)
    | (none, outputs) => some (n.goto .reported, outputs)
  | .reported, .run => some ({ n with receiving := false }.goto .closed, [])
  | _, _ => none

/-! ### The calls of `NativePort` -/

def closedError : SerialError := { message := "Port is closed" }
def transferSizeError : SerialError := { message := "Invalid transfer size" }

/-- Whether the reactor holds the mutex over several steps. -/
def locked (n : NativePort) : Bool :=
  match n.reactor.pc with
  | .draining | .burst .. => true
  | _ => false

/-- The checks at the start of a call. -/
def checkCall (n : NativePort) (call : NativeCall) : Call :=
  match call with
  | .read id length =>
    if 0 < length ∧ length ≤ chunkSize then .enqueue ⟨id, .read length.toNat⟩ else .returned (.thrown transferSizeError)
  | .readCredit bytes slots =>
    if 0 < bytes ∧ bytes ≤ chunkSize ∧ 0 < slots ∧ slots ≤ readSlots then
      .enqueue ⟨0, .readCredit bytes.toNat slots.toNat⟩
    else .returned (.thrown { message := "Invalid read credit" })
  | .write id data inline =>
    if chunkSize < data.length then .returned (.thrown transferSizeError)
    else if n.stop then .returned (.thrown closedError)
    else .ready id data inline
  | .writev id buffers length inline =>
    if n.stop then .returned (.thrown closedError)
    else if length ≤ chunkSize ∧ buffers.length ≤ 1024 ∧ buffers.flatten.length ≤ chunkSize then
      .recheck id buffers.flatten inline
    else .returned (.thrown transferSizeError)
  | .request id operation value =>
    .enqueue ⟨id, match operation with
      | .update => .update value
      | .set => .set value
      | .get => .get
      | .getBaudRate => .getBaudRate
      | .flush => .flush
      | .drain => .drain⟩

/-- One step of a call; `writer` is what the device answers to `try_write`. -/
def stepCall (n : NativePort) (call : Call) (writer : Io ℕ) : Option (NativePort × List Output) :=
  let next (call : Call) : NativePort := { n with call := some call }
  match call with
  | .check call => some (next (n.checkCall call), [])
  | .recheck id data inline =>
    if n.stop then some (next (.returned (.thrown closedError)), []) else some (next (.ready id data inline), [])
  | .ready id data inline =>
    if inline ∧ n.pendingOps = 0 then some (next (.tryWrite id data), [])
    else some (next (.enqueue ⟨id, .write data⟩), [])
  | .tryWrite id data =>
    if n.locked ∨ n.session = false then some (next (.enqueue ⟨id, .write data⟩), [])
    else
      match writer with
      | .ready count =>
        if count < data.length then some (next (.enqueue ⟨id, .write (data.drop count)⟩), [.wrote (data.take count)])
        else if count = data.length then some (next (.returned .completed), [.wrote data])
        else none
      | _ => some (next (.enqueue ⟨id, .write data⟩), [])
  | .enqueue command =>
    if n.stop then some (next (.returned (.thrown closedError)), [])
    else if command.ordered then some (next (.reserve command), [])
    else some (next (.send command), [])
  | .reserve command =>
    let pending := n.pendingOps
    let n := { n with pendingOps := pending + 1 }
    if maxPendingOps ≤ pending then
      some ({ n with call := some (.undo { message := "Too many pending serial operations" }) }, [])
    else some ({ n with call := some (.send command) }, [])
  | .send command =>
    let failed (error : SerialError) : NativePort :=
      next (if command.ordered then .undo error else .returned (.thrown error))
    if !n.receiving then some (failed { message := "channel closed" }, [])
    else if maxPendingOps + readSlots ≤ n.channel.length then some (failed { message := "no available capacity" }, [])
    else some ({ n with channel := n.channel ++ [command], call := some (.returned .queued) }, [])
  | .undo error => some ({ n with pendingOps := n.pendingOps - 1, call := some (.returned (.thrown error)) }, [])
  | .returned _ => none

/-! ### The machine -/

def step (n : NativePort) : Input → Option (NativePort × List Output)
  | .call call => if n.call.isNone then some ({ n with call := some (.check call) }, []) else none
  | .advance writer =>
    match n.call with
    | none => none
    | some call => n.stepCall call writer
  | .returns =>
    match n.call with
    | some (.returned answer) => some ({ n with call := none }, [.answered answer])
    | _ => none
  | .reactor input => n.stepReactor input
  | .stop => some ({ n with stop := true }, [])
  | .teardown => some ({ n with teardown := true }, [])
  | .consume =>
    match n.callbacks with
    | [] => none
    | event :: callbacks => some ({ n with callbacks := callbacks }, [.consumed event])

end NativePort

def native : Machine NativePort Input Output := ⟨NativePort.step⟩

end NodeSerialport.Native
