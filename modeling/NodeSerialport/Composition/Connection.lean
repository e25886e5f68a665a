import NodeSerialport.Binding.Healthy
import NodeSerialport.Stream.Attached
/-!
# A stream over its ports

`SerialPortStream` over `BindingPort`.  Both run on the JavaScript thread: a call of the stream runs a method of the port
until that waits or calls the native handle, a port calls the hooks of the stream, and a promise of a port settles the one
the stream made of it.  The native side may do anything.

* `Connection` — the stream, the ports it opened one after the other, and the calls between them;
* `Connection.Input` — what can happen next;
* `Connection.step`, `connection` — the machine;
* `Connection.Input.fails`, `Connection.crowded` — a failure of the native layer; a part of a write that finds the port
  full.
-/

namespace NodeSerialport.Composition

open Lib (Machine)
open Binding (Client Method NativeEvent SerialError ControlOperation Settlement)
open NodeSerialport.Stream (SerialPortStream Features Promise Result)

/-! ### Calls and promises -/

/-- The optional methods `BindingPort` has. -/
def bindingFeatures : Features := { startReading := true, readChunk := true, writev := true }

/-- A promise of a port that has not settled, and the promise the stream made of it. -/
structure Call where
  promise : Promise
  port : ℕ
  method : ℕ
  deriving DecidableEq, Repr

/-- The method of a control call; `update` and `set` check their argument first. -/
def controlMethod (argument : Settlement ℕ) : ControlOperation → Settlement Method
  | .drain => .ok .drain
  | .update => argument.map (.control .update)
  | .set => argument.map (.control .set)
  | operation => .ok (.control operation 0)

/-- The promise is made of what the call returns. -/
def waitsFor (output : Stream.Output) : Promise → Bool
  | .closing port _ => output = .close port
  | .writing _ write =>
    match output with
    | .write _ write' _ | .writev _ write' _ => write = write'
    | _ => false
  | .reading port length => output = .readChunk port length
  | .operating port operation baudRate _ => output = .operation port operation baudRate
  | _ => false

/-- The promise of a call that is made now.  A canceled open registers its own once the call has returned. -/
def promised (s : SerialPortStream) (output : Stream.Output) : Option Promise :=
  match s.todo with
  | .outside (.canceling port cb) :: _ => some (.canceling port cb)
  | _ => s.promises.reverse.find? (waitsFor output)

/-- How the promise of the stream settles. -/
def settlement (promise : Promise) : Settlement (Option NativeEvent) → Result
  | .error error => .rejected (.error error)
  | .ok event =>
    match promise with
    | .reading _ _ => .data ((event.bind NativeEvent.data).getD [])
    | _ => .done

/-! ### What a port tells -/

/-- What a method returned. -/
def returned? (method : ℕ) : Binding.Output → Option (Settlement (Option NativeEvent))
  | .returned m result => if m = method then some result else none
  | _ => none

def threw? : Binding.Output → Option SerialError
  | .threw error => some error
  | _ => none

/-- What the calls of the port number `port` come to. -/
def Call.result? (call : Call) (port : ℕ) (out : List Binding.Output) : Option (Settlement (Option NativeEvent)) :=
  if call.port = port then out.findSome? (returned? call.method) else none

/-- The hooks. -/
def hear (port : ℕ) (s : SerialPortStream) : Binding.Output → SerialPortStream
  | .data data => s.onData port data
  | .onClose error => s.onClose port (error.map .error)
  | _ => s

/-! ### The machine -/

structure Connection where
  stream : SerialPortStream
  path : String
  ports : List Client := []
  calls : List Call := []
  /-- The promises whose port has settled its own, and how. -/
  answers : List (Promise × Settlement (Option NativeEvent)) := []
  /-- The exception of `startReading`, until the stream catches it. -/
  threw : Option SerialError := none

namespace Connection

inductive Input where
  /-- The stream goes on; `argument` is what the checks of `update` or `set` make of their argument. -/
  | stream (input : Stream.Input) (argument : Settlement ℕ)
  /-- A port goes on: the native layer answers or calls back, or a microtask of the port runs. -/
  | port (port : ℕ) (input : Binding.Input)

def new (path : String) (endOnClose : Bool) (highWaterMark : ℕ) (baudRate : Option ℕ) : Connection :=
  { stream := .new (fun _ => bindingFeatures) endOnClose highWaterMark baudRate, path := path }

/-- A call of the native handle has not returned. -/
def running (s : Connection) : Bool := s.ports.any (·.calling.isSome)

/-- No JavaScript runs. -/
def quiet (s : Connection) : Bool := s.ports.all Client.idle && s.stream.todo = []

/-- A promise of the stream may settle so. -/
def settles (s : Connection) (promise : Promise) (result : Result) : Bool :=
  match promise with
  | .opening _ =>
    -- `binding.open()` returned the promise `opened` of the last port
    match s.ports.getLast?.bind (·.port.opened) with
    | some (.ok ()) => result = .port (s.ports.length - 1) (s.ports.getLast?.any (·.port.isOpen))
    | some (.error error) => result = .rejected (.error error)
    | none => false
  | .reporting _ => true
  | promise => s.answers.any fun answer => answer.1 = promise && settlement promise answer.2 = result

/-- What the stream may do next.  The hooks are called by the ports, and the methods of a port throw nothing, but for
`startReading`. -/
def admits (s : Connection) : Stream.Input → Bool
  | .enter (.onClose _ _ _) | .enter (.onData _ _) | .isOpen _ _ => false
  | .enter _ => !s.running && (s.stream.todo ≠ [] || s.quiet)
  | .returns => !s.running && s.threw.isNone
  | .throws reason =>
    !s.running && match s.stream.todo with
      | .outside .listener :: _ => true
      | .outside (.startReading _ _) :: _ => s.threw.any fun error => reason = .error error
      | _ => false
  | .proceed => !s.running
  | .settle index result => s.quiet && s.stream.promises[index]?.any fun promise => s.settles promise result
  | .tick => s.quiet

/-- What a port may do next: its listener returns once the stream is done, and callbacks and microtasks wait for all
that runs. -/
def turns (s : Connection) : Binding.Input → Bool
  | .invoke _ => false
  | .answer _ => true
  | .returns | .throws => s.stream.todo = []
  | .callback _ | .microtask | .resume _ => s.quiet

/-- What is used up by a step of the stream. -/
def spent (s : Connection) : Stream.Input → Connection
  | .throws _ => { s with threw := none }
  | .settle index result =>
    match s.stream.promises[index]? with
    | some promise =>
      { s with answers := s.answers.eraseP fun answer => answer.1 = promise && settlement promise answer.2 = result }
    | none => s
  | _ => s

/-- The method a call of the stream runs, and the number of its port. -/
def target (s : Connection) (argument : Settlement ℕ) : Stream.Output → Option (ℕ × Settlement Method)
  | .bindingCancel => some (s.ports.length - 1, .ok .cancelOpen)
  | .close port => some (port, .ok .close)
  | .startReading port length => some (port, .ok (.startReading length))
  | .readChunk port length => some (port, .ok (.readChunk length))
  | .write port _ data => some (port, .ok (.write (.ofBytes data)))
  | .writev port _ chunks => some (port, .ok (.writev (chunks.map .ofBytes)))
  | .operation port operation _ => some (port, controlMethod argument operation)
  | _ => none

/-- A port has taken a step. -/
def receive (s : Connection) (port : ℕ) (c : Client) (out : List Binding.Output) : Connection :=
  { s with
    ports := s.ports.set port c
    stream := out.foldl (hear port) (s.stream.setOpen port c.port.isOpen)
    calls := s.calls.filter fun call => (call.result? port out).isNone
    answers := s.answers ++ s.calls.filterMap fun call => (call.result? port out).map (call.promise, ·)
    threw := (out.findSome? threw?).or s.threw }

/-- The promise of a call is noted. -/
def link (s : Connection) (output : Stream.Output) (port method : ℕ) : Connection :=
  { s with calls := s.calls ++ (promised s.stream output).toList.map (⟨·, port, method⟩) }

/-- The stream makes a call. -/
def call (s : Connection) (argument : Settlement ℕ) (output : Stream.Output) : Option Connection :=
  match output with
  | .bindingOpen => some { s with ports := s.ports ++ [Client.new s.path 1] }
  | output =>
    match s.target argument output with
    | none => some s
    | some (_, .error error) =>
      some { s with answers := s.answers ++ (promised s.stream output).toList.map (·, .error error) }
    | some (port, .ok m) =>
      match s.ports[port]? with
      | none => none
      | some c =>
        match c.step (.invoke m) with
        | none => none
        | some (c', out) => some ((s.link output port c.promises).receive port c' out)

def step (s : Connection) : Input → Option (Connection × List Stream.Output)
  | .stream input argument =>
    if s.admits input then
      match s.stream.step input with
      | none => none
      | some (stream, out) => (out.foldlM (call · argument) { s.spent input with stream := stream }).map (·, out)
    else none
  | .port port input =>
    if s.turns input then
      match s.ports[port]? with
      | none => none
      | some c =>
        match c.step input with
        | none => none
        | some (c', out) => some (s.receive port c' out, [])
    else none

end Connection

def connection : Machine Connection Connection.Input Stream.Output := ⟨Connection.step⟩

/-! ### Failures and load -/

namespace Connection

/-- **The native layer reports a failure.** -/
def Input.fails : Input → Bool
  | .port _ input => input.fails
  | .stream _ _ => false

/-- The application closes or destroys the stream. -/
def Input.closes : Input → Bool
  | .stream (.enter (.close _)) _ | .stream (.enter (.destroy _)) _ => true
  | _ => false

/-- The method of a port that the next call of the stream runs. -/
def invokes (s : Connection) (argument : Settlement ℕ) : Option (ℕ × Method) :=
  match s.stream.todo with
  | .call output _ :: _ =>
    match s.target argument output with
    | some (port, .ok m) => some (port, m)
    | _ => none
  | _ => none

/-- A step of a port submits a part of a write, and 64 operations are pending. -/
def full (s : Connection) (port : ℕ) (input : Binding.Input) : Bool :=
  s.ports[port]?.any fun c => c.asks input && 64 ≤ c.port.pending.length

/-- **A part of a write finds the port full**: as the stream hands the write over, or as its loop goes on. -/
def crowded (s : Connection) : Input → Bool
  | .stream .proceed argument => (s.invokes argument).any fun (port, m) => s.full port (.invoke m)
  | .port port input => s.full port input
  | _ => false

end Connection

end NodeSerialport.Composition
