import NodeSerialport.Lib.Machine
import NodeSerialport.Binding.Port
/-!
# `SerialPortStream`

The duplex stream over a binding (`ts/lib/stream.ts`), step by step.  JavaScript runs one thing at a time, but every
call the stream makes lets other code run before it returns: a call of the binding may call the hooks of its ports,
a listener or a callback may call any method of the stream, and Node may ask for a read or hand over a write.

* `SerialPortStream` — the fields of the class, with `destroyed` and the write in progress of Node's `Duplex`;
* `Task` — the rest of the functions that are running: a call to be made, a call that has not returned, code;
* `Promise` — what is registered on a promise of the binding that has not settled;
* `Entry` — the methods and hooks that are called from outside; `Input` — one thing that can happen next;
* `SerialPortStream.step`, `stream` — the machine.
-/

namespace NodeSerialport.Stream

open Parsers (Buffer)
open Binding (SerialError ControlOperation)
open Lib (Machine)

/-! ### What passes between the stream and the others -/

/-- What a rejected promise or an exception carries. -/
inductive Thrown where
  | error (error : SerialError)
  /-- Any value that is not an `Error`. -/
  | other
  deriving DecidableEq, Repr

def asError : Thrown → SerialError
  | .error error => error
  | .other => { message := "Serial binding operation failed" }

/-- `new DisconnectedError(error.message, { cause: error })`. -/
def disconnectedError (error : SerialError) : SerialError := { message := error.message, disconnected := true }

/-- `Object.assign(new Error('Port opening canceled'), { canceled: true })`. -/
def openingCanceled : SerialError := { message := "Port opening canceled", canceled := true }

/-- Which optional methods a port of the binding has. -/
structure Features where
  startReading : Bool := false
  readChunk : Bool := false
  writev : Bool := false
  deriving DecidableEq, Repr

/-- A callback of the application, or the closure `_destroy` gives to `close`. -/
inductive Callback where
  | user (id : ℕ)
  | destroy (error : Option SerialError)
  deriving DecidableEq, Repr

/-- What the stream does that others see.  Ports, writes and callbacks are numbered. -/
inductive Output where
  | bindingOpen
  /-- `_opening.cancel?.()`. -/
  | bindingCancel
  | close (port : ℕ)
  | startReading (port length : ℕ)
  | readChunk (port length : ℕ)
  | read (port length : ℕ)
  | write (port write : ℕ) (data : Buffer)
  | writev (port write : ℕ) (chunks : List Buffer)
  | operation (port : ℕ) (operation : ControlOperation) (baudRate : Option ℕ)
  /-- `emit('open')`. -/
  | emitOpen
  /-- `emit('close', error)`, for the port that was closed, if there was one. -/
  | emitClose (port : Option ℕ) (error : Option SerialError)
  /-- `emit('end')`, `emit('error', error)`. -/
  | emitEnd
  | emitError (error : SerialError)
  | called (callback : ℕ) (error : Option SerialError)
  /-- The callback Node gave to `_destroy`. -/
  | destroyed (error : Option SerialError)
  /-- The callback Node gave to `_write` or `_writev`. -/
  | written (write : ℕ) (error : Option SerialError)
  /-- `push(data)`, or `push(null)`. -/
  | push (data : Option Buffer)
  /-- Node hands over a write. -/
  | handed (write : ℕ) (data : Buffer)
  /-- `_destroy` has run, but for the calls it ends with. -/
  | torn
  deriving DecidableEq, Repr

/-- The end of a write, after which Node may hand over the next one. -/
def Output.ends : Output → Bool
  | .written _ _ => true
  | _ => false

/-- What becomes of the result, or of the exception, of a call. -/
inductive Kind where
  /-- An exception ends the functions that are running. -/
  | listener
  /-- `bindingCall` makes an exception a rejected promise. -/
  | binding
  /-- `_opening = bindingCall(..)`. -/
  | opening
  /-- The `catch` around `startReading`. -/
  | startReading (port length : ℕ)
  /-- `await port.close()` in a canceled open, inside its `try`. -/
  | canceling (port : ℕ) (callback : Option Callback)
  deriving DecidableEq, Repr

/-- The rest of the functions that are running. -/
inductive Task where
  /-- A call is to be made. -/
  | call (output : Output) (kind : Kind)
  /-- A call has not returned. -/
  | outside (kind : Kind)
  /-- `_resumeIO`. -/
  | resume
  /-- `_resumeIO` behind its write. -/
  | resumeRead
  /-- A canceled open, behind `_failWaitingWrite`. -/
  | cancelOpen (port : ℕ) (callback : Option Callback)
  /-- A failed open, behind `_failWaitingWrite`. -/
  | openFailed (error : SerialError) (callback : Option Callback)
  /-- `_destroy` behind `_failWaitingWrite`. -/
  | destroy (error : Option SerialError)
  /-- The `catch` behind both continuations of an open. -/
  | catchOpen
  deriving DecidableEq, Repr

def Task.catches : Task → Bool
  | .outside _ | .catchOpen => true
  | _ => false

/-- No function of the stream runs, or the one that runs waits for a call to return. -/
def Task.waiting : List Task → Bool
  | [] | .outside _ :: _ => true
  | _ => false

/-- What is registered on a promise that has not settled. -/
inductive Promise where
  | opening (callback : Option Callback)
  | closing (port : ℕ) (disconnectError : Option SerialError)
  | canceling (port : ℕ) (callback : Option Callback)
  | writing (port write : ℕ)
  | reading (port length : ℕ)
  | operating (port : ℕ) (operation : ControlOperation) (baudRate : Option ℕ) (callback : Option Callback)
  /-- The exception of a continuation of an open, to be reported. -/
  | reporting (reason : Thrown)
  deriving DecidableEq, Repr

/-- How a promise settles. -/
inductive Result where
  | rejected (reason : Thrown)
  | done
  /-- `open()`: a port, and its `isOpen`. -/
  | port (port : ℕ) (isOpen : Bool)
  /-- `readChunk()`. -/
  | data (data : Buffer)
  /-- `read()`: `bytesRead`, if that is an integer, and what the buffer holds. -/
  | bytesRead (bytesRead : Option ℤ) (buffer : Buffer)
  deriving DecidableEq, Repr

structure SerialPortStream where
  /-- The optional methods of the ports. -/
  features : ℕ → Features
  endOnClose : Bool := false
  highWaterMark : ℕ := 64 * 1024
  baudRate : Option ℕ := none
  opening : Bool := false
  closing : Bool := false
  port : Option ℕ := none
  _readRequested : Bool := false
  _readPort : Option ℕ := none
  _waitingWrite : Option (ℕ × Buffer) := none
  _closeCallbacks : List Callback := []
  _closeError : Option SerialError := none
  /-- Whether `_opening` holds the promise. -/
  _opening : Bool := false
  destroyed : Bool := false
  /-- Node waits for the callback of this write, and hands over no other until then. -/
  writing : Option ℕ := none
  writes : ℕ := 0
  /-- `isOpen` of the ports. -/
  ports : ℕ → Bool := fun _ => false
  promises : List Promise := []
  /-- What `_asyncError` reports in later ticks. -/
  ticks : List (String × Option Callback) := []
  todo : List Task := []

namespace SerialPortStream

def isOpen (s : SerialPortStream) : Bool := s.port.any s.ports && !s.closing

/-- `this.port`, where `this.isOpen`. -/
def openPort (s : SerialPortStream) : Option ℕ := if s.isOpen then s.port else none

/-! ### Running -/

/-- Run tasks before what is left to do. -/
def first (s : SerialPortStream) (tasks : List Task) : SerialPortStream := { s with todo := tasks ++ s.todo }

def await (s : SerialPortStream) (promise : Promise) : SerialPortStream := { s with promises := s.promises ++ [promise] }

/-- Calling a callback; the closure of `_destroy` is `closeError => callback(error || closeError)`. -/
def callback (error : Option SerialError) : Callback → Task
  | .user id => .call (.called id error) .listener
  | .destroy cause => .call (.destroyed (cause.or error)) .listener

def setOpen (s : SerialPortStream) (port : ℕ) (value : Bool) : SerialPortStream :=
  { s with ports := fun other => if other = port then value else s.ports other }

/-- An exception: nothing more runs up to the call from outside, or the `catch` of an open. -/
def throw (s : SerialPortStream) (reason : Thrown) : SerialPortStream :=
  match s.todo.dropWhile fun task => !task.catches with
  | .catchOpen :: rest => { s with todo := rest }.await (.reporting reason)
  | rest => { s with todo := rest }

/-! ### Errors -/

def _report (s : SerialPortStream) (error : SerialError) (cb : Option Callback) : SerialPortStream :=
  match cb with
  | some cb => s.first [callback (some error) cb]
  | none => s.first [.call (.emitError error) .listener]

def _asyncError (s : SerialPortStream) (message : String) (cb : Option Callback) : SerialPortStream :=
  { s with ticks := s.ticks ++ [(message, cb)] }

/-! ### Closing -/

/-- `emit('close', error)` and what follows it. -/
def closeCalls (s : SerialPortStream) (error : Option SerialError) : List Task :=
  [.call (.emitClose s.port error) .listener] ++ (if s.endOnClose then [.call .emitEnd .listener] else []) ++
    s._closeCallbacks.map (callback error)

def _finishClose (s : SerialPortStream) (error : Option SerialError) : SerialPortStream :=
  if s.port.isNone && !s.closing then s
  else
    { s with
      _closeError := none
      port := none
      closing := false
      _readPort := none
      _readRequested := true
      _closeCallbacks := [] }.first (s.closeCalls (s._closeError.or error))

/-- The callbacks of a failed close, or `emit('error', failure)`, and `_resumeIO()`. -/
def failedCalls (s : SerialPortStream) (failure : SerialError) : List Task :=
  (if s._closeCallbacks = [] then [.call (.emitError failure) .listener]
    else s._closeCallbacks.map (callback (some failure))) ++ [.resume]

def _closeFailed (s : SerialPortStream) (port : ℕ) (error : Thrown) : SerialPortStream :=
  if s.port ≠ some port then s
  else if !s.ports port then s._finishClose (some (asError error))
  else
    { s with closing := false, _closeError := none, _closeCallbacks := [] }.first (s.failedCalls (asError error))

def close (s : SerialPortStream) (cb : Option Callback) (disconnectError : Option SerialError) : SerialPortStream :=
  if s.closing then s._asyncError "Port is closing" cb
  else if !s.isOpen && !s.opening then s._asyncError "Port is not open" cb
  else
    let s := { s with
      closing := true
      _closeError := disconnectError
      _closeCallbacks := s._closeCallbacks ++ cb.toList }
    if s.opening then
      -- `_opening` is not set yet while `binding.open()` runs
      if s._opening then s.first [.call .bindingCancel .listener]
      else s.throw (.error { message := "Cannot read properties of undefined (reading 'cancel')" })
    else
      match s.port with
      | none => s
      | some port => (s.await (.closing port disconnectError)).first [.call (.close port) .binding]

/-- The continuation of `port.close()`. -/
def closed (s : SerialPortStream) (port : ℕ) (disconnectError : Option SerialError) : SerialPortStream :=
  if s.port = some port then s._finishClose disconnectError else s

/-! ### Opening -/

def «open» (s : SerialPortStream) (cb : Option Callback) : SerialPortStream :=
  if s.destroyed then s._asyncError "Port is destroyed" cb
  else if s.isOpen then s._asyncError "Port is already open" cb
  else if s.opening || s.closing then s._asyncError "Port is opening or closing" cb
  else ({ s with opening := true }.await (.opening cb)).first [.call .bindingOpen .opening]

def _failWaitingWrite (s : SerialPortStream) (error : SerialError) : SerialPortStream :=
  match s._waitingWrite with
  | none => s
  | some (write, _) => { s with _waitingWrite := none }.first [.call (.written write (some error)) .listener]

/-- `open()` of the binding resolved. -/
def opened (s : SerialPortStream) (port : ℕ) (isOpen : Bool) (cb : Option Callback) : SerialPortStream :=
  let s := { s with _opening := false, opening := false, port := some port }.setOpen port isOpen
  if s.closing then (s.first [.cancelOpen port cb, .catchOpen])._failWaitingWrite openingCanceled
  else s.first (.call .emitOpen .listener :: (cb.toList.map (callback none) ++ [.resume, .catchOpen]))

/-- A canceled open, behind its `port.close()`. -/
def canceled (s : SerialPortStream) (port : ℕ) (cb : Option Callback) (closeError : Option Thrown) : SerialPortStream :=
  let s := s.first (cb.toList.map (callback (some openingCanceled)))
  match closeError with
  | some error => s._closeFailed port error
  | none => if s.port = some port then s._finishClose none else s

/-- `open()` of the binding was rejected. -/
def rejected (s : SerialPortStream) (reason : Thrown) (cb : Option Callback) : SerialPortStream :=
  ({ s with _opening := false, opening := false }.first
    [.openFailed (asError reason) cb, .catchOpen])._failWaitingWrite (asError reason)

def openFailed (s : SerialPortStream) (error : SerialError) (cb : Option Callback) : SerialPortStream :=
  if s.closing then (s.first (cb.toList.map (callback (some error))))._finishClose none else s._report error cb

/-! ### Writes -/

def _write (s : SerialPortStream) (write : ℕ) (data : Buffer) : SerialPortStream :=
  match s.openPort with
  | none => { s with _waitingWrite := some (write, data) }
  | some port => (s.await (.writing port write)).first [.call (.write port write data) .binding]

def _writev (s : SerialPortStream) (write : ℕ) (chunks : List Buffer) : SerialPortStream :=
  match s.openPort with
  | none => s._write write chunks.flatten
  | some port =>
    if !(s.features port).writev then s._write write chunks.flatten
    else (s.await (.writing port write)).first [.call (.writev port write chunks) .binding]

def _writeError (s : SerialPortStream) (port write : ℕ) (error : Thrown) : SerialPortStream :=
  let failure := asError error
  let s := s.first [.call (.written write (some failure)) .listener]
  if !failure.canceled && s.port = some port && s.isOpen then s.close none (some (disconnectedError failure)) else s

/-! ### Reads -/

def _read (s : SerialPortStream) (length : ℕ) : SerialPortStream :=
  let length := max 1 length
  let s := { s with _readRequested := true }
  match s.openPort with
  | none => s
  | some port =>
    if s._readPort = some port then s
    else if (s.features port).startReading then
      s.first [.call (.startReading port length) (.startReading port length)]
    else
      ({ s with _readPort := some port }.await (.reading port length)).first
        [.call (if (s.features port).readChunk then .readChunk port length else .read port length) .binding]

/-- `if (this._readPort === port) this._readPort = undefined`. -/
def readSettled (s : SerialPortStream) (port : ℕ) : SerialPortStream :=
  if s._readPort = some port then { s with _readPort := none } else s

/-- A read resolved. -/
def received (s : SerialPortStream) (port length : ℕ) (data : Buffer) : SerialPortStream :=
  let s := s.readSettled port
  if s.port = some port ∧ s.isOpen then
    { s with _readRequested := false }.first [.call (.push (if data = [] then none else some data)) .listener]
  else if s.isOpen then s._read length
  else s

def _readError (s : SerialPortStream) (port : ℕ) (error : Thrown) (length : ℕ) : SerialPortStream :=
  let failure := asError error
  let s := s.readSettled port
  if !failure.canceled && s.port = some port && s.isOpen then s.close none (some (disconnectedError failure))
  else if s.isOpen && s.port ≠ some port then s._read length
  else s

def resumeRead (s : SerialPortStream) : SerialPortStream := if s._readRequested then s._read s.highWaterMark else s

def _resumeIO (s : SerialPortStream) : SerialPortStream :=
  if s.destroyed || !s.isOpen then s
  else
    match s._waitingWrite with
    | none => s.resumeRead
    | some (write, data) => ({ s with _waitingWrite := none }.first [.resumeRead])._write write data

/-! ### Operations -/

def _operation (s : SerialPortStream) (operation : ControlOperation) (baudRate : Option ℕ) (cb : Option Callback) :
    SerialPortStream :=
  match s.openPort with
  | none => s._asyncError "Port is not open" cb
  | some port =>
    (s.await (.operating port operation baudRate cb)).first [.call (.operation port operation baudRate) .binding]

/-- An operation resolved; only `update` has something to complete. -/
def operated (s : SerialPortStream) (port : ℕ) (operation : ControlOperation) (baudRate : Option ℕ)
    (cb : Option Callback) : SerialPortStream :=
  let s := if s.port = some port ∧ operation = .update then { s with baudRate := baudRate } else s
  s.first (cb.toList.map (callback none))

/-! ### Destroying -/

def _destroy (s : SerialPortStream) (error : Option SerialError) : SerialPortStream :=
  (s.first [.destroy error])._failWaitingWrite (error.getD { message := "Port is destroyed" })

/-- `_destroy` behind `_failWaitingWrite`. -/
def tearDown (s : SerialPortStream) (error : Option SerialError) : SerialPortStream :=
  if s.closing then { s with _closeCallbacks := s._closeCallbacks ++ [.destroy error] }
  else if s.isOpen || s.opening then s.close (some (.destroy error)) none
  else s.first [callback none (.destroy error)]

/-! ### Hooks of the ports -/

def onClose (s : SerialPortStream) (port : ℕ) (error : Option Thrown) : SerialPortStream :=
  if s.port ≠ some port then s
  else
    let reason := error.map fun error => disconnectedError (asError error)
    if s.ports port then s.close none reason else s._finishClose reason

def onData (s : SerialPortStream) (port : ℕ) (data : Buffer) : SerialPortStream :=
  if s.port = some port ∧ s.isOpen then
    { s with _readRequested := false }.first [.call (.push (some data)) .listener]
  else s

end SerialPortStream

/-! ### The machine -/

/-- What is called from outside: methods by the application, `_destroy`, `_read`, `_write` and `_writev` by Node, hooks
by the binding. -/
inductive Entry where
  | «open» (cb : Option ℕ)
  | close (cb : Option ℕ)
  | destroy (error : Option SerialError)
  | operation (operation : ControlOperation) (baudRate : Option ℕ) (cb : Option ℕ)
  | _read (length : ℕ)
  | _write (data : Buffer)
  | _writev (chunks : List Buffer)
  /-- `closed`: the port sets its `isOpen` to false in the same step. -/
  | onClose (port : ℕ) (error : Option Thrown) (closed : Bool)
  | onData (port : ℕ) (data : Buffer)
  deriving DecidableEq, Repr

inductive Input where
  | enter (entry : Entry)
  /-- The call that runs returns, or throws. -/
  | returns
  | throws (reason : Thrown)
  /-- The function that runs goes on. -/
  | proceed
  | settle (promise : ℕ) (result : Result)
  | tick
  /-- A port changes its `isOpen`. -/
  | isOpen (port : ℕ) (value : Bool)
  deriving DecidableEq, Repr

namespace SerialPortStream

def waits (s : SerialPortStream) : Bool := Task.waiting s.todo

/-- Node hands over a write. -/
def hand (s : SerialPortStream) : SerialPortStream := { s with writing := some s.writes, writes := s.writes + 1 }

/-- A call from outside.  Node reads and writes no stream it has destroyed, and writes one thing at a time. -/
def enter (s : SerialPortStream) : Entry → Option (SerialPortStream × List Output)
  | .open cb => some (s.open (cb.map .user), [])
  | .close cb => some (s.close (cb.map .user) none, [])
  | .destroy error => some (if s.destroyed then s else { s with destroyed := true }._destroy error, [])
  | .operation operation baudRate cb => some (s._operation operation baudRate (cb.map .user), [])
  | ._read length => if s.destroyed then none else some (s._read length, [])
  | ._write data =>
    if s.destroyed || s.writing.isSome then none else some (s.hand._write s.writes data, [.handed s.writes data])
  | ._writev chunks =>
    if s.destroyed || s.writing.isSome then none
    else some (s.hand._writev s.writes chunks, [.handed s.writes chunks.flatten])
  | .onClose port error closed => some ((if closed then s.setOpen port false else s).onClose port error, [])
  | .onData port data => some (s.onData port data, [])

/-- A call returned. -/
def returned (s : SerialPortStream) : Kind → SerialPortStream
  | .opening => { s with _opening := true }
  | .canceling port cb => s.await (.canceling port cb)
  | .listener | .binding | .startReading _ _ => s

/-- A call threw an exception. -/
def thrown (s : SerialPortStream) (reason : Thrown) : Kind → SerialPortStream
  | .listener => s.throw reason
  | .binding => s
  | .opening => { s with _opening := true }
  | .startReading port length => s._readError port reason length
  | .canceling port cb => s.canceled port cb (some reason)

/-- The next task, which was taken off the list. -/
def perform (s : SerialPortStream) : Task → Option (SerialPortStream × List Output)
  | .call output kind =>
    -- Node may hand over the next write from inside the callback of the last one
    some ({ s with writing := if output.ends then none else s.writing }.first [.outside kind], [output])
  | .outside _ => none
  | .resume => some ( _resumeIO s, [])
  | .resumeRead => some (s.resumeRead, [])
  | .cancelOpen port cb => some (s.first [.call (.close port) (.canceling port cb)], [])
  | .openFailed error cb => some (s.openFailed error cb, [])
  | .destroy error => some (s.tearDown error, [.torn])
  | .catchOpen => some (s, [])

/-- The data of a read, or the `RangeError`. -/
def readData (length : ℕ) (bytesRead : Option ℤ) (buffer : Buffer) : Except Thrown Buffer :=
  match bytesRead with
  | some count =>
    if count < 0 ∨ length < count then .error (.error { message := "Invalid binding read length" })
    else .ok (buffer.take count.toNat)
  | none => .error (.error { message := "Invalid binding read length" })

/-- The continuation of a promise, which was taken off the list. -/
def settled (s : SerialPortStream) : Promise → Result → Option SerialPortStream
  | .opening cb, .port port isOpen => some (s.opened port isOpen cb)
  | .opening cb, .rejected reason => some (s.rejected reason cb)
  | .closing port disconnectError, .done => some (s.closed port disconnectError)
  | .closing port _, .rejected reason => some (s._closeFailed port reason)
  | .canceling port cb, .done => some ((s.first [.catchOpen]).canceled port cb none)
  | .canceling port cb, .rejected reason => some ((s.first [.catchOpen]).canceled port cb (some reason))
  | .writing _ write, .done => some (s.first [.call (.written write none) .listener])
  | .writing port write, .rejected reason => some (s._writeError port write reason)
  | .reading port length, .data data => if (s.features port).readChunk then some (s.received port length data) else none
  | .reading port length, .bytesRead bytesRead buffer =>
    if !(s.features port).readChunk ∧ buffer.length = length then
      match readData length bytesRead buffer with
      | .ok data => some (s.received port length data)
      | .error error => some (s._readError port error length)
    else none
  | .reading port length, .rejected reason => some (s._readError port reason length)
  | .operating port operation baudRate cb, .done => some (s.operated port operation baudRate cb)
  | .operating _ _ _ cb, .rejected reason => some (s._report (asError reason) cb)
  | .reporting thrown, .rejected reason => if thrown = reason then some (s._report (asError reason) none) else none
  | _, _ => none

def step (s : SerialPortStream) : Input → Option (SerialPortStream × List Output)
  | .enter entry => if s.waits then s.enter entry else none
  | .returns =>
    match s.todo with
    | .outside kind :: rest => some ({ s with todo := rest }.returned kind, [])
    | _ => none
  | .throws reason =>
    match s.todo with
    | .outside kind :: rest => some ({ s with todo := rest }.thrown reason kind, [])
    | _ => none
  | .proceed =>
    match s.todo with
    | task :: rest => { s with todo := rest }.perform task
    | [] => none
  | .settle index result =>
    -- continuations are microtasks
    if s.todo = [] then
      match s.promises[index]? with
      | some promise => ({ s with promises := s.promises.eraseIdx index }.settled promise result).map (·, [])
      | none => none
    else none
  | .tick =>
    if s.todo = [] then
      match s.ticks with
      | (message, cb) :: rest => some ({ s with ticks := rest }._report { message := message } cb, [])
      | [] => none
    else none
  | .isOpen port value => if s.waits then some (s.setOpen port value, []) else none

/-- The present port, which said that it is closed, says that it is open. -/
def Revives (s : SerialPortStream) : Input → Prop
  | .isOpen port value => value = true ∧ s.port = some port ∧ s.ports port = false
  | _ => False

end SerialPortStream

def stream : Machine SerialPortStream Input Output := ⟨SerialPortStream.step⟩

end NodeSerialport.Stream
