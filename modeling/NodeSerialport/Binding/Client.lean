import NodeSerialport.Lib.Machine
import NodeSerialport.Binding.Port
/-!
# The JavaScript side of a port, step by step

JavaScript runs one callback at a time, but the callbacks of one `BindingPort` may come in any order: calls of its
methods (also from inside an `onData` listener), answers of the native handle, native callbacks, the microtasks that
deliver reads, and the rest of an `async` method once its `await` is over.

* `Client` — the port, its read queue, what is scheduled, and the promises it made;
* `Input` — one thing that can happen next; `Output` — what the others see of it;
* `Client.step`, `client` — the machine.
-/

namespace NodeSerialport.Binding

open Parsers (Buffer)
open Lib (Machine)

/-- What one native read callback carries. -/
inductive Item where
  | buffer (data : Buffer)
  | batch (events : List Buffer)
  deriving DecidableEq, Repr

def Item.buffers : Item → List Buffer
  | .buffer data => [data]
  | .batch events => events

/-- The rest of an `async` function after an `await`; `method` is the promise its caller holds. -/
inductive Task where
  /-- `update`, `set`, `get`, `getBaudRate`, `flush`, and `drain` after its request. -/
  | method (method : ℕ)
  | readChunk (method : ℕ)
  /-- `write` and `writev`, waiting for `_writePromise`. -/
  | write (method : ℕ)
  /-- The loop of `writev`, whose promise is `promise`. -/
  | batches (rest : List Batch) (promise : ℕ)
  /-- `drain`, waiting for `_writePromise`. -/
  | drain (method : ℕ)
  | close (method : ℕ)
  deriving Repr

/-- Where a call of the native handle was made, and so what is done with its answer. -/
inductive Site where
  | request (ordered : Bool) (task : Task)
  | write (method : ℕ)
  | credit (bytes slots : ℤ)
  deriving Repr

structure Client where
  port : BindingPort := {}
  pendingRead : Option Item := none
  queuedReads : Option (List Item) := none
  /-- How many microtasks `deliverRead` are scheduled. -/
  microtasks : ℕ := 0
  /-- Inside an `onData` listener: what is left of its batch. -/
  onData : Option (List Buffer) := none
  /-- Inside a call of the native handle. -/
  calling : Option (NativeCall × Site) := none
  tasks : List (Awaited × Task) := []
  /-- The number of promises made; promise 0 is `_closed`. -/
  promises : ℕ := 1
  results : List (ℕ × Settlement (Option NativeEvent)) := []
  deriving Repr

/-- A port that was just constructed, whose ids start anywhere. -/
def Client.new (path : String) (nextId : ℕ) : Client := { port := { path := path, nextId := nextId } }

inductive Method where
  | write (buffer : JsBuffer)
  | writev (buffers : List JsBuffer)
  | control (operation : ControlOperation) (value : ℕ)
  | drain
  | readChunk (length : ℤ)
  | startReading (length : ℤ)
  | close
  | cancelOpen
  deriving Repr

/-- A native callback: a read, an event, or an error in place of a read whose buffers were `lost`. -/
inductive Callback where
  | failed (error : SerialError) (lost : List Buffer)
  | read (item : Item)
  | event (event : NativeEvent)
  deriving Repr

inductive Input where
  | invoke (method : Method)
  | answer (answer : Answer)
  | callback (callback : Callback)
  /-- A scheduled `deliverRead` runs. -/
  | microtask
  /-- An `await` is over. -/
  | resume (task : ℕ)
  /-- The `onData` listener returns, or throws. -/
  | returns
  | throws
  deriving Repr

/-- Why a promise of `_pending` was settled. -/
inductive Cause where
  | event (id : ℕ)
  | close
  deriving DecidableEq, Repr

inductive Output where
  | invoked (method : ℕ)
  | called (call : NativeCall)
  /-- `_native.close()`. -/
  | stopped
  /-- `onData(data)`. -/
  | data (data : Buffer)
  | credited (bytes slots : ℤ)
  | accepted (id promise : ℕ) (ordered : Bool)
  | settled (promise : ℕ) (cause : Cause) (result : Settlement (Option NativeEvent))
  | returned (method : ℕ) (result : Settlement (Option NativeEvent))
  | threw (error : SerialError)
  | opened (result : Settlement Unit)
  | onClose (error : Option SerialError)
  deriving Repr

/-- The id a native call carries; `readCredit` has none. -/
def NativeCall.id : NativeCall → ℕ
  | .read id _ | .write id _ _ | .writev id _ _ _ | .request id _ _ => id
  | .readCredit _ _ => 0

namespace Client

/-! ### Promises -/

def promise (c : Client) : ℕ × Client := (c.promises, { c with promises := c.promises + 1 })

def await (c : Client) (awaited : Awaited) (task : Task) : Client := { c with tasks := c.tasks ++ [(awaited, task)] }

def settle (c : Client) (promise : ℕ) (result : Settlement (Option NativeEvent)) : Client :=
  { c with results := c.results ++ [(promise, result)] }

/-- The result of an awaited promise, once it has one. -/
def result (c : Client) : Awaited → Option (Settlement (Option NativeEvent))
  | .settled result => some result
  | .promise index => c.results.lookup index

/-! ### Calls of the native handle -/

/-- A queued operation: its record and its promise. -/
def enqueued (c : Client) (id : ℕ) (ordered : Bool) : ℕ × Client :=
  let (promise, c) := c.promise
  (promise, { c with port := c.port.record id promise ordered })

/-- What is done with the answer of the native handle. -/
def answered (c : Client) (call : NativeCall) (site : Site) (answer : Answer) : Client × List Output :=
  match site, answer with
  | .request ordered task, .thrown error =>
    ({ c with port := c.port.release ordered }.await (.settled (.error error)) task, [])
  | .request _ task, .completed => ({ c with port := c.port.release true }.await .RESOLVED task, [])
  | .request ordered task, .queued =>
    let (promise, c) := c.enqueued call.id ordered
    (c.await (.promise promise) task, [.accepted call.id promise ordered])
  | .write method, .thrown error =>
    ({ c with port := { c.port.release true with writing := false } }, [.returned method (.error error)])
  | .write method, .completed => ({ c with port := c.port.release true }.await .RESOLVED (.write method), [])
  | .write method, .queued =>
    let (promise, c) := c.enqueued call.id true
    ({ c with port := { c.port with writePromise := some (.promise promise) } }.await (.promise promise) (.write method),
      [.accepted call.id promise true])
  | .credit _ _, .thrown error => (c, [.threw error])
  | .credit bytes slots, _ => ({ c with port := c.port.topUp bytes slots }, [.credited bytes slots])

/-- Call the native handle, or fail on `null`. -/
def native (c : Client) (call : NativeCall) (site : Site) : Client × List Output :=
  if c.port.native then ({ c with calling := some (call, site) }, [.called call])
  else c.answered call site (.thrown { message := "Cannot read properties of null" })

/-- `await this._request(..)`. -/
def request (c : Client) (op : Operation) (task : Task) : Client × List Output :=
  match c.port._request op with
  | .error error => (c.await (.settled (.error error)) task, [])
  | .ok (call, port) => { c with port := port }.native call (.request op.ordered task)

/-! ### The methods -/

/-- The loop of `writev` from its next batch on. -/
def nextBatch (c : Client) (rest : List Batch) (promise : ℕ) : Client × List Output :=
  match rest with
  | [] => (c.settle promise (.ok none), [])
  | batch :: rest => c.request batch.operation (.batches rest promise)

def writev (c : Client) (method : ℕ) (buffers : List JsBuffer) : Client × List Output :=
  if !c.port.isOpen || c.port.closing then (c, [.returned method (.error canceledError)])
  else if c.port.writing then (c, [.returned method (.error { message := "Write already pending" })])
  else
    let (promise, c) := c.promise
    let c := { c with port := { c.port with writing := true, writePromise := some (.promise promise) } }
    (c.await (.promise promise) (.write method)).nextBatch (batches buffers) promise

def write (c : Client) (method : ℕ) (buffer : JsBuffer) : Client × List Output :=
  if chunkSize < buffer.length then c.writev method [buffer]
  else if !c.port.isOpen || c.port.closing then (c, [.returned method (.error canceledError)])
  else if c.port.writing then (c, [.returned method (.error { message := "Write already pending" })])
  else
    let port := { c.port with writePromise := some .RESOLVED }
    if buffer.length = 0 then
      ({ c with port := { port with writing := true } }.await .RESOLVED (.write method), [])
    else if 64 ≤ port.pending.length then
      -- the exception leaves `_writing` as it was
      ({ c with port := port }, [.returned method (.error { message := "Too many pending serial operations" })])
    else
      let (call, port) := { port with writing := true }.reserve (.write buffer)
      { c with port := port }.native call (.write method)

def readChunk (c : Client) (method : ℕ) (length : ℤ) : Client × List Output :=
  if length < 1 then (c, [.returned method (.error { message := "Invalid read length" })])
  else if c.port.reading || c.port.streaming then
    (c, [.returned method (.error { message := "Read already pending" })])
  else
    { c with port := { c.port with reading := true } }.request (.read (min length chunkSize)) (.readChunk method)

def startReading (c : Client) (length : ℤ) : Client × List Output :=
  if !c.port.isOpen || c.port.closing then (c, [.threw canceledError])
  else if c.port.reading then (c, [.threw { message := "Read already pending" }])
  else
    let c := { c with port := { c.port with streaming := true } }
    match c.port.credit length with
    | none => (c, [])
    | some (bytes, slots) => c.native (.readCredit bytes slots) (.credit bytes slots)

def close (c : Client) (method : ℕ) : Client × List Output :=
  if !c.port.isOpen || c.port.closing then (c, [.returned method (.error { message := "Port is not open" })])
  else
    let c := { c with port := { c.port with closing := true, isOpen := false } }
    if c.port.native then (c.await (.promise 0) (.close method), [.stopped])
    else (c, [.returned method (.error { message := "Cannot read properties of null" })])

def cancelOpen (c : Client) : Client × List Output :=
  ({ c with port := { c.port with closing := true } }, if c.port.native then [.stopped] else [])

/-- A call of a method; the promise an `async` method returns is made first. -/
def invoke (c : Client) (m : Method) : Client × List Output :=
  let (method, c) := c.promise
  match m with
  | .write buffer => c.write method buffer
  | .writev buffers => c.writev method buffers
  | .control operation value => c.request (.control operation value) (.method method)
  | .drain => (c.await (c.port.writePromise.getD .RESOLVED) (.drain method), [])
  | .readChunk length => c.readChunk method length
  | .startReading length => c.startReading length
  | .close => c.close method
  | .cancelOpen => c.cancelOpen

/-- The rest of an `async` function, with the result of its `await`. -/
def proceed (c : Client) (task : Task) (result : Settlement (Option NativeEvent)) : Client × List Output :=
  match task with
  | .method method => (c, [.returned method result])
  | .readChunk method => ({ c with port := { c.port with reading := false } }, [.returned method result])
  | .write method => ({ c with port := { c.port with writing := false } }, [.returned method result])
  | .batches rest promise =>
    match result with
    | .error error => (c.settle promise (.error error), [])
    | .ok _ => c.nextBatch rest promise
  | .drain method =>
    match result with
    | .error error => (c, [.returned method (.error error)])
    | .ok _ => c.request (.control .drain 0) (.method method)
  | .close method => ({ c with port := { c.port with native := false } }, [.returned method (.ok none)])

/-! ### Reads -/

/-- `retainRead`: put the rest of a batch back, before everything that is queued. -/
def retainRead (c : Client) (rest : List Buffer) : Client :=
  { c with
    pendingRead := some (.batch rest)
    queuedReads := match c.pendingRead with
      | none => c.queuedReads
      | some item => some (item :: c.queuedReads.getD [])
    microtasks := c.microtasks + 1 }

/-- The loop of `_deliverBatch`, up to the next call of the listener. -/
def _deliverBatch (c : Client) (events : List Buffer) : Client × List Output :=
  match events with
  | [] => ({ c with onData := none }, [])
  | data :: rest =>
    if c.port.isOpen then ({ c with port := c.port.debit data, onData := some rest }, [.data data])
    else ({ c with onData := none }, [])

/-- `deliverRead`. -/
def deliverRead (c : Client) : Client × List Output :=
  let event := c.pendingRead
  let c := { c with
    pendingRead := c.queuedReads.bind List.head?
    queuedReads := match c.queuedReads with
      | none => none
      | some items => if items.tail = [] then none else some items.tail }
  match event with
  | none => (c, [])
  | some (.buffer data) =>
    if c.port.isOpen then ({ c with port := c.port.debit data, onData := some [] }, [.data data]) else (c, [])
  | some (.batch events) => c._deliverBatch events

/-- A read callback: queue the item, and schedule one `deliverRead`. -/
def queueRead (c : Client) (item : Item) : Client :=
  let c := { c with microtasks := c.microtasks + 1 }
  match c.pendingRead with
  | none => { c with pendingRead := some item }
  | some _ => { c with queuedReads := some (c.queuedReads.getD [] ++ [item]) }

/-! ### Events -/

/-- `_finishClose`. -/
def _finishClose (c : Client) (error : Option SerialError) : Client × List Output :=
  if c.port.finished then (c, [])
  else
    let reason := c.port.closeReason error
    let rejected := c.port.pending.map fun (_, pending) => pending.promise
    ({ c with
      port := c.port._finishClose error
      results := c.results ++ rejected.map (·, .error reason) ++ [(0, .ok none)] },
      (if c.port.opened = none then [.opened (.error reason)] else []) ++
        rejected.map (.settled · .close (.error reason)) ++ [.onClose (if c.port.closing then none else some reason)])

/-- `_settle`. -/
def _settle (c : Client) (id : ℕ) (error : Option SerialError) (result : NativeEvent) : Client × List Output :=
  match c.port.pending.lookup id with
  | none => (c, [])
  | some pending =>
    let settlement := match error with
      | some error => .error error
      | none => .ok (some result)
    ({ c with port := c.port.unrecord id pending.ordered }.settle pending.promise settlement,
      [.settled pending.promise (.event id) settlement])

/-- `_event`. -/
def _event (c : Client) (event : NativeEvent) : Client × List Output :=
  match event.kind with
  | .opened =>
    if c.port.closing then (c, [])
    else
      ({ c with port := { c.port with isOpen := true, opened := c.port.opened.or (some (.ok ())) } },
        if c.port.opened = none then [.opened (.ok ())] else [])
  | .closed =>
    c._finishClose (c.port.failure.or
      (if event.message.getD "" = "" then none else some (c.port._nativeError event)))
  | _ => c._settle event.id (if event.kind = .error then some (c.port._nativeError event) else none) event

/-- The callback given to `NativePort`. -/
def callback (c : Client) (callback : Callback) : Client × List Output :=
  match callback with
  | .failed error _ =>
    ({ c with port := { c.port with failure := some error } }, if c.port.native then [.stopped] else [])
  | .read item => (c.queueRead item, [])
  | .event event => c._event event

/-! ### The machine -/

/-- No JavaScript runs: neither a listener nor a call of the native handle. -/
def idle (c : Client) : Bool := c.onData.isNone && c.calling.isNone

def step (c : Client) : Input → Option (Client × List Output)
  | .invoke m =>
    if c.calling.isNone then
      let (c', outputs) := c.invoke m
      some (c', .invoked c.promises :: outputs)
    else none
  | .answer answer =>
    match c.calling with
    | none => none
    | some (call, site) =>
      if answer = .completed ∧ !call.mayComplete then none
      else some ({ c with calling := none }.answered call site answer)
  | .callback callback => if c.idle then some (c.callback callback) else none
  | .microtask =>
    if c.idle && 0 < c.microtasks then some ({ c with microtasks := c.microtasks - 1 }.deliverRead) else none
  | .resume index =>
    match c.tasks[index]? with
    | none => none
    | some (awaited, task) =>
      match c.result awaited with
      | none => none
      | some result => if c.idle then some ({ c with tasks := c.tasks.eraseIdx index }.proceed task result) else none
  | .returns =>
    match c.onData with
    | none => none
    | some rest => if c.calling.isNone then some (c._deliverBatch rest) else none
  | .throws =>
    match c.onData with
    | none => none
    | some rest =>
      if c.calling.isNone then
        let c := { c with onData := none }
        some (if rest ≠ [] ∧ c.port.isOpen then c.retainRead rest else c, [])
      else none

end Client

def client : Machine Client Input Output := ⟨Client.step⟩

end NodeSerialport.Binding
