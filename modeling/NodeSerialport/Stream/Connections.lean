import NodeSerialport.Stream.Demand
/-!
# Connections and callbacks

What is outstanding of the life cycle of a stream: the callbacks that are owed, the `close` of a port that has not
settled, the 'close' event that is to be emitted, the promise of an `open()`.

* `Task.weight`, `load` — how often a callback is still to be called;
* `awaits`, `closes`, `openings`, `failing` — what is outstanding of a port, and of an open;
* `Light` — what a function does that only takes on callbacks, or moves data;
* `Sane` — why a stream that closes will be done with it, and what its present port is;
* `Steady` — what the functions do that close.
-/

namespace NodeSerialport.Stream

open Parsers (Buffer)
open Binding (SerialError ControlOperation)

/-! ### What is outstanding -/

/-- How often a callback is the one that is counted. -/
def Callback.weight (k : ℕ) : Callback → ℕ
  | .user id => if id = k then 1 else 0
  | .destroy _ => 0

def weigh (k : ℕ) (cb : Option Callback) : ℕ := (cb.map (Callback.weight k)).getD 0

def Output.weight (k : ℕ) : Output → ℕ
  | .called id _ => if id = k then 1 else 0
  | _ => 0

def Kind.weight (k : ℕ) : Kind → ℕ
  | .canceling _ cb => weigh k cb
  | _ => 0

def Task.weight (k : ℕ) : Task → ℕ
  | .call output kind => output.weight k + kind.weight k
  | .outside kind => kind.weight k
  | .cancelOpen _ cb | .openFailed _ cb => weigh k cb
  | _ => 0

def Promise.weight (k : ℕ) : Promise → ℕ
  | .opening cb | .canceling _ cb | .operating _ _ _ cb => weigh k cb
  | _ => 0

def Kind.closes (port : ℕ) : Kind → Bool
  | .canceling p _ => p = port
  | _ => false

/-- A canceled open, whose `port.close()` has not returned. -/
def Task.closes (port : ℕ) : Task → Bool
  | .cancelOpen p _ => p = port
  | .call _ kind | .outside kind => kind.closes port
  | _ => false

/-- The promise of a `port.close()`. -/
def Promise.closes (port : ℕ) : Promise → Bool
  | .closing p _ | .canceling p _ => p = port
  | _ => false

/-- The 'close' event of a port. -/
def Output.closed (port : ℕ) : Output → Bool
  | .emitClose p _ => p = some port
  | _ => false

def Task.closed (port : ℕ) (task : Task) : Bool := task.output?.any (Output.closed port)

/-- A failed open that has not been reported. -/
def Task.fails : Task → Bool
  | .openFailed _ _ => true
  | _ => false

def Promise.opens : Promise → Bool
  | .opening _ => true
  | _ => false

namespace SerialPortStream

/-- How often the callback `k` is still to be called. -/
def load (k : ℕ) (s : SerialPortStream) : ℕ :=
  (s.todo.map (Task.weight k)).sum + (s.promises.map (Promise.weight k)).sum +
    (s.ticks.map fun tick => weigh k tick.2).sum + (s._closeCallbacks.map (Callback.weight k)).sum

/-- How many closes of a port have not settled. -/
def awaits (port : ℕ) (s : SerialPortStream) : ℕ :=
  s.todo.countP (Task.closes port) + s.promises.countP (Promise.closes port)

/-- How many 'close' events of a port are to come, with that of the present one. -/
def closes (port : ℕ) (s : SerialPortStream) : ℕ :=
  s.todo.countP (Task.closed port) + if s.port = some port then 1 else 0

/-- How many promises of `open()` have not settled. -/
def openings (s : SerialPortStream) : ℕ := s.promises.countP Promise.opens

def failing (s : SerialPortStream) : Bool := s.todo.any Task.fails

end SerialPortStream

open SerialPortStream

variable {s s' s₁ s₂ : SerialPortStream} {k m n : ℕ}

/-! ### Functions that close nothing -/

/-- A task that only carries callbacks. -/
structure Task.Light (task : Task) : Prop where
  closes : ∀ port, task.closes port = false
  closed : ∀ port, task.closed port = false
  fails : task.fails = false

structure Promise.Light (promise : Promise) : Prop where
  closes : ∀ port, promise.closes port = false
  opens : promise.opens = false

/-- What a function does that closes nothing, and takes on the callback `k` so often. -/
structure Light (k n : ℕ) (s s' : SerialPortStream) : Prop where
  opening : s'.opening = s.opening
  closing : s'.closing = s.closing
  port : s'.port = s.port
  ports : s'.ports = s.ports
  callbacks : s'._closeCallbacks = s._closeCallbacks
  load : s'.load k = s.load k + n
  awaits : ∀ port, s'.awaits port = s.awaits port
  closes : ∀ port, s'.closes port = s.closes port
  openings : s'.openings = s.openings
  failing : s'.failing = s.failing

namespace Light

theorem refl (k : ℕ) (s : SerialPortStream) : Light k 0 s s :=
  ⟨rfl, rfl, rfl, rfl, rfl, rfl, fun _ => rfl, fun _ => rfl, rfl, rfl⟩

theorem trans (h : Light k m s s₁) (h' : Light k n s₁ s') : Light k (m + n) s s' where
  opening := h'.opening.trans h.opening
  closing := h'.closing.trans h.closing
  port := h'.port.trans h.port
  ports := h'.ports.trans h.ports
  callbacks := h'.callbacks.trans h.callbacks
  load := by rw [h'.load, h.load, Nat.add_assoc]
  awaits := fun port => (h'.awaits port).trans (h.awaits port)
  closes := fun port => (h'.closes port).trans (h.closes port)
  openings := h'.openings.trans h.openings
  failing := h'.failing.trans h.failing

theorem of_eq (hopening : s'.opening = s.opening) (hclosing : s'.closing = s.closing) (hport : s'.port = s.port)
    (hports : s'.ports = s.ports) (hcallbacks : s'._closeCallbacks = s._closeCallbacks) (htodo : s'.todo = s.todo)
    (hpromises : s'.promises = s.promises) (hticks : s'.ticks = s.ticks) : Light k 0 s s' := by
  refine ⟨hopening, hclosing, hport, hports, hcallbacks, ?_, fun port => ?_, fun port => ?_, ?_, ?_⟩
  · simp only [SerialPortStream.load, htodo, hpromises, hticks, hcallbacks]
    rfl
  · simp only [SerialPortStream.awaits, htodo, hpromises]
  · simp only [SerialPortStream.closes, htodo, hport]
  · simp only [SerialPortStream.openings, hpromises]
  · simp only [SerialPortStream.failing, htodo]

theorem first (k : ℕ) (s : SerialPortStream) (tasks : List Task) (h : ∀ task ∈ tasks, task.Light) :
    Light k (tasks.map (Task.weight k)).sum s (s.first tasks) := by
  have hcloses (port : ℕ) : tasks.countP (Task.closes port) = 0 := by
    rw [List.countP_eq_zero]
    intro task hmem
    simp [(h task hmem).closes port]
  have hclosed (port : ℕ) : tasks.countP (Task.closed port) = 0 := by
    rw [List.countP_eq_zero]
    intro task hmem
    simp [(h task hmem).closed port]
  have hfails : tasks.any Task.fails = false := by
    rw [List.any_eq_false]
    intro task hmem
    simp [(h task hmem).fails]
  refine ⟨rfl, rfl, rfl, rfl, rfl, ?_, fun port => ?_, fun port => ?_, rfl, ?_⟩
  · simp only [SerialPortStream.load, SerialPortStream.first, List.map_append, List.sum_append]
    omega
  · simp only [SerialPortStream.awaits, SerialPortStream.first, List.countP_append, hcloses, Nat.zero_add]
  · show (tasks ++ s.todo).countP (Task.closed port) + _ = s.todo.countP (Task.closed port) + _
    rw [List.countP_append, hclosed, Nat.zero_add]
    rfl
  · simp only [SerialPortStream.failing, SerialPortStream.first, List.any_append, hfails, Bool.false_or]

theorem await (k : ℕ) (s : SerialPortStream) (promise : Promise) (h : promise.Light) :
    Light k (promise.weight k) s (s.await promise) := by
  refine ⟨rfl, rfl, rfl, rfl, rfl, ?_, fun port => ?_, fun port => rfl, ?_, rfl⟩
  · simp only [SerialPortStream.load, SerialPortStream.await, List.map_append, List.sum_append, List.map_cons, List.map_nil,
      List.sum_cons, List.sum_nil]
    omega
  · simp [SerialPortStream.awaits, SerialPortStream.await, h.closes port]
  · simp [SerialPortStream.openings, SerialPortStream.await, h.opens]

end Light

theorem callback_light (error : Option SerialError) (cb : Callback) : (SerialPortStream.callback error cb).Light := by
  cases cb <;> exact ⟨fun _ => rfl, fun _ => rfl, rfl⟩

theorem callback_weight (k : ℕ) (error : Option SerialError) (cb : Callback) :
    (SerialPortStream.callback error cb).weight k = cb.weight k := by
  cases cb <;> rfl

theorem callbacks_light (k : ℕ) (s : SerialPortStream) (cbs : List Callback) (error : Option SerialError) :
    Light k (cbs.map (Callback.weight k)).sum s (s.first (cbs.map (SerialPortStream.callback error))) := by
  have hlight : ∀ task ∈ cbs.map (SerialPortStream.callback error), task.Light := by
    intro task hmem
    obtain ⟨cb, -, rfl⟩ := List.mem_map.1 hmem
    exact callback_light error cb
  have hweight : Task.weight k ∘ SerialPortStream.callback error = Callback.weight k := funext (callback_weight k error)
  have hfirst := Light.first k s _ hlight
  rw [List.map_map, hweight] at hfirst
  exact hfirst

@[simp] theorem sum_toList (k : ℕ) (cb : Option Callback) : (cb.toList.map (Callback.weight k)).sum = weigh k cb := by
  cases cb <;> simp [weigh]

theorem call_light (k : ℕ) (s : SerialPortStream) (output : Output) {kind : Kind} (houtput : output.weight k = 0)
    (hclosed : ∀ port, output.closed port = false) (hkind : kind.cancels = false) :
    Light k 0 s (s.first [.call output kind]) := by
  have hlight : (Task.call output kind).Light :=
    ⟨fun port => by cases kind <;> simp_all [Task.closes, Kind.closes, Kind.cancels], hclosed, rfl⟩
  have hweight : (Task.call output kind).weight k = 0 := by
    cases kind <;> simp_all [Task.weight, Kind.weight, Kind.cancels]
  have hfirst := Light.first k s [.call output kind] (by simpa using hlight)
  simpa [hweight] using hfirst

namespace SerialPortStream

variable (k)

theorem _report_light (s : SerialPortStream) (error : SerialError) (cb : Option Callback) :
    Light k (weigh k cb) s (s._report error cb) := by
  cases cb with
  | none => exact call_light k s _ rfl (fun _ => rfl) rfl
  | some cb =>
    rw [← sum_toList]
    exact callbacks_light k s [cb] _

theorem _asyncError_light (s : SerialPortStream) (message : String) (cb : Option Callback) :
    Light k (weigh k cb) s (s._asyncError message cb) := by
  refine ⟨rfl, rfl, rfl, rfl, rfl, ?_, fun _ => rfl, fun _ => rfl, rfl, rfl⟩
  simp only [SerialPortStream.load, _asyncError, List.map_append, List.sum_append, List.map_cons, List.map_nil,
    List.sum_cons, List.sum_nil]
  omega

theorem _operation_light (s : SerialPortStream) (operation : ControlOperation) (baudRate : Option ℕ)
    (cb : Option Callback) : Light k (weigh k cb) s (s._operation operation baudRate cb) := by
  unfold _operation
  split
  · exact _asyncError_light k s _ _
  · rename_i port _
    have hawait := Light.await k s (.operating port operation baudRate cb) ⟨fun _ => rfl, rfl⟩
    exact hawait.trans (call_light k _ _ rfl (fun _ => rfl) rfl)

theorem operated_light (s : SerialPortStream) (port : ℕ) (operation : ControlOperation) (baudRate : Option ℕ)
    (cb : Option Callback) : Light k (weigh k cb) s (s.operated port operation baudRate cb) := by
  have hset : Light k 0 s (if s.port = some port ∧ operation = .update then { s with baudRate := baudRate } else s) := by
    split
    · exact .of_eq rfl rfl rfl rfl rfl rfl rfl rfl
    · exact .refl k s
  rw [← sum_toList, ← Nat.zero_add (List.sum _)]
  exact hset.trans (callbacks_light k _ _ _)

theorem _failWaitingWrite_light (s : SerialPortStream) (error : SerialError) : Light k 0 s (s._failWaitingWrite error) := by
  obtain ⟨-, heq⟩ | ⟨write, data, -, heq⟩ := _failWaitingWrite_cases s error
  · rw [heq]
    exact .refl k s
  · rw [heq]
    have hset : Light k 0 s { s with _waitingWrite := none } := .of_eq rfl rfl rfl rfl rfl rfl rfl rfl
    exact hset.trans (call_light k _ _ rfl (fun _ => rfl) rfl)

theorem _write_light (s : SerialPortStream) (write : ℕ) (data : Buffer) : Light k 0 s (s._write write data) := by
  obtain ⟨-, heq⟩ | ⟨port, -, -, heq⟩ := _write_cases s write data
  · rw [heq]
    exact .of_eq rfl rfl rfl rfl rfl rfl rfl rfl
  · rw [heq]
    have hawait := Light.await k s (.writing port write) ⟨fun _ => rfl, rfl⟩
    exact hawait.trans (call_light k _ _ rfl (fun _ => rfl) rfl)

theorem _writev_light (s : SerialPortStream) (write : ℕ) (chunks : List Buffer) :
    Light k 0 s (s._writev write chunks) := by
  obtain heq | ⟨port, -, -, heq⟩ := _writev_cases s write chunks
  · rw [heq]
    exact _write_light k s write _
  · rw [heq]
    have hawait := Light.await k s (.writing port write) ⟨fun _ => rfl, rfl⟩
    exact hawait.trans (call_light k _ _ rfl (fun _ => rfl) rfl)

theorem _read_light (s : SerialPortStream) (length : ℕ) : Light k 0 s (s._read length) := by
  obtain ⟨-, heq⟩ | ⟨port, -, -, -, heq⟩ | ⟨port, output, -, -, -, -, heq, hasks⟩ := _read_cases s length
  · rw [heq]
    exact .of_eq rfl rfl rfl rfl rfl rfl rfl rfl
  · rw [heq]
    have hset : Light k 0 s { s with _readRequested := true } := .of_eq rfl rfl rfl rfl rfl rfl rfl rfl
    exact hset.trans (call_light k _ _ rfl (fun _ => rfl) rfl)
  · rw [heq]
    have hset : Light k 0 s { s with _readRequested := true, _readPort := some port } :=
      .of_eq rfl rfl rfl rfl rfl rfl rfl rfl
    have hawait := Light.await k { s with _readRequested := true, _readPort := some port }
      (.reading port (max 1 length)) ⟨fun _ => rfl, rfl⟩
    refine (hset.trans hawait).trans (call_light k _ _ ?_ (fun _ => ?_) rfl)
    · cases output <;> first | rfl | cases hasks
    · cases output <;> first | rfl | cases hasks

theorem resumeRead_light (s : SerialPortStream) : Light k 0 s s.resumeRead := by
  unfold SerialPortStream.resumeRead
  split
  · exact _read_light k s _
  · exact .refl k s

theorem _resumeIO_light (s : SerialPortStream) : Light k 0 s ( _resumeIO s) := by
  obtain ⟨-, heq⟩ | ⟨-, -, -, heq⟩ | ⟨port, write, data, -, -, -, -, heq⟩ := _resumeIO_cases s
  · rw [heq]
    exact .refl k s
  · rw [heq]
    exact resumeRead_light k s
  · rw [heq]
    have hset : Light k 0 s { s with _waitingWrite := none } := .of_eq rfl rfl rfl rfl rfl rfl rfl rfl
    have hfirst := Light.first k { s with _waitingWrite := none } [.resumeRead] (by
      intro task hmem
      rw [List.mem_singleton.1 hmem]
      exact ⟨fun _ => rfl, fun _ => rfl, rfl⟩)
    have hawait := Light.await k ({ s with _waitingWrite := none }.first [.resumeRead])
      (.writing port write) ⟨fun _ => rfl, rfl⟩
    exact ((hset.trans hfirst).trans hawait).trans (call_light k _ _ rfl (fun _ => rfl) rfl)

theorem readSettled_light (s : SerialPortStream) (port : ℕ) : Light k 0 s (s.readSettled port) := by
  unfold readSettled
  split
  · exact .of_eq rfl rfl rfl rfl rfl rfl rfl rfl
  · exact .refl k s

theorem push_light (s : SerialPortStream) (data : Option Buffer) :
    Light k 0 s ({ s with _readRequested := false }.first [.call (.push data) .listener]) := by
  have hset : Light k 0 s { s with _readRequested := false } := .of_eq rfl rfl rfl rfl rfl rfl rfl rfl
  exact hset.trans (call_light k _ _ rfl (fun _ => rfl) rfl)

theorem received_light (s : SerialPortStream) (port length : ℕ) (data : Buffer) :
    Light k 0 s (s.received port length data) := by
  have hsettled := readSettled_light k s port
  unfold received
  simp only
  split
  · exact hsettled.trans (push_light k _ _)
  split
  · exact hsettled.trans (_read_light k _ _)
  · exact hsettled

theorem onData_light (s : SerialPortStream) (port : ℕ) (data : Buffer) : Light k 0 s (s.onData port data) := by
  unfold onData
  split
  · exact push_light k s _
  · exact .refl k s

end SerialPortStream

/-! ### The present port, and a close that is under way -/

/-- What holds of the present port: `shut` are the ports that had closed when they were handed over. -/
structure Sane (shut : List ℕ) (s : SerialPortStream) : Prop where
  /-- A close comes to an end: a promise, or a failed open, is outstanding. -/
  awaited : s.closing → s.opening ∨ s.failing ∨ ∃ port, s.port = some port ∧ 0 < s.awaits port
  callbacks : s._closeCallbacks ≠ [] → s.closing
  once : ∀ port, s.port = some port → s.awaits port ≤ if s.closing && !s.opening then 1 else 0
  closed : ∀ port, s.port = some port → s.ports port ∨ port ∈ shut ∨ 0 < s.awaits port
  replaced : s.opening → ∀ port, s.port = some port → port ∈ shut

/-- What the functions do that close, and take on the callback `k` so often. -/
structure Steady (k n : ℕ) (s s' : SerialPortStream) : Prop where
  opening : s'.opening = s.opening
  openings : s'.openings = s.openings
  port : s'.port = none ∨ s'.port = s.port
  load : s'.load k = s.load k + n
  closes : ∀ port, s'.closes port = s.closes port
  awaits : ∀ port, s'.awaits port ≤ s.awaits port ∨ s.port = some port

section

variable {shut : List ℕ}

theorem Light.sane (h : Light k n s s') (hs : Sane shut s) : Sane shut s' := by
  refine ⟨fun hclosing => ?_, fun hcallbacks => ?_, fun port hport => ?_, fun port hport => ?_, fun hopening port hport => ?_⟩
  · rw [h.opening, h.failing, h.port]
    simp only [h.awaits]
    exact hs.awaited (h.closing ▸ hclosing)
  · rw [h.closing]
    exact hs.callbacks (h.callbacks ▸ hcallbacks)
  · rw [h.awaits, h.closing, h.opening]
    exact hs.once port (h.port ▸ hport)
  · rw [h.awaits, h.ports]
    exact hs.closed port (h.port ▸ hport)
  · exact hs.replaced (h.opening ▸ hopening) port (h.port ▸ hport)

theorem Light.steady (h : Light k n s s') : Steady k n s s' :=
  ⟨h.opening, h.openings, .inr h.port, h.load, h.closes, fun port => .inl (h.awaits port).le⟩

theorem Steady.trans (h : Steady k m s s₁) (h' : Steady k n s₁ s') : Steady k (m + n) s s' where
  opening := h'.opening.trans h.opening
  openings := h'.openings.trans h.openings
  port := h'.port.elim .inl fun hsame => h.port.imp hsame.trans hsame.trans
  load := by rw [h'.load, h.load, Nat.add_assoc]
  closes := fun port => (h'.closes port).trans (h.closes port)
  awaits := by
    intro port
    rcases h'.awaits port with hle | hport
    · exact (h.awaits port).imp_left hle.trans
    · rcases h.port with hnone | hsame
      · rw [hnone] at hport
        cases hport
      · exact .inr (hsame ▸ hport)

theorem Sane.idle (hclosing : s.closing = false) (hcallbacks : s._closeCallbacks = []) (hopening : s.opening = false)
    (hport : ∀ port, s.port = some port → s.awaits port = 0 ∧ (s.ports port ∨ port ∈ shut)) : Sane shut s := by
  refine ⟨fun hno => ?_, fun hno => absurd hcallbacks hno, fun port hp => ?_, fun port hp => ?_, fun hno => ?_⟩
  · rw [hclosing] at hno
    cases hno
  · rw [(hport port hp).1]
    exact Nat.zero_le _
  · exact (hport port hp).2.imp_right .inl
  · rw [hopening] at hno
    cases hno

theorem Sane.none (hclosing : s.closing = false) (hcallbacks : s._closeCallbacks = []) (hport : s.port = none) :
    Sane shut s := by
  refine ⟨fun hno => ?_, fun hno => absurd hcallbacks hno, fun port hp => ?_, fun port hp => ?_, fun _ port hp => ?_⟩
  · rw [hclosing] at hno
    cases hno
  all_goals
    rw [hport] at hp
    cases hp

end

/-! ### Functions that close -/

namespace SerialPortStream

section

variable {shut : List ℕ}

theorem closeCalls_weight (k : ℕ) (s : SerialPortStream) (error : Option SerialError) :
    ((s.closeCalls error).map (Task.weight k)).sum = (s._closeCallbacks.map (Callback.weight k)).sum := by
  have hweight : Task.weight k ∘ SerialPortStream.callback error = Callback.weight k := funext (callback_weight k error)
  unfold closeCalls
  rw [List.map_append, List.sum_append, List.map_map, hweight, List.map_append, List.sum_append]
  have hend : ((if s.endOnClose then [Task.call .emitEnd .listener] else []).map (Task.weight k)).sum = 0 := by
    split <;> rfl
  rw [hend]
  exact Nat.zero_add _

theorem closeCalls_closes (s : SerialPortStream) (error : Option SerialError) (port : ℕ) :
    (s.closeCalls error).countP (Task.closes port) = 0 := by
  rw [List.countP_eq_zero]
  intro task hmem
  have hplain := closeCalls_plain s error task hmem
  cases task with
  | call output kind => cases kind <;> simp_all [Task.plain, Task.closes, Kind.closes, Kind.plain]
  | outside kind => cases hplain
  | cancelOpen p cb => cases hplain
  | _ => simp [Task.closes]

theorem callbacks_closed (cbs : List Callback) (error : Option SerialError) (port : ℕ) :
    (cbs.map (callback error)).countP (Task.closed port) = 0 := by
  rw [List.countP_eq_zero]
  intro task hmem
  obtain ⟨cb, -, rfl⟩ := List.mem_map.1 hmem
  simp [(callback_light error cb).closed port]

theorem closeCalls_closed (s : SerialPortStream) (error : Option SerialError) (port : ℕ) :
    (s.closeCalls error).countP (Task.closed port) = if s.port = some port then 1 else 0 := by
  unfold closeCalls
  have hend : (if s.endOnClose then [Task.call .emitEnd .listener] else []).countP (Task.closed port) = 0 := by
    split <;> rfl
  rw [List.countP_append, List.countP_append, hend, callbacks_closed, List.countP_singleton]
  simp [Task.closed, Task.output?, Output.closed]

/-- **The close is over.** -/
theorem _finishClose_steady (s : SerialPortStream) (error : Option SerialError) : Steady k 0 s (s._finishClose error) := by
  unfold _finishClose
  split
  · exact (Light.refl k s).steady
  · refine ⟨rfl, rfl, .inl rfl, ?_, fun port => ?_, fun port => .inl ?_⟩
    · simp only [SerialPortStream.load, first, List.map_append, List.sum_append, closeCalls_weight, List.map_nil,
        List.sum_nil]
      omega
    · show (s.closeCalls _ ++ s.todo).countP _ + 0 = s.todo.countP _ + _
      rw [List.countP_append, closeCalls_closed, Nat.add_zero, Nat.add_comm]
    · show (s.closeCalls _ ++ s.todo).countP _ + _ ≤ s.todo.countP _ + _
      rw [List.countP_append, closeCalls_closes, Nat.zero_add]
      exact le_rfl

theorem _finishClose_sane (h : s.port = none → s.closing = false → Sane shut s) (error : Option SerialError) :
    Sane shut (s._finishClose error) := by
  unfold _finishClose
  split
  · rename_i hidle
    rw [Bool.and_eq_true, Option.isNone_iff_eq_none, Bool.not_eq_true'] at hidle
    exact h hidle.1 hidle.2
  · exact .none rfl rfl rfl

theorem failedCalls_weight (k : ℕ) (s : SerialPortStream) (failure : SerialError) :
    ((s.failedCalls failure).map (Task.weight k)).sum = (s._closeCallbacks.map (Callback.weight k)).sum := by
  have hweight : Task.weight k ∘ SerialPortStream.callback (some failure) = Callback.weight k :=
    funext (callback_weight k (some failure))
  unfold failedCalls
  rw [List.map_append, List.sum_append]
  split
  · rename_i hnone
    rw [hnone]
    rfl
  · rw [List.map_map, hweight]
    rfl

theorem failedCalls_light (s : SerialPortStream) (failure : SerialError) : ∀ task ∈ s.failedCalls failure, task.Light := by
  intro task hmem
  rcases List.mem_append.1 hmem with hmem | hmem
  · split at hmem
    · rw [List.mem_singleton.1 hmem]
      exact ⟨fun _ => rfl, fun _ => rfl, rfl⟩
    · obtain ⟨cb, -, rfl⟩ := List.mem_map.1 hmem
      exact callback_light _ cb
  · rw [List.mem_singleton.1 hmem]
    exact ⟨fun _ => rfl, fun _ => rfl, rfl⟩

theorem _closeFailed_steady (s : SerialPortStream) (port : ℕ) (error : Thrown) :
    Steady k 0 s (s._closeFailed port error) := by
  unfold _closeFailed
  split
  · exact (Light.refl k s).steady
  split
  · exact _finishClose_steady s _
  · have hfirst := Light.first k { s with closing := false, _closeError := none, _closeCallbacks := [] }
      (s.failedCalls (asError error)) (failedCalls_light s _)
    refine ⟨rfl, rfl, .inr rfl, ?_, hfirst.closes, fun port => .inl (hfirst.awaits port).le⟩
    rw [hfirst.load, failedCalls_weight]
    simp only [SerialPortStream.load, List.map_nil, List.sum_nil]
    omega

theorem _closeFailed_sane {port : ℕ} (h : s.port ≠ some port → Sane shut s)
    (hawaits : s.port = some port → s.awaits port = 0 ∧ s.opening = false) (error : Thrown) :
    Sane shut (s._closeFailed port error) := by
  unfold _closeFailed
  split
  · rename_i hother
    exact h hother
  · rename_i hport
    rw [not_not] at hport
    split
    · refine _finishClose_sane (fun hnone => ?_) _
      rw [hnone] at hport
      cases hport
    · rename_i hopen
      have hfirst := Light.first 0 { s with closing := false, _closeError := none, _closeCallbacks := [] }
        (s.failedCalls (asError error)) (failedCalls_light s _)
      refine hfirst.sane (.idle rfl rfl (hawaits hport).2 fun p hp => ?_)
      obtain rfl : port = p := Option.some.inj (hport.symm.trans hp)
      exact ⟨(hawaits hport).1, .inl (by simpa using hopen)⟩

theorem closed_steady (s : SerialPortStream) (port : ℕ) (error : Option SerialError) :
    Steady k 0 s (s.closed port error) := by
  unfold closed
  split
  · exact _finishClose_steady s error
  · exact (Light.refl k s).steady

theorem closed_sane {port : ℕ} (h : s.port ≠ some port → Sane shut s) (error : Option SerialError) :
    Sane shut (s.closed port error) := by
  unfold closed
  split
  · rename_i hport
    refine _finishClose_sane (fun hnone => ?_) _
    rw [hnone] at hport
    cases hport
  · rename_i hother
    exact h hother

theorem canceled_steady (s : SerialPortStream) (port : ℕ) (cb : Option Callback) (error : Option Thrown) :
    Steady k (weigh k cb) s (s.canceled port cb error) := by
  have hfirst := (callbacks_light k s cb.toList (some openingCanceled)).steady
  rw [sum_toList] at hfirst
  unfold canceled
  simp only
  split
  · exact hfirst.trans (_closeFailed_steady _ _ _)
  split
  · exact hfirst.trans (_finishClose_steady _ _)
  · exact hfirst

theorem canceled_sane {port : ℕ} (h : s.port ≠ some port → Sane shut s)
    (hawaits : s.port = some port → s.awaits port = 0 ∧ s.opening = false) (cb : Option Callback)
    (error : Option Thrown) : Sane shut (s.canceled port cb error) := by
  have hfirst := callbacks_light 0 s cb.toList (some openingCanceled)
  have hother : (s.first (cb.toList.map (callback (some openingCanceled)))).port ≠ some port →
      Sane shut (s.first (cb.toList.map (callback (some openingCanceled)))) := fun hport => hfirst.sane (h hport)
  unfold canceled
  simp only
  split
  · refine _closeFailed_sane hother (fun hport => ?_) _
    rw [hfirst.awaits]
    exact hawaits hport
  split
  · rename_i hport
    refine _finishClose_sane (fun hnone => ?_) _
    rw [hnone] at hport
    cases hport
  · rename_i hport
    exact hother hport

theorem openFailed_steady (s : SerialPortStream) (error : SerialError) (cb : Option Callback) :
    Steady k (weigh k cb) s (s.openFailed error cb) := by
  have hfirst := (callbacks_light k s cb.toList (some error)).steady
  rw [sum_toList] at hfirst
  unfold openFailed
  split
  · exact hfirst.trans (_finishClose_steady _ _)
  · exact (_report_light k s error cb).steady

theorem openFailed_sane (h : s.closing = false → Sane shut s) (error : SerialError) (cb : Option Callback) :
    Sane shut (s.openFailed error cb) := by
  unfold openFailed
  split
  · rename_i hclosing
    refine _finishClose_sane (fun _ hidle => ?_) _
    exact absurd (hclosing.symm.trans hidle) (by simp)
  · rename_i hclosing
    exact (_report_light 0 s error cb).sane (h (by simpa using hclosing))

theorem throw_waits (h : s.waits) (reason : Thrown) : s.throw reason = s := by
  unfold throw
  unfold waits at h
  cases htodo : s.todo with
  | nil =>
    rw [List.dropWhile_nil]
    dsimp only
    rw [← htodo]
  | cons task rest =>
    rw [htodo] at h
    cases task with
    | outside kind =>
      rw [List.dropWhile_cons_of_neg (by simp [Task.catches])]
      dsimp only
      rw [← htodo]
    | _ => cases h

/-- **A request to close.** -/
theorem close_cases (s : SerialPortStream) (cb : Option Callback) (error : Option SerialError) (hwaits : s.opening → s.waits) :
    (∃ message, s.close cb error = s._asyncError message cb) ∨
    (s.closing = false ∧ s.opening ∧ ∃ tasks, (tasks = [] ∨ tasks = [.call .bindingCancel .listener]) ∧ s.close cb error =
      { s with closing := true, _closeError := error, _closeCallbacks := s._closeCallbacks ++ cb.toList }.first tasks) ∨
    ∃ port, s.closing = false ∧ s.opening = false ∧ s.port = some port ∧ s.close cb error =
      ({ s with closing := true, _closeError := error, _closeCallbacks := s._closeCallbacks ++ cb.toList }.await
        (.closing port error)).first [.call (.close port) .binding] := by
  unfold close
  split
  · exact .inl ⟨_, rfl⟩
  split
  · exact .inl ⟨_, rfl⟩
  rename_i hclosing hidle
  rw [Bool.not_eq_true] at hclosing
  refine .inr ?_
  simp only
  split
  · rename_i hopening
    refine .inl ⟨hclosing, hopening, ?_⟩
    split
    · exact ⟨_, .inr rfl, rfl⟩
    · refine ⟨[], .inl rfl, Eq.trans (throw_waits ?_ _) rfl⟩
      exact hwaits hopening
  · rename_i hopening
    rw [Bool.not_eq_true] at hopening
    refine .inr ?_
    have hopen : s.isOpen = true := by simpa [hopening] using hidle
    cases hport : s.port with
    | none =>
      rw [isOpen_of_port hport] at hopen
      cases hopen
    | some port => exact ⟨port, hclosing, hopening, rfl, rfl⟩

theorem cancel_light (k : ℕ) (s : SerialPortStream) {tasks : List Task}
    (h : tasks = [] ∨ tasks = [.call .bindingCancel .listener]) : Light k 0 s (s.first tasks) := by
  rcases h with rfl | rfl
  · exact .refl k s
  · exact call_light k s _ rfl (fun _ => rfl) rfl

theorem close_steady (s : SerialPortStream) (cb : Option Callback) (error : Option SerialError)
    (hwaits : s.opening → s.waits) : Steady k (weigh k cb) s (s.close cb error) := by
  have hload : ({ s with closing := true, _closeError := error, _closeCallbacks := s._closeCallbacks ++ cb.toList } :
      SerialPortStream).load k = s.load k + weigh k cb := by
    simp only [SerialPortStream.load, List.map_append, List.sum_append, sum_toList]
    omega
  obtain ⟨message, heq⟩ | ⟨-, -, tasks, htasks, heq⟩ | ⟨port, -, -, hport, heq⟩ := close_cases s cb error hwaits
  · rw [heq]
    exact (_asyncError_light k s message cb).steady
  · have hfirst := cancel_light k { s with
      closing := true
      _closeError := error
      _closeCallbacks := s._closeCallbacks ++ cb.toList } htasks
    rw [heq]
    refine ⟨rfl, rfl, .inr rfl, ?_, hfirst.closes, fun port => .inl (hfirst.awaits port).le⟩
    rw [hfirst.load, hload]
    rfl
  · rw [heq]
    refine ⟨rfl, ?_, .inr rfl, ?_, fun p => ?_, fun p => ?_⟩
    · simp [SerialPortStream.openings, first, await, Promise.opens]
    · rw [← hload]
      simp [SerialPortStream.load, first, await, Task.weight, Output.weight, Kind.weight, Promise.weight]
    · simp [SerialPortStream.closes, first, await, Task.closed, Task.output?, Output.closed]
      rfl
    · by_cases hsame : port = p
      · exact .inr (hsame ▸ hport)
      · left
        simp [SerialPortStream.awaits, first, await, Task.closes, Kind.closes, Promise.closes, hsame]

theorem close_sane (h : Sane shut s) (cb : Option Callback) (error : Option SerialError)
    (hwaits : s.opening → s.waits) : Sane shut (s.close cb error) := by
  obtain ⟨message, heq⟩ | ⟨hclosing, hopening, tasks, htasks, heq⟩ | ⟨port, hclosing, hopening, hport, heq⟩ :=
    close_cases s cb error hwaits
  · rw [heq]
    exact (_asyncError_light 0 s message cb).sane h
  · rw [heq]
    refine (cancel_light 0 _ htasks).sane ⟨fun _ => .inl hopening, fun _ => rfl, fun port hport => ?_, h.closed, h.replaced⟩
    have honce := h.once port hport
    rw [hclosing] at honce
    exact honce.trans (Nat.zero_le _)
  · rw [heq]
    have hnone : s.awaits port = 0 := by
      have honce := h.once port hport
      rw [hclosing] at honce
      exact Nat.le_zero.1 honce
    have hone : (({ s with closing := true, _closeError := error, _closeCallbacks := s._closeCallbacks ++ cb.toList }.await
        (.closing port error)).first [.call (.close port) .binding]).awaits port = 1 := by
      rw [← Nat.zero_add 1, ← hnone]
      simp [SerialPortStream.awaits, first, await, Task.closes, Kind.closes, Promise.closes, Nat.add_assoc]
    have hof {p : ℕ} (hp : s.port = some p) : port = p := Option.some.inj (hport.symm.trans hp)
    refine ⟨fun _ => .inr (.inr ⟨port, hport, ?_⟩), fun _ => rfl, fun p hp => ?_, fun p hp => ?_, fun hno => ?_⟩
    · rw [hone]
      exact Nat.one_pos
    · obtain rfl := hof hp
      rw [hone]
      show 1 ≤ if !s.opening then 1 else 0
      rw [hopening]
      exact le_rfl
    · obtain rfl := hof hp
      rw [hone]
      exact .inr (.inr Nat.one_pos)
    · exact absurd (hopening.symm.trans hno) Bool.false_ne_true

/-- **`_destroy`.** -/
theorem tearDown_steady (s : SerialPortStream) (error : Option SerialError) (hwaits : s.opening → s.waits) :
    Steady k 0 s (s.tearDown error) := by
  unfold tearDown
  split
  · refine ⟨rfl, rfl, .inr rfl, ?_, fun _ => rfl, fun _ => .inl le_rfl⟩
    simp [SerialPortStream.load, Callback.weight]
  split
  · have hclose := close_steady (k := k) s (some (.destroy error)) none hwaits
    exact hclose
  · exact (callbacks_light k s [.destroy error] none).steady

theorem tearDown_sane (h : Sane shut s) (error : Option SerialError) (hwaits : s.opening → s.waits) :
    Sane shut (s.tearDown error) := by
  unfold tearDown
  split
  · rename_i hclosing
    exact ⟨h.awaited, fun _ => hclosing, h.once, h.closed, h.replaced⟩
  split
  · exact close_sane h _ _ hwaits
  · exact (callbacks_light 0 s [.destroy error] none).sane h

/-- **A port reports that it was closed**, and may say so in the same step. -/
theorem onClose_steady (s : SerialPortStream) (port : ℕ) (error : Option Thrown) (hwaits : s.opening → s.waits) :
    Steady k 0 s (s.onClose port error) := by
  unfold onClose
  split
  · exact (Light.refl k s).steady
  simp only
  split
  · exact close_steady s none _ hwaits
  · exact _finishClose_steady s _

theorem finishClose_present {port : ℕ} (hport : s.port = some port) (error : Option SerialError) :
    Sane shut (s._finishClose error) := by
  refine _finishClose_sane (fun hnone => ?_) error
  rw [hnone] at hport
  cases hport

theorem onClose_sane (h : Sane shut s) (port : ℕ) (error : Option Thrown) (hwaits : s.opening → s.waits) :
    Sane shut (s.onClose port error) := by
  unfold onClose
  split
  · exact h
  · rename_i hport
    rw [not_not] at hport
    simp only
    split
    · exact close_sane h none _ hwaits
    · exact finishClose_present hport _

theorem onClose_closed (h : Sane shut s) (port : ℕ) (error : Option Thrown) :
    Sane shut ((s.setOpen port false).onClose port error) := by
  unfold onClose
  split
  · rename_i hport
    have hother {p : ℕ} (hp : s.port = some p) : p ≠ port := by
      rintro rfl
      exact hport hp
    refine ⟨h.awaited, h.callbacks, h.once, fun p hp => (h.closed p hp).imp_left fun hopen => ?_, h.replaced⟩
    show (if p = port then false else s.ports p) = true
    rw [if_neg (hother hp)]
    exact hopen
  · rename_i hport
    rw [not_not] at hport
    have hshut : (s.setOpen port false).ports port = false := if_pos rfl
    simp only
    split
    · rename_i hopen
      exact absurd (hshut.symm.trans hopen) Bool.false_ne_true
    · exact finishClose_present hport _

theorem _writeError_steady (happart : Apart s) (port write : ℕ) (error : Thrown) :
    Steady k 0 s (s._writeError port write error) := by
  have hfirst : Light k 0 s (s.first [.call (.written write (some (asError error))) .listener]) :=
    call_light k s _ rfl (fun _ => rfl) rfl
  unfold _writeError
  simp only
  split
  · rename_i h
    rw [Bool.and_eq_true] at h
    exact hfirst.steady.trans (close_steady _ none _ fun hopening =>
      absurd ((opening_of_isOpen happart h.2).symm.trans hopening) Bool.false_ne_true)
  · exact hfirst.steady

theorem _writeError_sane (h : Sane shut s) (happart : Apart s) (port write : ℕ) (error : Thrown) :
    Sane shut (s._writeError port write error) := by
  have hfirst : Light 0 0 s (s.first [.call (.written write (some (asError error))) .listener]) :=
    call_light 0 s _ rfl (fun _ => rfl) rfl
  unfold _writeError
  simp only
  split
  · rename_i hcloses
    rw [Bool.and_eq_true] at hcloses
    exact close_sane (hfirst.sane h) none _ fun hopening =>
      absurd ((opening_of_isOpen happart hcloses.2).symm.trans hopening) Bool.false_ne_true
  · exact hfirst.sane h

theorem _readError_steady (happart : Apart s) (port : ℕ) (error : Thrown) (length : ℕ) :
    Steady k 0 s (s._readError port error length) := by
  have hsettled := readSettled_light k s port
  unfold _readError
  simp only
  split
  · rename_i hcloses
    rw [Bool.and_eq_true] at hcloses
    refine hsettled.steady.trans (close_steady _ none _ fun hopening => ?_)
    have hidle := opening_of_isOpen ((readSettled_same s port).frame.apart happart) hcloses.2
    exact absurd (hidle.symm.trans hopening) Bool.false_ne_true
  split
  · exact (hsettled.trans (_read_light k _ _)).steady
  · exact hsettled.steady

theorem _readError_sane (h : Sane shut s) (happart : Apart s) (port : ℕ) (error : Thrown) (length : ℕ) :
    Sane shut (s._readError port error length) := by
  have hsettled := readSettled_light 0 s port
  unfold _readError
  simp only
  split
  · rename_i hcloses
    rw [Bool.and_eq_true] at hcloses
    refine close_sane (hsettled.sane h) none _ fun hopening => ?_
    have hidle := opening_of_isOpen ((readSettled_same s port).frame.apart happart) hcloses.2
    exact absurd (hidle.symm.trans hopening) Bool.false_ne_true
  split
  · exact (hsettled.trans (_read_light 0 _ _)).sane h
  · exact hsettled.sane h

end

end SerialPortStream

end NodeSerialport.Stream
