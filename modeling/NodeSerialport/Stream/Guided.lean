import NodeSerialport.Stream.Lifecycle
import NodeSerialport.Stream.Attached
/-!
# Streams and the port they hold

A call that opens, closes or reads a port is made as soon as it is due, before anything else can happen, and a port that
is open stays the present one until it is closed.

* `Idle`, `Poised` — such a call is the next one to be made;
* `Once` — no close of the present port is outstanding unless the stream is closing;
* `Held`, `Placed` — the present port is open; it still is, or its close is the next call;
* `Tame` — what the functions do that hand over no port;
* `Guided` — the invariant; `Guided.step` — that every step keeps it.
-/

namespace NodeSerialport.Stream

open Parsers (Buffer)
open Binding (SerialError ControlOperation)
open SerialPortStream

variable {s s' s₁ : SerialPortStream} {out : List Output} {k n : ℕ}

/-! ### The next call -/

/-- A call that opens, closes or reads a port. -/
def Output.dispatches : Output → Bool
  | .bindingOpen | .bindingCancel | .close _ | .startReading _ _ | .readChunk _ _ | .read _ _ => true
  | _ => false

def Task.dispatches : Task → Bool
  | .call output _ => output.dispatches
  | _ => false

/-- No such call is to be made. -/
def Idle (todo : List Task) : Prop := ∀ task ∈ todo, task.dispatches = false

/-- **Such a call is the next one**, and what it rests on holds. -/
inductive Poised (s : SerialPortStream) : Prop
  | idle (h : Idle s.todo)
  | opens {rest : List Task} (htodo : s.todo = .call .bindingOpen .opening :: rest) (hrest : Idle rest)
      (hopening : s.opening = true)
  | cancels {rest : List Task} (htodo : s.todo = .call .bindingCancel .listener :: rest) (hrest : Idle rest)
      (hopening : s.opening = true)
  | closes {port : ℕ} {kind : Kind} {rest : List Task} (htodo : s.todo = .call (.close port) kind :: rest)
      (hrest : Idle rest)
  | reads {port length : ℕ} {kind : Kind} {rest : List Task} (htodo : s.todo = .call (.startReading port length) kind :: rest)
      (hrest : Idle rest) (hopen : s.openPort = some port)

theorem Poised.rest (h : Poised s) {task : Task} {rest : List Task} (htodo : s.todo = task :: rest) : Idle rest := by
  have hcons {task' : Task} {rest' : List Task} (htodo' : s.todo = task' :: rest') (hrest' : Idle rest') : Idle rest := by
    obtain ⟨-, rfl⟩ := List.cons.inj (htodo.symm.trans htodo')
    exact hrest'
  cases h with
  | idle h => exact fun other hmem => h other (htodo ▸ List.mem_cons_of_mem _ hmem)
  | opens htodo' hrest => exact hcons htodo' hrest
  | cancels htodo' hrest => exact hcons htodo' hrest
  | closes htodo' hrest => exact hcons htodo' hrest
  | reads htodo' hrest => exact hcons htodo' hrest

theorem Poised.waits (h : Poised s) (hwaits : s.waits) : Idle s.todo := by
  have hcall {output : Output} {kind : Kind} {rest : List Task} (htodo : s.todo = .call output kind :: rest) :
      Idle s.todo := by
    rw [SerialPortStream.waits, htodo] at hwaits
    cases hwaits
  cases h with
  | idle h => exact h
  | opens htodo => exact hcall htodo
  | cancels htodo => exact hcall htodo
  | closes htodo => exact hcall htodo
  | reads htodo => exact hcall htodo

theorem Idle.first (h : Idle s.todo) {tasks : List Task} (htasks : Idle tasks) : Idle (s.first tasks).todo := by
  intro task hmem
  exact (List.mem_append.1 hmem).elim (htasks task) (h task)

theorem Idle.call (h : Idle s.todo) {output : Output} {kind : Kind} (houtput : output.dispatches = false) :
    Idle (s.first [.call output kind]).todo :=
  h.first fun task hmem => by rw [List.mem_singleton.1 hmem]; exact houtput

theorem callback_idle (error : Option SerialError) (cb : Callback) : (callback error cb).dispatches = false := by
  cases cb <;> rfl

theorem callbacks_idle (error : Option SerialError) (cbs : List Callback) : Idle (cbs.map (callback error)) := by
  intro task hmem
  obtain ⟨cb, -, rfl⟩ := List.mem_map.1 hmem
  exact callback_idle error cb

namespace SerialPortStream

theorem _report_idle (h : Idle s.todo) (error : SerialError) (cb : Option Callback) : Idle (s._report error cb).todo := by
  cases cb with
  | none => exact h.call rfl
  | some cb => exact h.first (callbacks_idle _ [cb])

theorem throw_idle (h : Idle s.todo) (reason : Thrown) : Idle (s.throw reason).todo := by
  have hdrop : Idle (s.todo.dropWhile fun task => !task.catches) :=
    fun task hmem => h task ((List.dropWhile_sublist _).subset hmem)
  unfold throw
  split
  · rename_i rest hcaught
    rw [hcaught] at hdrop
    exact fun task hmem => hdrop task (List.mem_cons_of_mem _ hmem)
  · exact hdrop

theorem closeCalls_idle (s : SerialPortStream) (error : Option SerialError) : Idle (s.closeCalls error) := by
  intro task hmem
  rcases List.mem_append.1 hmem with hmem | hmem
  · rcases List.mem_append.1 hmem with hmem | hmem
    · rw [List.mem_singleton.1 hmem]
      rfl
    · split at hmem
      · rw [List.mem_singleton.1 hmem]
        rfl
      · cases hmem
  · exact callbacks_idle _ _ task hmem

theorem failedCalls_idle (s : SerialPortStream) (failure : SerialError) : Idle (s.failedCalls failure) := by
  intro task hmem
  rcases List.mem_append.1 hmem with hmem | hmem
  · split at hmem
    · rw [List.mem_singleton.1 hmem]
      rfl
    · exact callbacks_idle _ _ task hmem
  · rw [List.mem_singleton.1 hmem]
    rfl

theorem _finishClose_idle (h : Idle s.todo) (error : Option SerialError) : Idle (s._finishClose error).todo := by
  unfold _finishClose
  split
  · exact h
  · exact Idle.first (s := { s with
      _closeError := none, port := none, closing := false, _readPort := none, _readRequested := true,
      _closeCallbacks := [] }) h (closeCalls_idle s _)

theorem _closeFailed_idle (h : Idle s.todo) (port : ℕ) (error : Thrown) : Idle (s._closeFailed port error).todo := by
  unfold _closeFailed
  split
  · exact h
  split
  · exact _finishClose_idle h _
  · exact Idle.first (s := { s with closing := false, _closeError := none, _closeCallbacks := [] }) h (failedCalls_idle s _)

theorem closed_idle (h : Idle s.todo) (port : ℕ) (error : Option SerialError) : Idle (s.closed port error).todo := by
  unfold closed
  split
  · exact _finishClose_idle h _
  · exact h

theorem canceled_idle (h : Idle s.todo) (port : ℕ) (cb : Option Callback) (error : Option Thrown) :
    Idle (s.canceled port cb error).todo := by
  have hfirst := h.first (callbacks_idle (some openingCanceled) cb.toList)
  unfold canceled
  simp only
  split
  · exact _closeFailed_idle hfirst _ _
  split
  · exact _finishClose_idle hfirst _
  · exact hfirst

theorem openFailed_idle (h : Idle s.todo) (error : SerialError) (cb : Option Callback) :
    Idle (s.openFailed error cb).todo := by
  unfold openFailed
  split
  · exact _finishClose_idle (h.first (callbacks_idle _ _)) _
  · exact _report_idle h _ _

theorem _failWaitingWrite_idle (h : Idle s.todo) (error : SerialError) : Idle (s._failWaitingWrite error).todo := by
  obtain ⟨-, heq⟩ | ⟨write, data, -, heq⟩ := _failWaitingWrite_cases s error
  · rw [heq]
    exact h
  · rw [heq]
    exact Idle.call (s := { s with _waitingWrite := none }) h rfl

theorem _write_idle (h : Idle s.todo) (write : ℕ) (data : Buffer) : Idle (s._write write data).todo := by
  obtain ⟨-, heq⟩ | ⟨port, -, -, heq⟩ := _write_cases s write data
  · rw [heq]
    exact h
  · rw [heq]
    exact Idle.call (s := s.await (.writing port write)) h rfl

theorem _writev_idle (h : Idle s.todo) (write : ℕ) (chunks : List Buffer) : Idle (s._writev write chunks).todo := by
  obtain heq | ⟨port, -, -, heq⟩ := _writev_cases s write chunks
  · rw [heq]
    exact _write_idle h write _
  · rw [heq]
    exact Idle.call (s := s.await (.writing port write)) h rfl

theorem _operation_idle (h : Idle s.todo) (operation : ControlOperation) (baudRate : Option ℕ) (cb : Option Callback) :
    Idle (s._operation operation baudRate cb).todo := by
  unfold _operation
  split
  · exact h
  · rename_i port _
    exact Idle.call (s := s.await (.operating port operation baudRate cb)) h rfl

theorem operated_idle (h : Idle s.todo) (port : ℕ) (operation : ControlOperation) (baudRate : Option ℕ)
    (cb : Option Callback) : Idle (s.operated port operation baudRate cb).todo := by
  unfold operated
  simp only
  split
  · exact Idle.first (s := { s with baudRate := baudRate }) h (callbacks_idle _ _)
  · exact h.first (callbacks_idle _ _)

theorem onData_idle (h : Idle s.todo) (port : ℕ) (data : Buffer) : Idle (s.onData port data).todo := by
  obtain ⟨-, -, heq⟩ | ⟨-, heq⟩ := onData_cases s port data
  · rw [heq]
    exact Idle.call (s := { s with _readRequested := false }) h rfl
  · rw [heq]
    exact h

theorem _read_poised (hfeatures : ∀ port, (s.features port).startReading) (h : Idle s.todo) (length : ℕ) :
    Poised (s._read length) := by
  obtain ⟨-, heq⟩ | ⟨port, hopen, hport, -, heq⟩ | ⟨port, output, -, -, -, hfeature, -⟩ := _read_cases s length
  · rw [heq]
    exact .idle h
  · rw [heq]
    exact .reads rfl h (openPort_eq_some.2 ⟨hopen, hport⟩)
  · rw [hfeatures port] at hfeature
    cases hfeature

theorem resumeRead_poised (hfeatures : ∀ port, (s.features port).startReading) (h : Idle s.todo) :
    Poised s.resumeRead := by
  unfold SerialPortStream.resumeRead
  split
  · exact _read_poised hfeatures h _
  · exact .idle h

theorem _resumeIO_poised (hfeatures : ∀ port, (s.features port).startReading) (h : Idle s.todo) :
    Poised ( _resumeIO s) := by
  unfold _resumeIO
  split
  · exact .idle h
  split
  · exact resumeRead_poised hfeatures h
  · refine .idle (_write_idle (Idle.first (s := { s with _waitingWrite := none }) h fun task hmem => ?_) _ _)
    rw [List.mem_singleton.1 hmem]
    rfl

theorem close_poised (h : Idle s.todo) (cb : Option Callback) (error : Option SerialError) (hwaits : s.opening → s.waits) :
    Poised (s.close cb error) := by
  obtain ⟨message, heq⟩ | ⟨-, hopening, tasks, htasks, heq⟩ | ⟨port, -, -, -, heq⟩ := close_cases s cb error hwaits
  · rw [heq]
    exact .idle h
  · rw [heq]
    rcases htasks with rfl | rfl
    · exact .idle h
    · exact .cancels rfl h hopening
  · rw [heq]
    exact .closes rfl h

theorem tearDown_poised (h : Idle s.todo) (error : Option SerialError) (hwaits : s.opening → s.waits) :
    Poised (s.tearDown error) := by
  unfold tearDown
  split
  · exact .idle h
  split
  · exact close_poised h _ _ hwaits
  · exact .idle (h.first (callbacks_idle none [.destroy error]))

theorem onClose_poised (h : Idle s.todo) (port : ℕ) (error : Option Thrown) (hwaits : s.opening → s.waits) :
    Poised (s.onClose port error) := by
  unfold onClose
  split
  · exact .idle h
  simp only
  split
  · exact close_poised h _ _ hwaits
  · exact .idle (_finishClose_idle h _)

theorem _writeError_poised (h : Idle s.todo) (happart : Apart s) (port write : ℕ) (error : Thrown) :
    Poised (s._writeError port write error) := by
  have hfirst : Idle (s.first [.call (.written write (some (asError error))) .listener]).todo := h.call rfl
  unfold _writeError
  simp only
  split
  · rename_i hcloses
    rw [Bool.and_eq_true] at hcloses
    exact close_poised hfirst _ _ fun hopening =>
      absurd ((opening_of_isOpen happart hcloses.2).symm.trans hopening) Bool.false_ne_true
  · exact .idle hfirst

theorem readSettled_todo (s : SerialPortStream) (port : ℕ) : (s.readSettled port).todo = s.todo := by
  unfold readSettled
  split <;> rfl

theorem readSettled_features (s : SerialPortStream) (port : ℕ) : (s.readSettled port).features = s.features :=
  (readSettled_same s port).frame.features

theorem _readError_poised (hfeatures : ∀ port, (s.features port).startReading) (h : Idle s.todo) (happart : Apart s)
    (port : ℕ) (error : Thrown) (length : ℕ) : Poised (s._readError port error length) := by
  rw [← readSettled_todo s port] at h
  rw [← readSettled_features s port] at hfeatures
  unfold _readError
  simp only
  split
  · rename_i hcloses
    rw [Bool.and_eq_true] at hcloses
    refine close_poised h _ _ fun hopening => ?_
    have hidle := opening_of_isOpen ((readSettled_same s port).frame.apart happart) hcloses.2
    exact absurd (hidle.symm.trans hopening) Bool.false_ne_true
  split
  · exact _read_poised hfeatures h _
  · exact .idle h

theorem received_poised (hfeatures : ∀ port, (s.features port).startReading) (h : Idle s.todo) (port length : ℕ)
    (data : Buffer) : Poised (s.received port length data) := by
  rw [← readSettled_todo s port] at h
  rw [← readSettled_features s port] at hfeatures
  unfold received
  simp only
  split
  · exact .idle (Idle.call (s := { s.readSettled port with _readRequested := false }) h rfl)
  split
  · exact _read_poised hfeatures h _
  · exact .idle h

theorem open_cases (s : SerialPortStream) (cb : Option Callback) :
    (∃ message, s.open cb = s._asyncError message cb) ∨
    s.opening = false ∧ s.closing = false ∧ s.isOpen = false ∧
      s.open cb = ({ s with opening := true }.await (.opening cb)).first [.call .bindingOpen .opening] := by
  unfold SerialPortStream.open
  split
  · exact .inl ⟨_, rfl⟩
  split
  · exact .inl ⟨_, rfl⟩
  split
  · exact .inl ⟨_, rfl⟩
  · rename_i hopen hbusy
    simp only [Bool.or_eq_true, not_or, Bool.not_eq_true] at hbusy hopen
    exact .inr ⟨hbusy.1, hbusy.2, hopen, rfl⟩

theorem opened_idle (h : Idle s.todo) (port : ℕ) (isOpen : Bool) (cb : Option Callback) :
    Idle (s.opened port isOpen cb).todo := by
  unfold opened
  simp only
  split
  · refine _failWaitingWrite_idle (Idle.first (s := s.connect port isOpen) h fun task hmem => ?_) _
    simp only [List.mem_cons, List.not_mem_nil, or_false] at hmem
    rcases hmem with rfl | rfl <;> rfl
  · refine Idle.first (s := s.connect port isOpen) h fun task hmem => ?_
    rcases List.mem_cons.1 hmem with rfl | hmem
    · rfl
    rcases List.mem_append.1 hmem with hmem | hmem
    · exact callbacks_idle _ _ task hmem
    · simp only [List.mem_cons, List.not_mem_nil, or_false] at hmem
      rcases hmem with rfl | rfl <;> rfl

theorem rejected_idle (h : Idle s.todo) (reason : Thrown) (cb : Option Callback) : Idle (s.rejected reason cb).todo := by
  unfold rejected
  refine _failWaitingWrite_idle (Idle.first (s := { s with _opening := false, opening := false }) h fun task hmem => ?_) _
  simp only [List.mem_cons, List.not_mem_nil, or_false] at hmem
  rcases hmem with rfl | rfl <;> rfl

end SerialPortStream

/-! ### The present port -/

/-- No close of the present port is outstanding unless the stream is closing, and then one. -/
def Once (s : SerialPortStream) : Prop := ∀ port, s.port = some port → s.awaits port ≤ if s.closing then 1 else 0

/-- The present port is open, and nobody closes it. -/
structure Held (p : ℕ) (s : SerialPortStream) : Prop where
  port : s.port = some p
  isOpen : s.ports p = true
  closing : s.closing = false

/-- It is still the present one; its close is the next call, if the stream is closing. -/
structure Placed (p : ℕ) (s : SerialPortStream) : Prop where
  port : s.port = some p
  closes : s.closing = false ∨ ∃ kind rest, s.todo = .call (.close p) kind :: rest

/-- What a function does that hands over no port. -/
structure Tame (s s' : SerialPortStream) : Prop where
  features : s'.features = s.features
  opening : s'.opening = s.opening
  openings : s'.openings = s.openings
  ports : s'.ports = s.ports
  port : s'.port = none ∨ s'.port = s.port
  known : ∀ port, s'.port = some port ∨ 0 < s'.awaits port → s.port = some port ∨ 0 < s.awaits port
  once : Once s → Once s'
  held : ∀ port, Held port s → Placed port s'

theorem Light.once (h : Light k n s s') (hs : Once s) : Once s' := by
  intro port hport
  rw [h.awaits, h.closing]
  exact hs port (h.port ▸ hport)

theorem Light.held (h : Light k n s s') {port : ℕ} (hs : Held port s) : Held port s' :=
  ⟨h.port.trans hs.port, (congrFun h.ports port).trans hs.isOpen, h.closing.trans hs.closing⟩

theorem Held.placed {port : ℕ} (h : Held port s) : Placed port s := ⟨h.port, .inl h.closing⟩

theorem Steady.known (h : Steady k n s s') (port : ℕ) (hknown : s'.port = some port ∨ 0 < s'.awaits port) :
    s.port = some port ∨ 0 < s.awaits port := by
  rcases hknown with hport | hawaits
  · rcases h.port with hnone | hsame
    · rw [hnone] at hport
      cases hport
    · exact .inl (hsame ▸ hport)
  · rcases h.awaits port with hle | hport
    · exact .inr (Nat.lt_of_lt_of_le hawaits hle)
    · exact .inl hport

namespace Tame

theorem of_light (h : Light k n s s') (hfeatures : s'.features = s.features) : Tame s s' :=
  ⟨hfeatures, h.opening, h.openings, h.ports, .inr h.port, fun port => h.steady.known port, h.once,
    fun _ hs => (h.held hs).placed⟩

theorem refl (s : SerialPortStream) : Tame s s := .of_light (.refl 0 s) rfl

theorem after (h : Light k n s s₁) (hfeatures : s₁.features = s.features) (h' : Tame s₁ s') : Tame s s' where
  features := h'.features.trans hfeatures
  opening := h'.opening.trans h.opening
  openings := h'.openings.trans h.openings
  ports := h'.ports.trans h.ports
  port := h'.port.imp_right fun hsame => hsame.trans h.port
  known := fun port hknown => h.steady.known port (h'.known port hknown)
  once := fun hs => h'.once (h.once hs)
  held := fun port hs => h'.held port (h.held hs)

theorem of_steady (h : Steady k n s s') (hfeatures : s'.features = s.features) (hports : s'.ports = s.ports)
    (honce : Once s → Once s') (hheld : ∀ port, Held port s → Placed port s') : Tame s s' :=
  ⟨hfeatures, h.opening, h.openings, hports, h.port, h.known, honce, hheld⟩

end Tame

namespace SerialPortStream

theorem first_tame (s : SerialPortStream) {tasks : List Task} (h : ∀ task ∈ tasks, task.Light) : Tame s (s.first tasks) :=
  .of_light (.first 0 s tasks h) rfl

theorem callbacks_tame (s : SerialPortStream) (error : Option SerialError) (cbs : List Callback) :
    Tame s (s.first (cbs.map (callback error))) := .of_light (callbacks_light 0 s cbs error) rfl

theorem _report_tame (s : SerialPortStream) (error : SerialError) (cb : Option Callback) :
    Tame s (s._report error cb) := .of_light (_report_light 0 s error cb) (_report_quiet s error cb).frame.features

theorem _asyncError_tame (s : SerialPortStream) (message : String) (cb : Option Callback) :
    Tame s (s._asyncError message cb) := .of_light (_asyncError_light 0 s message cb) rfl

theorem _failWaitingWrite_tame (s : SerialPortStream) (error : SerialError) : Tame s (s._failWaitingWrite error) := by
  refine .of_light (_failWaitingWrite_light 0 s error) ?_
  unfold _failWaitingWrite
  split <;> rfl

theorem _write_tame (s : SerialPortStream) (write : ℕ) (data : Buffer) : Tame s (s._write write data) :=
  .of_light (_write_light 0 s write data) (_write_undisturbed s write data).features

theorem _writev_tame (s : SerialPortStream) (write : ℕ) (chunks : List Buffer) : Tame s (s._writev write chunks) :=
  .of_light (_writev_light 0 s write chunks) (_writev_undisturbed s write chunks).features

theorem _operation_tame (s : SerialPortStream) (operation : ControlOperation) (baudRate : Option ℕ) (cb : Option Callback) :
    Tame s (s._operation operation baudRate cb) :=
  .of_light (_operation_light 0 s operation baudRate cb) (_operation_quiet s operation baudRate cb).frame.features

theorem operated_tame (s : SerialPortStream) (port : ℕ) (operation : ControlOperation) (baudRate : Option ℕ)
    (cb : Option Callback) : Tame s (s.operated port operation baudRate cb) :=
  .of_light (operated_light 0 s port operation baudRate cb) (operated_quiet s port operation baudRate cb).frame.features

theorem onData_tame (s : SerialPortStream) (port : ℕ) (data : Buffer) : Tame s (s.onData port data) :=
  .of_light (onData_light 0 s port data) (onData_undisturbed s port data).features

theorem _read_features (s : SerialPortStream) (length : ℕ) : (s._read length).features = s.features := by
  obtain ⟨-, heq⟩ | ⟨port, -, -, -, heq⟩ | ⟨port, output, -, -, -, -, heq, -⟩ := _read_cases s length <;> rw [heq] <;> rfl

theorem _read_tame (s : SerialPortStream) (length : ℕ) : Tame s (s._read length) :=
  .of_light (_read_light 0 s length) (_read_features s length)

theorem resumeRead_tame (s : SerialPortStream) : Tame s s.resumeRead := by
  unfold SerialPortStream.resumeRead
  split
  · exact _read_tame s _
  · exact .refl s

theorem _resumeIO_tame (s : SerialPortStream) : Tame s ( _resumeIO s) := by
  refine .of_light (_resumeIO_light 0 s) ?_
  obtain ⟨-, heq⟩ | ⟨-, -, -, heq⟩ | ⟨port, write, data, -, -, -, -, heq⟩ := _resumeIO_cases s
  · rw [heq]
  · rw [heq]
    exact (resumeRead_tame s).features
  · rw [heq]
    rfl

theorem received_tame (s : SerialPortStream) (port length : ℕ) (data : Buffer) : Tame s (s.received port length data) := by
  refine .of_light (received_light 0 s port length data) ?_
  unfold received
  simp only
  split
  · exact readSettled_features s port
  split
  · exact (_read_features _ length).trans (readSettled_features s port)
  · exact readSettled_features s port

/-! ### Functions that close -/

theorem _finishClose_tame (error : Option SerialError) (h : ∀ port, ¬Held port s) : Tame s (s._finishClose error) := by
  refine .of_steady (k := 0) (_finishClose_steady s error) ?_ ?_ (fun hs => ?_) fun port hheld => absurd hheld (h port)
  · unfold _finishClose
    split <;> rfl
  · unfold _finishClose
    split <;> rfl
  · unfold _finishClose
    split
    · exact hs
    · exact fun port hport => nomatch hport

theorem _closeFailed_tame {port : ℕ} (h : s.port = some port → s.closing = true ∧ s.awaits port = 0) (error : Thrown) :
    Tame s (s._closeFailed port error) := by
  have hheld (p : ℕ) (hp : s.port = some port) : ¬Held p s := fun hheld =>
    absurd ((h hp).1.symm.trans hheld.closing) nofun
  by_cases hport : s.port = some port
  · by_cases hopen : s.ports port = true
    · have heq : s._closeFailed port error = { s with closing := false, _closeError := none, _closeCallbacks := [] }.first
          (s.failedCalls (asError error)) := by simp [_closeFailed, hport, hopen]
      have hfirst := Light.first 0 { s with closing := false, _closeError := none, _closeCallbacks := [] }
        (s.failedCalls (asError error)) (failedCalls_light s _)
      refine .of_steady (k := 0) (_closeFailed_steady s port error) ?_ ?_ (fun hs p hp => ?_) fun p hs => absurd hs (hheld p hport)
      · rw [heq]
        rfl
      · rw [heq]
        rfl
      · rw [heq] at hp ⊢
        obtain rfl : port = p := Option.some.inj (hport.symm.trans hp)
        rw [hfirst.awaits]
        exact (h hport).2.le.trans (Nat.zero_le _)
    · have heq : s._closeFailed port error = s._finishClose (some (asError error)) := by simp [_closeFailed, hport, hopen]
      rw [heq]
      exact _finishClose_tame _ fun p => hheld p hport
  · have heq : s._closeFailed port error = s := by simp [_closeFailed, hport]
    rw [heq]
    exact .refl s

theorem closed_tame {port : ℕ} (h : s.port = some port → s.closing = true) (error : Option SerialError) :
    Tame s (s.closed port error) := by
  unfold closed
  split
  · rename_i hport
    exact _finishClose_tame error fun p hheld => absurd ((h hport).symm.trans hheld.closing) nofun
  · exact .refl s

theorem canceled_tame {port : ℕ} (h : s.port = some port → s.closing = true ∧ s.awaits port = 0) (cb : Option Callback)
    (error : Option Thrown) : Tame s (s.canceled port cb error) := by
  have hlight := callbacks_light 0 s cb.toList (some openingCanceled)
  refine .after hlight rfl ?_
  unfold canceled
  simp only
  split
  · refine _closeFailed_tame (fun hport => ?_) _
    rw [hlight.awaits]
    exact h hport
  · exact closed_tame (s := s.first (cb.toList.map (callback (some openingCanceled)))) (fun hport => (h hport).1) none

theorem openFailed_tame (s : SerialPortStream) (error : SerialError) (cb : Option Callback) :
    Tame s (s.openFailed error cb) := by
  unfold openFailed
  split
  · rename_i hclosing
    refine .after (callbacks_light 0 s cb.toList (some error)) rfl (_finishClose_tame none fun port hheld => ?_)
    exact absurd (hclosing.symm.trans hheld.closing) nofun
  · exact _report_tame s error cb

theorem close_tame (s : SerialPortStream) (cb : Option Callback) (error : Option SerialError) (happart : Apart s)
    (hwaits : s.opening → s.waits) : Tame s (s.close cb error) := by
  obtain ⟨message, heq⟩ | ⟨hclosing, hopening, tasks, htasks, heq⟩ | ⟨port, hclosing, hopening, hport, heq⟩ :=
    close_cases s cb error hwaits
  · rw [heq]
    exact _asyncError_tame s message cb
  · have hlight := cancel_light 0 { s with
      closing := true
      _closeError := error
      _closeCallbacks := s._closeCallbacks ++ cb.toList } htasks
    refine .of_steady (close_steady (k := 0) s cb error hwaits) ?_ ?_ (fun hs p hp => ?_) fun p hheld => ?_
    · rw [heq]
      rfl
    · rw [heq]
      rfl
    · rw [heq] at hp ⊢
      rw [hlight.awaits]
      have honce := hs p hp
      rw [hclosing] at honce
      exact honce.trans (Nat.zero_le _)
    · -- the present port is closed while another one is being opened
      have hshut := happart hopening
      rw [hheld.port, Option.any_some, hheld.isOpen] at hshut
      cases hshut
  · refine .of_steady (close_steady (k := 0) s cb error hwaits) ?_ ?_ (fun hs p hp => ?_) fun p hheld => ?_
    · rw [heq]
      rfl
    · rw [heq]
      rfl
    · rw [heq] at hp ⊢
      obtain rfl : port = p := Option.some.inj (hport.symm.trans hp)
      have honce := hs port hport
      rw [hclosing] at honce
      show (Task.call (.close port) .binding :: s.todo).countP (Task.closes port) +
        (s.promises ++ [Promise.closing port error]).countP (Promise.closes port) ≤ 1
      have hnone : s.todo.countP (Task.closes port) + s.promises.countP (Promise.closes port) = 0 := Nat.le_zero.1 honce
      simp only [List.countP_cons, List.countP_append, Task.closes, Kind.closes, Promise.closes, List.countP_nil]
      simp
      omega
    · rw [heq]
      obtain rfl : port = p := Option.some.inj (hport.symm.trans hheld.port)
      exact ⟨hport, .inr ⟨_, _, rfl⟩⟩

theorem tearDown_tame (s : SerialPortStream) (error : Option SerialError) (happart : Apart s)
    (hwaits : s.opening → s.waits) : Tame s (s.tearDown error) := by
  unfold tearDown
  split
  · rename_i hclosing
    refine ⟨rfl, rfl, rfl, rfl, .inr rfl, fun port => id, id, fun port hheld => ?_⟩
    exact absurd (hclosing.symm.trans hheld.closing) nofun
  split
  · exact close_tame s _ _ happart hwaits
  · exact callbacks_tame s none [.destroy error]

theorem onClose_tame (s : SerialPortStream) (port : ℕ) (error : Option Thrown) (happart : Apart s)
    (hwaits : s.opening → s.waits) : Tame s (s.onClose port error) := by
  unfold onClose
  split
  · exact .refl s
  · rename_i hport
    rw [not_not] at hport
    simp only
    split
    · exact close_tame s none _ happart hwaits
    · rename_i hshut
      refine _finishClose_tame _ fun p hheld => ?_
      obtain rfl : port = p := Option.some.inj (hport.symm.trans hheld.port)
      exact hshut hheld.isOpen

theorem _writeError_tame (s : SerialPortStream) (happart : Apart s) (port write : ℕ) (error : Thrown) :
    Tame s (s._writeError port write error) := by
  have hfirst : Light 0 0 s (s.first [.call (.written write (some (asError error))) .listener]) :=
    call_light 0 s _ rfl (fun _ => rfl) rfl
  refine .after hfirst rfl ?_
  unfold _writeError
  simp only
  split
  · rename_i h
    rw [Bool.and_eq_true] at h
    refine close_tame _ none _ happart fun hopening => ?_
    exact absurd ((opening_of_isOpen happart h.2).symm.trans hopening) Bool.false_ne_true
  · exact .refl _

theorem _readError_tame (s : SerialPortStream) (happart : Apart s) (port : ℕ) (error : Thrown) (length : ℕ) :
    Tame s (s._readError port error length) := by
  have happart' := (readSettled_same s port).frame.apart happart
  refine .after (readSettled_light 0 s port) (readSettled_features s port) ?_
  unfold _readError
  simp only
  split
  · rename_i h
    rw [Bool.and_eq_true] at h
    refine close_tame _ none _ happart' fun hopening => ?_
    exact absurd ((opening_of_isOpen happart' h.2).symm.trans hopening) Bool.false_ne_true
  split
  · exact _read_tame _ length
  · exact .refl _

end SerialPortStream

/-! ### Steps -/

theorem awaits_first (s : SerialPortStream) (tasks : List Task) (port : ℕ) :
    (s.first tasks).awaits port = tasks.countP (Task.closes port) + s.awaits port := by
  rw [SerialPortStream.awaits, SerialPortStream.awaits, SerialPortStream.first, List.countP_append, Nat.add_assoc]

theorem call_catch (s : SerialPortStream) : Light 0 0 s (s.first [.catchOpen]) :=
  .first 0 s [.catchOpen] fun task hmem => by
    rw [List.mem_singleton.1 hmem]
    exact ⟨fun _ => rfl, fun _ => rfl, rfl⟩

theorem catchOpen_idle : Idle [.catchOpen] := fun task hmem => by
  rw [List.mem_singleton.1 hmem]
  rfl

/-- **What a stream over its ports keeps.** -/
structure Guided (s : SerialPortStream) : Prop where
  sound : Sound false s
  /-- The ports are asked for their data as they come. -/
  features : ∀ port, (s.features port).startReading
  poised : Poised s
  openings : s.openings = if s.opening then 1 else 0
  once : Once s

/-- A port that is handed over was not known before. -/
def SerialPortStream.Fresh (s : SerialPortStream) : Input → Prop
  | .settle _ (.port port _) => s.awaits port = 0
  | _ => True

/-- The stream is not told of its ports. -/
def Input.own : Input → Bool
  | .isOpen _ _ | .enter (.onClose _ _ true) => false
  | _ => true

/-- The port an input hands over. -/
def Input.hands? : Input → Option (ℕ × Bool)
  | .settle _ (.port port value) => some (port, value)
  | _ => none

/-- What one step does to the ports. -/
structure Steers (s : SerialPortStream) (input : Input) (out : List Output) (s' : SerialPortStream) : Prop where
  guided : Guided s'
  ports : s'.ports = s.ports ∨ ∃ port isOpen, input.hands? = some (port, isOpen) ∧ s.opening = true ∧
    s'.port = some port ∧ s'.ports = (s.setOpen port isOpen).ports
  port : ∀ port, s'.port = some port → s.port = some port ∨ ∃ isOpen, input.hands? = some (port, isOpen)
  known : ∀ port, s'.port = some port ∨ 0 < s'.awaits port → (s.port = some port ∨ 0 < s.awaits port) ∨
    s.opening = true ∧ s'.opening = false ∧ ∃ isOpen, input.hands? = some (port, isOpen)
  held : ∀ port, Held port s → Placed port s'
  dials : (if s'.opening then 1 else 0) + s.dials ≤ (if s.opening then 1 else 0) + s'.dials + out.countP Output.dials

theorem Idle.dials {todo : List Task} (h : Idle todo) : todo.countP Task.dials = 0 := by
  rw [List.countP_eq_zero]
  intro task hmem
  have hidle := h task hmem
  cases task with
  | call output kind => cases output <;> first | exact Bool.false_ne_true | cases hidle
  | _ => exact Bool.false_ne_true

/-- A state a function starts in. -/
structure Leads (s s₁ : SerialPortStream) : Prop where
  features : s₁.features = s.features
  opening : s₁.opening = s.opening
  closing : s₁.closing = s.closing
  port : s₁.port = s.port
  ports : s₁.ports = s.ports
  openings : s₁.openings = s.openings
  awaits : ∀ port, s₁.awaits port ≤ s.awaits port

namespace Leads

theorem refl (s : SerialPortStream) : Leads s s := ⟨rfl, rfl, rfl, rfl, rfl, rfl, fun _ => le_rfl⟩

theorem popped {task : Task} {rest : List Task} (htodo : s.todo = task :: rest) : Leads s { s with todo := rest } := by
  refine ⟨rfl, rfl, rfl, rfl, rfl, rfl, fun port => ?_⟩
  have hsub : rest.Sublist s.todo := htodo ▸ List.sublist_cons_self task rest
  exact Nat.add_le_add_right (hsub.countP_le) _

theorem erased {index : ℕ} {promise : Promise} (hpromise : s.promises[index]? = some promise)
    (hopens : promise.opens = false) : Leads s { s with promises := s.promises.eraseIdx index } := by
  refine ⟨rfl, rfl, rfl, rfl, rfl, ?_, fun port => ?_⟩
  · obtain ⟨before, after, heq, herase⟩ := eq_of_getElem? hpromise
    show (s.promises.eraseIdx index).countP Promise.opens = s.promises.countP Promise.opens
    rw [herase, heq, List.countP_append, List.countP_append, List.countP_cons_of_neg (by simp [hopens])]
  · rw [awaits_erased hpromise port]
    exact Nat.le_add_right _ _

theorem once (h : Leads s s₁) (hs : Once s) : Once s₁ := by
  intro port hport
  rw [h.closing]
  exact (h.awaits port).trans (hs port (h.port ▸ hport))

theorem held (h : Leads s s₁) {port : ℕ} (hs : Held port s) : Held port s₁ :=
  ⟨h.port.trans hs.port, (congrFun h.ports port).trans hs.isOpen, h.closing.trans hs.closing⟩

end Leads

namespace Guided

theorem tame (h : Guided s) {input : Input} (hleads : Leads s s₁) (htame : Tame s₁ s') (hsound : Sound false s')
    (hpoised : Poised s') (hdials : s.dials ≤ s'.dials + out.countP Output.dials) : Steers s input out s' := by
  have hopening : s'.opening = s.opening := htame.opening.trans hleads.opening
  refine ⟨⟨hsound, ?_, hpoised, ?_, htame.once (hleads.once h.once)⟩, .inl (htame.ports.trans hleads.ports), fun port hport => .inl ?_,
    fun port hknown => .inl ?_, fun port hheld => htame.held port (hleads.held hheld), ?_⟩
  · rw [htame.features, hleads.features]
    exact h.features
  · rw [htame.openings, hleads.openings, hopening]
    exact h.openings
  · rcases htame.port with hnone | hsame
    · rw [hnone] at hport
      cases hport
    · rw [← hleads.port, ← hsame]
      exact hport
  · exact (htame.known port hknown).imp (fun hport => hleads.port.symm.trans hport)
      fun hpos => Nat.lt_of_lt_of_le hpos (hleads.awaits port)
  · rw [hopening]
    omega

theorem enter (h : Guided s) {entry : Entry} (hwaits : s.waits) (hown : (Input.enter entry).own = true)
    (hsound : Sound false s') (hstep : s.enter entry = some (s', out)) : Steers s (.enter entry) out s' := by
  have hidle := h.poised.waits hwaits
  have hnone : s.dials = 0 := hidle.dials
  have hdials : s.dials ≤ s'.dials + out.countP Output.dials := by
    rw [hnone]
    exact Nat.zero_le _
  cases entry with
  | «open» cb =>
    cases hstep
    have hadv := open_advances 0 s cb
    rcases open_cases s (cb.map .user) with ⟨message, heq⟩ | ⟨hopening, -, -, heq⟩
    · rw [heq] at hsound hdials ⊢
      exact h.tame (.refl s) (_asyncError_tame s message _) hsound (.idle hidle) hdials
    · rw [heq] at hadv hsound ⊢
      have hawaits (port : ℕ) : (({ s with opening := true }.await (.opening (cb.map .user))).first
          [.call .bindingOpen .opening]).awaits port = s.awaits port := by
        simp [SerialPortStream.awaits, first, await, Task.closes, Kind.closes, Promise.closes]
      refine ⟨⟨hsound, h.features, .opens rfl hidle rfl, hadv.openings h.openings, fun port hport => ?_⟩, .inl rfl,
        fun port hport => .inl hport, fun port hknown => .inl ?_, fun port hheld => ⟨hheld.port, .inl hheld.closing⟩, ?_⟩
      · rw [hawaits]
        exact h.once port hport
      · rw [hawaits] at hknown
        exact hknown
      · rw [hnone]
        show 1 + 0 ≤ _ + (Task.call .bindingOpen .opening :: s.todo).countP Task.dials + 0
        rw [List.countP_cons_of_pos rfl]
        omega
  | close cb =>
    cases hstep
    exact h.tame (.refl s) (close_tame s _ none (h.sound.apart rfl) fun _ => hwaits) hsound
      (close_poised hidle _ none fun _ => hwaits) hdials
  | destroy error =>
    cases hstep
    split at hsound
    · rename_i hdestroyed
      rw [if_pos hdestroyed] at hdials ⊢
      exact h.tame (.refl s) (.refl s) hsound (.idle hidle) hdials
    · rename_i hdestroyed
      rw [if_neg hdestroyed] at hdials ⊢
      have hlight := Light.first 0 { s with destroyed := true } [.destroy error] (by
        intro task hmem
        rw [List.mem_singleton.1 hmem]
        exact ⟨fun _ => rfl, fun _ => rfl, rfl⟩)
      refine h.tame (show Leads s { s with destroyed := true } from ⟨rfl, rfl, rfl, rfl, rfl, rfl, fun _ => le_rfl⟩)
        (.after hlight rfl (_failWaitingWrite_tame _ _)) hsound (.idle (_failWaitingWrite_idle ?_ _)) hdials
      exact Idle.first (s := { s with destroyed := true }) hidle fun task hmem => by
        rw [List.mem_singleton.1 hmem]
        rfl
  | operation operation baudRate cb =>
    cases hstep
    exact h.tame (.refl s) (_operation_tame s operation baudRate _) hsound (.idle (_operation_idle hidle _ _ _)) hdials
  | _read length =>
    obtain ⟨-, heq⟩ := Option.ite_none_left_eq_some.1 (show (if s.destroyed then none else _) = _ from hstep)
    cases heq
    exact h.tame (.refl s) (_read_tame s length) hsound (_read_poised h.features hidle length) hdials
  | _write data =>
    obtain ⟨-, heq⟩ := Option.ite_none_left_eq_some.1
      (show (if s.destroyed || s.writing.isSome then none else _) = _ from hstep)
    cases heq
    exact h.tame (show Leads s s.hand from ⟨rfl, rfl, rfl, rfl, rfl, rfl, fun _ => le_rfl⟩) (_write_tame _ _ _) hsound
      (.idle (_write_idle (s := s.hand) hidle _ _)) hdials
  | _writev chunks =>
    obtain ⟨-, heq⟩ := Option.ite_none_left_eq_some.1
      (show (if s.destroyed || s.writing.isSome then none else _) = _ from hstep)
    cases heq
    exact h.tame (show Leads s s.hand from ⟨rfl, rfl, rfl, rfl, rfl, rfl, fun _ => le_rfl⟩) (_writev_tame _ _ _) hsound
      (.idle (_writev_idle (s := s.hand) hidle _ _)) hdials
  | onClose port error closed =>
    cases closed with
    | true => cases hown
    | false =>
      cases hstep
      exact h.tame (.refl s) (onClose_tame s port error (h.sound.apart rfl) fun _ => hwaits) hsound
        (onClose_poised hidle _ _ fun _ => hwaits) hdials
  | onData port data =>
    cases hstep
    exact h.tame (.refl s) (onData_tame s port data) hsound (.idle (onData_idle hidle _ _)) hdials

theorem returns (h : Guided s) {kind : Kind} {rest : List Task} (htodo : s.todo = .outside kind :: rest)
    (hsound : Sound false ({ s with todo := rest }.returned kind)) :
    Steers s .returns [] ({ s with todo := rest }.returned kind) := by
  have hrest : Idle rest := h.poised.rest htodo
  have hnone : s.dials = 0 := (h.poised.waits (by rw [SerialPortStream.waits, htodo]; rfl)).dials
  have hleads : Leads s ({ s with todo := rest }.returned kind) := by
    cases kind with
    | canceling port cb =>
      -- the call becomes the promise of its result
      refine ⟨rfl, rfl, rfl, rfl, rfl, ?_, fun p => le_of_eq ?_⟩
      · show (s.promises ++ [Promise.canceling port cb]).countP Promise.opens = s.promises.countP Promise.opens
        rw [List.countP_append]
        rfl
      · show rest.countP (Task.closes p) + (s.promises ++ [Promise.canceling port cb]).countP (Promise.closes p) =
          s.todo.countP (Task.closes p) + s.promises.countP (Promise.closes p)
        rw [htodo, List.countP_append, List.countP_cons, List.countP_cons, List.countP_nil,
          show Promise.closes p (.canceling port cb) = Task.closes p (.outside (.canceling port cb)) from rfl]
        omega
    | opening => exact ⟨rfl, rfl, rfl, rfl, rfl, rfl, (Leads.popped htodo).awaits⟩
    | _ => exact .popped htodo
  have hidle : Idle ({ s with todo := rest }.returned kind).todo := by
    cases kind <;> exact hrest
  refine h.tame hleads (.refl _) hsound (.idle hidle) ?_
  rw [hnone]
  exact Nat.zero_le _

theorem closing (h : Guided s) {port : ℕ} (hleads : Leads s s₁) (hawaits : s.awaits port = s₁.awaits port + 1)
    (hport : s₁.port = some port) : s₁.closing = true ∧ s₁.awaits port = 0 := by
  have honce := h.once port (hleads.port ▸ hport)
  rw [hleads.closing]
  split at honce
  · exact ⟨‹_›, by omega⟩
  · omega

theorem throws (h : Guided s) {kind : Kind} {rest : List Task} {reason : Thrown} (htodo : s.todo = .outside kind :: rest)
    (hsound : Sound false ({ s with todo := rest }.thrown reason kind)) :
    Steers s (.throws reason) [] ({ s with todo := rest }.thrown reason kind) := by
  have hrest : Idle rest := h.poised.rest htodo
  have hnone : s.dials = 0 := (h.poised.waits (by rw [SerialPortStream.waits, htodo]; rfl)).dials
  have hpopped : Leads s { s with todo := rest } := .popped htodo
  have hdials : s.dials ≤ ({ s with todo := rest }.thrown reason kind).dials + ([] : List Output).countP Output.dials := by
    rw [hnone]
    exact Nat.zero_le _
  cases kind with
  | listener =>
    refine h.tame ?_ (.refl _) hsound (.idle (throw_idle (s := { s with todo := rest }) hrest reason)) hdials
    have hundisturbed := throw_undisturbed { s with todo := rest } reason
    have hparts : ({ s with todo := rest }.throw reason).promises.countP Promise.opens = s.openings ∧
        ∀ p, ({ s with todo := rest }.throw reason).awaits p ≤ ({ s with todo := rest } : SerialPortStream).awaits p := by
      have hsub := List.dropWhile_sublist (l := rest) fun task => !task.catches
      unfold SerialPortStream.throw
      split
      · rename_i rest' hcaught
        rw [show ({ s with todo := rest } : SerialPortStream).todo = rest from rfl] at hcaught
        rw [hcaught] at hsub
        refine ⟨?_, fun p => Nat.add_le_add ?_ (le_of_eq ?_)⟩
        · show (s.promises ++ [Promise.reporting reason]).countP Promise.opens = _
          rw [List.countP_append]
          rfl
        · exact ((List.sublist_cons_self _ _).trans hsub).countP_le
        · show (s.promises ++ [Promise.reporting reason]).countP (Promise.closes p) = _
          rw [List.countP_append]
          rfl
      · exact ⟨rfl, fun p => Nat.add_le_add_right hsub.countP_le _⟩
    exact ⟨hundisturbed.features, hundisturbed.opening, hundisturbed.closing, hundisturbed.port, hundisturbed.ports, hparts.1,
      fun p => (hparts.2 p).trans (hpopped.awaits p)⟩
  | binding => exact h.tame hpopped (.refl _) hsound (.idle hrest) hdials
  | opening =>
    exact h.tame (show Leads s { s with todo := rest, _opening := true } from
      ⟨rfl, rfl, rfl, rfl, rfl, rfl, hpopped.awaits⟩) (.refl _) hsound (.idle hrest) hdials
  | startReading port length =>
    exact h.tame hpopped (_readError_tame { s with todo := rest } (h.sound.apart rfl) port reason length) hsound
      (_readError_poised (s := { s with todo := rest }) h.features hrest (h.sound.apart rfl) port reason length) hdials
  | canceling port cb =>
    have hawaits : s.awaits port = ({ s with todo := rest } : SerialPortStream).awaits port + 1 := by
      show s.todo.countP (Task.closes port) + s.promises.countP (Promise.closes port) =
        rest.countP (Task.closes port) + s.promises.countP (Promise.closes port) + 1
      rw [htodo, List.countP_cons_of_pos (by simp [Task.closes, Kind.closes])]
      omega
    exact h.tame hpopped (canceled_tame (fun hport => h.closing hpopped hawaits hport) cb (some reason)) hsound
      (.idle (canceled_idle (s := { s with todo := rest }) hrest port cb (some reason))) hdials

/-- **The next task.** -/
theorem proceeds (h : Guided s) {task : Task} {rest : List Task} (htodo : s.todo = task :: rest) (hsound : Sound false s')
    (hstep : ({ s with todo := rest } : SerialPortStream).perform task = some (s', out)) : Steers s .proceed out s' := by
  have hrest : Idle rest := h.poised.rest htodo
  have hpopped : Leads s { s with todo := rest } := .popped htodo
  have hfeatures : ∀ port, (({ s with todo := rest } : SerialPortStream).features port).startReading := h.features
  have happart : Apart { s with todo := rest } := h.sound.apart rfl
  have hdials (hcall : ∀ output kind, task ≠ .call output kind) : s.dials ≤ s'.dials + out.countP Output.dials := by
    have hnone : s.dials = 0 := by
      show s.todo.countP Task.dials = 0
      rw [htodo, List.countP_cons, hrest.dials]
      cases task with
      | call output kind => exact absurd rfl (hcall output kind)
      | _ => rfl
    rw [hnone]
    exact Nat.zero_le _
  cases task with
  | call output kind =>
    cases hstep
    have hleads : Leads s ({ s with todo := rest, writing := if output.ends then none else s.writing }.first [.outside kind]) := by
      refine ⟨rfl, rfl, rfl, rfl, rfl, rfl, fun port => ?_⟩
      show (Task.outside kind :: rest).countP (Task.closes port) + _ ≤ s.todo.countP (Task.closes port) + _
      rw [htodo, List.countP_cons, List.countP_cons]
      exact le_rfl
    refine h.tame hleads (.refl _) hsound (.idle fun task hmem => ?_) ?_
    · rcases List.mem_cons.1 hmem with rfl | hmem
      · rfl
      · exact hrest task hmem
    · show s.todo.countP Task.dials ≤ _ + [output].countP Output.dials
      rw [htodo, List.countP_cons, hrest.dials, Nat.zero_add, List.countP_singleton]
      exact Nat.le_add_left _ _
  | outside kind => cases hstep
  | resume =>
    cases hstep
    exact h.tame hpopped (_resumeIO_tame { s with todo := rest }) hsound
      (_resumeIO_poised (s := { s with todo := rest }) hfeatures hrest) (hdials (by simp))
  | resumeRead =>
    cases hstep
    exact h.tame hpopped (resumeRead_tame { s with todo := rest }) hsound
      (resumeRead_poised (s := { s with todo := rest }) hfeatures hrest) (hdials (by simp))
  | cancelOpen port cb =>
    cases hstep
    have hleads : Leads s ({ s with todo := rest }.first [.call (.close port) (.canceling port cb)]) := by
      refine ⟨rfl, rfl, rfl, rfl, rfl, rfl, fun p => ?_⟩
      show (Task.call (.close port) (.canceling port cb) :: rest).countP (Task.closes p) + _ ≤
        s.todo.countP (Task.closes p) + _
      rw [htodo, List.countP_cons, List.countP_cons]
      exact le_rfl
    exact h.tame hleads (.refl _) hsound (.closes rfl hrest) (hdials (by simp))
  | openFailed error cb =>
    cases hstep
    exact h.tame hpopped (openFailed_tame { s with todo := rest } error cb) hsound (.idle (openFailed_idle (s := { s with todo := rest }) hrest error cb))
      (hdials (by simp))
  | destroy error =>
    cases hstep
    have hwaits : Task.waiting rest := waits_of_destroy (htodo ▸ h.sound.orderly)
    exact h.tame hpopped (tearDown_tame { s with todo := rest } error happart fun _ => hwaits) hsound
      (tearDown_poised (s := { s with todo := rest }) hrest error fun _ => hwaits) (hdials (by simp))
  | catchOpen =>
    cases hstep
    exact h.tame hpopped (.refl _) hsound (.idle hrest) (hdials (by simp))

theorem not_held (h : Guided s) (hopening : s.opening = true) (port : ℕ) : ¬Held port s := by
  intro hheld
  have hshut := h.sound.apart rfl hopening
  rw [hheld.port, Option.any_some, hheld.isOpen] at hshut
  cases hshut

/-- **A port is handed over.**  If the stream is closing, its close is outstanding. -/
theorem opened (h : Guided s) (htodo : s.todo = []) {index port : ℕ} {isOpen : Bool} {cb : Option Callback}
    (hpromise : s.promises[index]? = some (.opening cb)) (hfresh : s.awaits port = 0)
    (hsound : Sound false (({ s with promises := s.promises.eraseIdx index } : SerialPortStream).opened port isOpen cb)) :
    Steers s (.settle index (.port port isOpen)) []
      (({ s with promises := s.promises.eraseIdx index } : SerialPortStream).opened port isOpen cb) := by
  obtain ⟨hopenings, hopening⟩ := openings_erased hpromise h.openings
  have hnone : s.dials = 0 := by
    show s.todo.countP Task.dials = 0
    rw [htodo]
    rfl
  have hidle : Idle ({ s with promises := s.promises.eraseIdx index } : SerialPortStream).todo := by
    show Idle s.todo
    rw [htodo]
    exact fun task hmem => nomatch hmem
  have hawaits (p : ℕ) : (({ s with promises := s.promises.eraseIdx index } : SerialPortStream).connect port isOpen).awaits p =
      s.awaits p := (awaits_erased hpromise p).symm
  have hshape : ∃ s₂ n, Light 0 n s₂ (({ s with promises := s.promises.eraseIdx index } : SerialPortStream).opened port isOpen cb) ∧
      s₂.openings = 0 ∧ s₂.opening = false ∧ s₂.port = some port ∧ s₂.closing = s.closing ∧
      s₂.ports = (s.setOpen port isOpen).ports ∧
      ∀ p, s₂.awaits p ≤ s.awaits p + if p = port ∧ s.closing = true then 1 else 0 := by
    rcases opened_light (k := 0) { s with promises := s.promises.eraseIdx index } port isOpen cb with
      ⟨hclosing, hlight⟩ | ⟨hclosing, hlight⟩
    · refine ⟨_, 0, hlight, hopenings, rfl, rfl, rfl, rfl, fun p => ?_⟩
      rw [awaits_first, hawaits p, show s.closing = true from hclosing, Nat.add_comm]
      refine Nat.add_le_add_left (le_of_eq ?_) _
      by_cases hsame : p = port
      · simp [Task.closes, hsame]
      · have hother : ¬port = p := fun heq => hsame heq.symm
        simp [Task.closes, hsame, hother]
    · exact ⟨_, _, hlight, hopenings, rfl, rfl, rfl, rfl, fun p => (hawaits p).le.trans (Nat.le_add_right _ _)⟩
  obtain ⟨s₂, n, hlight, hopenings₂, hopening₂, hport₂, hclosing₂, hports₂, hawaits₂⟩ := hshape
  have hfeatures : (({ s with promises := s.promises.eraseIdx index } : SerialPortStream).opened port isOpen cb).features =
      s.features := by
    unfold SerialPortStream.opened
    simp only
    split
    · exact (_failWaitingWrite_tame _ _).features
    · rfl
  refine ⟨⟨hsound, fun p => ?_, .idle (opened_idle hidle port isOpen cb), ?_, hlight.once fun p hp => ?_⟩,
    .inr ⟨port, isOpen, rfl, hopening, hlight.port.trans hport₂, hlight.ports.trans hports₂⟩, fun p hp => .inr ?_,
    fun p hknown => ?_,
    fun p hp => absurd hp (h.not_held hopening p), ?_⟩
  · rw [hfeatures]
    exact h.features p
  · rw [hlight.openings, hlight.opening, hopenings₂, hopening₂]
    rfl
  · obtain rfl : port = p := Option.some.inj (hport₂.symm.trans hp)
    have hle := hawaits₂ port
    rw [hfresh, Nat.zero_add] at hle
    rw [hclosing₂]
    simpa using hle
  · obtain rfl : port = p := Option.some.inj (hport₂.symm.trans (hlight.port.symm.trans hp))
    exact ⟨isOpen, rfl⟩
  · rcases hlight.steady.known p hknown with hp | hpos
    · obtain rfl : port = p := Option.some.inj (hport₂.symm.trans hp)
      exact .inr ⟨hopening, hlight.opening.trans hopening₂, isOpen, rfl⟩
    · by_cases hsame : p = port
      · exact .inr ⟨hopening, hlight.opening.trans hopening₂, isOpen, by rw [hsame]; rfl⟩
      · have hle := hawaits₂ p
        rw [if_neg fun h => hsame h.1] at hle
        exact .inl (.inr (Nat.lt_of_lt_of_le hpos hle))
  · rw [hnone, hlight.opening, hopening₂]
    exact Nat.zero_le _

/-- **An open fails.** -/
theorem rejected (h : Guided s) (htodo : s.todo = []) {index : ℕ} {reason : Thrown} {cb : Option Callback}
    (hpromise : s.promises[index]? = some (.opening cb))
    (hsound : Sound false (({ s with promises := s.promises.eraseIdx index } : SerialPortStream).rejected reason cb)) :
    Steers s (.settle index (.rejected reason)) []
      (({ s with promises := s.promises.eraseIdx index } : SerialPortStream).rejected reason cb) := by
  obtain ⟨hopenings, hopening⟩ := openings_erased hpromise h.openings
  have hnone : s.dials = 0 := by
    show s.todo.countP Task.dials = 0
    rw [htodo]
    rfl
  have hidle : Idle ({ s with promises := s.promises.eraseIdx index } : SerialPortStream).todo := by
    show Idle s.todo
    rw [htodo]
    exact fun task hmem => nomatch hmem
  have hlight := _failWaitingWrite_light 0 (({ s with
    promises := s.promises.eraseIdx index
    _opening := false
    opening := false } : SerialPortStream).first [.openFailed (asError reason) cb, .catchOpen]) (asError reason)
  have hawaits (p : ℕ) : (({ s with
      promises := s.promises.eraseIdx index
      _opening := false
      opening := false } : SerialPortStream).first [.openFailed (asError reason) cb, .catchOpen]).awaits p = s.awaits p := by
    rw [awaits_erased hpromise p]
    rfl
  refine ⟨⟨hsound, fun p => ?_, .idle (rejected_idle hidle reason cb), ?_, hlight.once fun p hp => ?_⟩, .inl hlight.ports,
    fun p hp => .inl (hlight.port.symm.trans hp), fun p hknown => .inl ?_, fun p hp => absurd hp (h.not_held hopening p), ?_⟩
  · have hfeatures : (({ s with promises := s.promises.eraseIdx index } : SerialPortStream).rejected reason cb).features =
        s.features := (_failWaitingWrite_tame _ _).features
    rw [hfeatures]
    exact h.features p
  · refine hlight.openings.trans (hopenings.trans ?_)
    rw [show (({ s with promises := s.promises.eraseIdx index } : SerialPortStream).rejected reason cb).opening = false from
      hlight.opening]
    rfl
  · rw [hawaits]
    exact h.once p hp
  · rcases hlight.steady.known p hknown with hp | hpos
    · exact .inl hp
    · rw [hawaits] at hpos
      exact .inr hpos
  · rw [hnone, show (({ s with promises := s.promises.eraseIdx index } : SerialPortStream).rejected reason cb).opening = false from
      hlight.opening]
    exact Nat.zero_le _

theorem settles (h : Guided s) (htodo : s.todo = []) {index : ℕ} {promise : Promise} {result : Result}
    (hpromise : s.promises[index]? = some promise) (hfresh : s.Fresh (.settle index result)) (hsound : Sound false s')
    (hstep : ({ s with promises := s.promises.eraseIdx index } : SerialPortStream).settled promise result = some s') :
    Steers s (.settle index result) [] s' := by
  have hidle : Idle ({ s with promises := s.promises.eraseIdx index } : SerialPortStream).todo := by
    show Idle s.todo
    rw [htodo]
    exact fun task hmem => nomatch hmem
  have hdials : s.dials ≤ s'.dials + ([] : List Output).countP Output.dials := by
    rw [show s.dials = 0 from (show Idle s.todo from hidle).dials]
    exact Nat.zero_le _
  have hfeatures : ∀ port, (({ s with promises := s.promises.eraseIdx index } : SerialPortStream).features port).startReading :=
    h.features
  have happart : Apart { s with promises := s.promises.eraseIdx index } := h.sound.apart rfl
  have hcloses {port : ℕ} (hkind : promise.closes port = true) :
      s.awaits port = ({ s with promises := s.promises.eraseIdx index } : SerialPortStream).awaits port + 1 := by
    rw [awaits_erased hpromise port, hkind]
    rfl
  cases settled_settles hstep with
  | opened => exact h.opened htodo hpromise hfresh hsound
  | rejected => exact h.rejected htodo hpromise hsound
  | closed =>
    have hleads := Leads.erased hpromise rfl
    exact h.tame hleads (closed_tame (fun hport => (h.closing hleads (hcloses (by simp [Promise.closes])) hport).1) _) hsound
      (.idle (closed_idle hidle _ _)) hdials
  | closeFailed =>
    have hleads := Leads.erased hpromise rfl
    exact h.tame hleads (_closeFailed_tame (fun hport => h.closing hleads (hcloses (by simp [Promise.closes])) hport) _) hsound
      (.idle (_closeFailed_idle hidle _ _)) hdials
  | canceled | cancelFailed =>
    have hleads := Leads.erased hpromise rfl
    have hcatch := call_catch { s with promises := s.promises.eraseIdx index }
    refine h.tame hleads (.after hcatch rfl (canceled_tame (fun hport => ?_) _ _)) hsound
      (.idle (canceled_idle (Idle.first hidle catchOpen_idle) _ _ _)) hdials
    rw [hcatch.awaits, hcatch.closing]
    exact h.closing hleads (hcloses (by simp [Promise.closes])) hport
  | written =>
    exact h.tame (.erased hpromise rfl) (first_tame _ fun task hmem => by
      rw [List.mem_singleton.1 hmem]
      exact ⟨fun _ => rfl, fun _ => rfl, rfl⟩) hsound (.idle (Idle.call hidle rfl)) hdials
  | writeFailed =>
    exact h.tame (.erased hpromise rfl) (_writeError_tame _ happart _ _ _) hsound (_writeError_poised hidle happart _ _ _) hdials
  | data | bytesRead =>
    exact h.tame (.erased hpromise rfl) (received_tame _ _ _ _) hsound (received_poised hfeatures hidle _ _ _) hdials
  | invalid | readFailed =>
    exact h.tame (.erased hpromise rfl) (_readError_tame _ happart _ _ _) hsound
      (_readError_poised hfeatures hidle happart _ _ _) hdials
  | operated =>
    exact h.tame (.erased hpromise rfl) (operated_tame _ _ _ _ _) hsound (.idle (operated_idle hidle _ _ _ _)) hdials
  | operationFailed | reported =>
    exact h.tame (.erased hpromise rfl) (_report_tame _ _ _) hsound (.idle (_report_idle hidle _ _)) hdials

/-- **The step lemma.** -/
theorem step (h : Guided s) {input : Input} (hown : input.own = true) (hfresh : s.Fresh input)
    (hstep : s.step input = some (s', out)) : Steers s input out s' := by
  have hsound := (step_own h.sound (by rintro port value rfl; cases hown) hstep).sound
  cases step_runs hstep with
  | enter hwaits hentry => exact h.enter hwaits hown hsound hentry
  | returns htodo => exact h.returns htodo hsound
  | throws reason htodo => exact h.throws htodo hsound
  | proceed htodo htask => exact h.proceeds htodo hsound htask
  | settle htodo hpromise hsettled => exact h.settles htodo hpromise hfresh hsound hsettled
  | @tick message cb rest htodo =>
    have hidle : Idle s.todo := by
      rw [htodo]
      exact fun task hmem => nomatch hmem
    refine h.tame (show Leads s { s with ticks := rest } from ⟨rfl, rfl, rfl, rfl, rfl, rfl, fun _ => le_rfl⟩)
      (_report_tame _ _ cb) hsound
      (.idle (_report_idle (s := { s with ticks := rest }) hidle _ _)) ?_
    rw [show s.dials = 0 from hidle.dials]
    exact Nat.zero_le _
  | isOpen => cases hown

theorem setOpen (h : Guided s) (hwaits : s.waits) {port : ℕ} {value : Bool}
    (hvalue : s.port = some port → s.opening = true → value = false) : Guided (s.setOpen port value) := by
  refine ⟨⟨h.sound.orderly, fun _ hopening => ?_, h.sound.doomed⟩, h.features, .idle (h.poised.waits hwaits), h.openings, h.once⟩
  have hshut := h.sound.apart rfl hopening
  show s.port.any (fun other => if other = port then value else s.ports other) = false
  cases hport : s.port with
  | none => rfl
  | some p =>
    rw [hport] at hshut
    show (if p = port then value else s.ports p) = false
    split
    · rename_i hsame
      exact hvalue (hsame ▸ hport) hopening
    · exact hshut

end Guided

/-! ### Single reads -/

/-- No port was asked for a single chunk. -/
def Unread (s : SerialPortStream) : Prop := ∀ port length, .reading port length ∉ s.promises

namespace Unread

theorem of_eq (h : Unread s) (hpromises : s'.promises = s.promises) : Unread s' := by
  intro port length
  rw [hpromises]
  exact h port length

theorem quiet (h : Unread s) (hquiet : Quiet s s') : Unread s' := by
  obtain ⟨added, hpromises, hadded⟩ := hquiet.promises
  intro port length hmem
  rw [hpromises] at hmem
  rcases List.mem_append.1 hmem with hold | hnew
  · exact h port length hold
  · exact absurd (hadded _ hnew) Bool.false_ne_true

theorem await (h : Unread s) {p : Promise} (hp : ∀ port length, p ≠ .reading port length) : Unread (s.await p) := by
  intro port length hmem
  rcases List.mem_append.1 hmem with hold | hnew
  · exact h port length hold
  · exact hp port length (List.mem_singleton.1 hnew).symm

theorem erased (h : Unread s) (index : ℕ) : Unread { s with promises := s.promises.eraseIdx index } :=
  fun port length hmem => h port length (List.mem_of_mem_eraseIdx hmem)

theorem failWaitingWrite (h : Unread s) (error : SerialError) : Unread (s._failWaitingWrite error) := by
  refine h.of_eq ?_
  unfold _failWaitingWrite
  split <;> rfl

theorem write (h : Unread s) (write : ℕ) (data : Buffer) : Unread (s._write write data) := by
  obtain ⟨-, heq⟩ | ⟨port, -, -, heq⟩ := _write_cases s write data
  · rw [heq]
    exact h
  · rw [heq]
    exact h.await (p := .writing port write) nofun

theorem writev (h : Unread s) (write : ℕ) (chunks : List Buffer) : Unread (s._writev write chunks) := by
  obtain heq | ⟨port, -, -, heq⟩ := _writev_cases s write chunks
  · rw [heq]
    exact h.write write _
  · rw [heq]
    exact h.await (p := .writing port write) nofun

theorem read (hfeatures : ∀ port, (s.features port).startReading) (h : Unread s) (length : ℕ) :
    Unread (s._read length) := by
  obtain ⟨-, heq⟩ | ⟨port, -, -, -, heq⟩ | ⟨port, output, -, -, -, hfeature, -⟩ := _read_cases s length
  · rw [heq]
    exact h
  · rw [heq]
    exact h
  · rw [hfeatures port] at hfeature
    cases hfeature

theorem resumeRead (hfeatures : ∀ port, (s.features port).startReading) (h : Unread s) : Unread s.resumeRead := by
  unfold SerialPortStream.resumeRead
  split
  · exact read hfeatures h _
  · exact h

theorem resumeIO (hfeatures : ∀ port, (s.features port).startReading) (h : Unread s) : Unread ( _resumeIO s) := by
  unfold _resumeIO
  split
  · exact h
  split
  · exact resumeRead hfeatures h
  · exact write (s := { s with _waitingWrite := none }.first [.resumeRead]) h _ _

theorem readError (hfeatures : ∀ port, (s.features port).startReading) (h : Unread s) (port : ℕ) (error : Thrown)
    (length : ℕ) : Unread (s._readError port error length) := by
  have hsettled : Unread (s.readSettled port) := by
    refine h.of_eq ?_
    unfold readSettled
    split <;> rfl
  rw [← readSettled_features s port] at hfeatures
  unfold _readError
  simp only
  split
  · exact hsettled.quiet (close_quiet _ _ _)
  split
  · exact read hfeatures hsettled _
  · exact hsettled

theorem writeError (h : Unread s) (port write : ℕ) (error : Thrown) : Unread (s._writeError port write error) := by
  unfold _writeError
  simp only
  split
  · exact Unread.quiet (s := s.first [.call (.written write (some (asError error))) .listener]) h (close_quiet _ _ _)
  · exact h

theorem opened (h : Unread s) (port : ℕ) (isOpen : Bool) (cb : Option Callback) : Unread (s.opened port isOpen cb) := by
  unfold SerialPortStream.opened
  simp only
  split
  · exact failWaitingWrite (s := (s.connect port isOpen).first [.cancelOpen port cb, .catchOpen]) h _
  · exact h

theorem enter (hfeatures : ∀ port, (s.features port).startReading) (h : Unread s) {entry : Entry}
    (hstep : s.enter entry = some (s', out)) : Unread s' := by
  cases entry with
  | «open» cb =>
    cases hstep
    exact h.quiet (open_quiet s _)
  | close cb =>
    cases hstep
    exact h.quiet (close_quiet s _ _)
  | destroy error =>
    cases hstep
    split
    · exact h
    · exact failWaitingWrite (s := { s with destroyed := true }.first [.destroy error]) h _
  | operation operation baudRate cb =>
    cases hstep
    exact h.quiet (_operation_quiet s _ _ _)
  | _read length =>
    obtain ⟨-, heq⟩ := Option.ite_none_left_eq_some.1 (show (if s.destroyed then none else _) = _ from hstep)
    cases heq
    exact read hfeatures h length
  | _write data =>
    obtain ⟨-, heq⟩ := Option.ite_none_left_eq_some.1
      (show (if s.destroyed || s.writing.isSome then none else _) = _ from hstep)
    cases heq
    exact write (s := s.hand) h _ _
  | _writev chunks =>
    obtain ⟨-, heq⟩ := Option.ite_none_left_eq_some.1
      (show (if s.destroyed || s.writing.isSome then none else _) = _ from hstep)
    cases heq
    exact writev (s := s.hand) h _ _
  | onClose port error closed =>
    cases hstep
    split
    · exact Unread.quiet (s := s.setOpen port false) h (onClose_quiet _ _ _)
    · exact h.quiet (onClose_quiet _ _ _)
  | onData port data =>
    cases hstep
    refine h.of_eq ?_
    unfold onData
    split <;> rfl

theorem settled (h : Unread s) {index : ℕ} {promise : Promise} {result : Result} (hpromise : s.promises[index]? = some promise)
    (hstep : ({ s with promises := s.promises.eraseIdx index } : SerialPortStream).settled promise result = some s') :
    Unread s' := by
  have herased := h.erased index
  have hnone (port length : ℕ) : promise ≠ .reading port length :=
    fun heq => h port length (heq ▸ List.mem_of_getElem? hpromise)
  cases settled_settles hstep with
  | opened => exact herased.opened _ _ _
  | rejected =>
    exact failWaitingWrite (s := { s with
      promises := s.promises.eraseIdx index, _opening := false, opening := false }.first [.openFailed _ _, .catchOpen])
      herased _
  | closed => exact herased.quiet (closed_quiet _ _ _)
  | closeFailed => exact herased.quiet (_closeFailed_quiet _ _ _)
  | canceled | cancelFailed =>
    exact Unread.quiet (s := { s with promises := s.promises.eraseIdx index }.first [.catchOpen]) herased (canceled_quiet _ _ _ _)
  | written => exact herased
  | writeFailed => exact herased.writeError _ _ _
  | data | bytesRead | invalid | readFailed => exact absurd rfl (hnone _ _)
  | operated => exact herased.quiet (operated_quiet _ _ _ _ _)
  | operationFailed | reported => exact herased.quiet (_report_quiet _ _ _)

/-- **Every step keeps it** where the ports bring their data as they come. -/
theorem step (h : Unread s) (hfeatures : ∀ port, (s.features port).startReading) {input : Input}
    (hstep : s.step input = some (s', out)) : Unread s' := by
  cases step_runs hstep with
  | enter hwaits hentry => exact enter hfeatures h hentry
  | @returns kind rest htodo =>
    cases kind with
    | canceling port cb => exact await (s := { s with todo := rest }) h (p := .canceling port cb) nofun
    | _ => exact h
  | @throws kind rest reason htodo =>
    cases kind with
    | listener => exact Unread.quiet (s := { s with todo := rest }) h (throw_quiet _ _)
    | startReading port length => exact readError (s := { s with todo := rest }) hfeatures h _ _ _
    | canceling port cb =>
      exact Unread.quiet (s := { s with todo := rest }) h (canceled_quiet { s with todo := rest } port cb (some reason))
    | _ => exact h
  | @proceed task rest _ _ htodo htask =>
    cases task with
    | outside kind => cases htask
    | resume =>
      cases htask
      exact resumeIO (s := { s with todo := rest }) hfeatures h
    | resumeRead =>
      cases htask
      exact resumeRead (s := { s with todo := rest }) hfeatures h
    | openFailed error cb =>
      cases htask
      exact Unread.quiet (s := { s with todo := rest }) h (openFailed_quiet _ _ _)
    | destroy error =>
      cases htask
      exact Unread.quiet (s := { s with todo := rest }) h (tearDown_quiet _ _)
    | _ =>
      cases htask
      exact h
  | settle htodo hpromise hsettled => exact h.settled hpromise hsettled
  | @tick message cb rest => exact Unread.quiet (s := { s with ticks := rest }) h (_report_quiet _ _ _)
  | isOpen => exact h

theorem arrived (h : Unread s) {input : Input} (hinput : ∀ port data, input ≠ .enter (.onData port data)) :
    s.arrived input = none := by
  cases input with
  | enter entry =>
    cases entry with
    | onData port data => exact absurd rfl (hinput port data)
    | _ => rfl
  | settle index result =>
    cases hpromise : s.promises[index]? with
    | none => simp [SerialPortStream.arrived, hpromise]
    | some promise =>
      cases promise with
      | reading port length => exact absurd (List.mem_of_getElem? hpromise) (h port length)
      | _ => simp [SerialPortStream.arrived, hpromise]
  | _ => rfl

end Unread

theorem new_guided {features : ℕ → Features} (h : ∀ port, (features port).startReading) (endOnClose : Bool)
    (highWaterMark : ℕ) (baudRate : Option ℕ) : Guided (.new features endOnClose highWaterMark baudRate) :=
  ⟨new_sound false _ _ _ _, h, .idle fun _ hmem => (nomatch hmem), rfl, fun _ hport => nomatch hport⟩

end NodeSerialport.Stream
