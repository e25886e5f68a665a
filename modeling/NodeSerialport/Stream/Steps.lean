import NodeSerialport.Stream.Stream
/-!
# What one step of the stream can do

Most functions of the stream move no data: they change the flags of the life cycle, register promises, and leave calls
of listeners, callbacks and life-cycle methods to be made.

* `Task.plain`, `Promise.quiet`, `Quiet` — what such a function does;
* `Clear`, `Orderly` — the order of what is left to do: a call that moves data is the next one to be made, so an
  exception never drops it;
* `Settles` — the continuation of each promise;
* `Runs`, `step_runs` — what runs on each input.
-/

namespace NodeSerialport.Stream

open Parsers (Buffer)
open Binding (SerialError ControlOperation)

/-! ### Calls that move data -/

/-- A read, a write, data for Node, or the end of a write. -/
def Output.moves : Output → Bool
  | .startReading _ _ | .readChunk _ _ | .read _ _ | .write _ _ _ | .writev _ _ _ | .push _ | .written _ _ => true
  | _ => false

/-- What is noted of a run, and is no call. -/
def Output.noted : Output → Bool
  | .handed _ _ | .torn => true
  | _ => false

def Kind.cancels : Kind → Bool
  | .canceling _ _ => true
  | _ => false

/-- Neither a `startReading` nor the `close` of a canceled open. -/
def Kind.plain : Kind → Bool
  | .startReading _ _ | .canceling _ _ => false
  | _ => true

/-- What a function that moves no data leaves to do. -/
def Task.plain : Task → Bool
  | .call output kind => !output.moves && !output.noted && kind.plain
  | .resume | .openFailed _ _ | .catchOpen => true
  | .outside _ | .resumeRead | .cancelOpen _ _ | .destroy _ => false

/-- What may stand below other tasks. -/
def Task.inner : Task → Bool
  | .outside kind => !kind.cancels
  | .resumeRead => true
  | task => task.plain

/-- A canceled open, up to the end of its `port.close()`. -/
def Task.cancels : Task → Bool
  | .cancelOpen _ _ => true
  | .outside kind => kind.cancels
  | _ => false

def Promise.quiet : Promise → Bool
  | .writing _ _ | .reading _ _ => false
  | _ => true

theorem Task.inner_of_plain {task : Task} (h : task.plain) : task.inner := by
  cases task <;> simp_all [Task.plain, Task.inner]

@[simp] theorem callback_plain (error : Option SerialError) (cb : Callback) :
    (SerialPortStream.callback error cb).plain = true := by
  cases cb <;> rfl

/-! ### The order of what is left to do -/

variable {wild : Bool}

/-- What is left below a call that runs: no call that moves data, but the callback of a failed write right behind the
`close` that may have thrown; nothing but the `catch` below the `close` of a canceled open; and `_destroy` was called
from outside.  Where ports are `wild`, one that was closed may say that it is open while another is being opened; a failed
write of it then cancels the open, and what `cancel` throws drops the callback. -/
inductive Clear (wild : Bool) : List Task → Prop where
  | nil : Clear wild []
  | inner {task : Task} {rest : List Task} (h : task.inner) (hrest : Clear wild rest) : Clear wild (task :: rest)
  | destroying {error : Option SerialError} {rest : List Task} (hwaits : Task.waiting rest) (hrest : Clear wild rest) :
    Clear wild (.destroy error :: rest)
  | closing {write : ℕ} {error : Option SerialError} {rest : List Task} (hrest : Clear wild rest) :
    Clear wild (.outside .binding :: .call (.written write error) .listener :: rest)
  | dropping {write : ℕ} {error : Option SerialError} {rest : List Task} (hwild : wild = true) (hrest : Clear wild rest) :
    Clear wild (.outside .listener :: .call (.written write error) .listener :: rest)
  | canceling {task : Task} (h : task.cancels) : Clear wild [task, .catchOpen]

/-- What is left to do: a call that moves data is the next one to be made, or stands behind the next. -/
inductive Orderly (wild : Bool) : List Task → Prop where
  | clear {todo : List Task} (h : Clear wild todo) : Orderly wild todo
  | call {output : Output} {kind : Kind} {rest : List Task} (houtput : output.noted = false)
      (hkind : kind.cancels = false) (hrest : Clear wild rest) : Orderly wild (.call output kind :: rest)
  | closing {port write : ℕ} {error : Option SerialError} {rest : List Task} (hrest : Clear wild rest) :
    Orderly wild (.call (.close port) .binding :: .call (.written write error) .listener :: rest)
  | dropping {write : ℕ} {error : Option SerialError} {rest : List Task} (hwild : wild = true) (hrest : Clear wild rest) :
    Orderly wild (.call .bindingCancel .listener :: .call (.written write error) .listener :: rest)
  | canceling {port : ℕ} {kind : Kind} (h : kind.cancels) : Orderly wild [.call (.close port) kind, .catchOpen]

theorem Clear.append {tasks rest : List Task} (htasks : ∀ task ∈ tasks, task.inner) (h : Clear wild rest) :
    Clear wild (tasks ++ rest) := by
  induction tasks with
  | nil => exact h
  | cons task tasks ih =>
    exact .inner (htasks task (by simp)) (ih fun task' hmem => htasks task' (by simp [hmem]))

theorem Clear.tail {task : Task} {rest : List Task} (h : Clear wild (task :: rest)) (houtside : ∀ kind, task ≠ .outside kind) :
    Clear wild rest := by
  cases h with
  | inner _ hrest => exact hrest
  | destroying _ hrest => exact hrest
  | closing _ => exact absurd rfl (houtside _)
  | dropping _ _ => exact absurd rfl (houtside _)
  | canceling _ => exact .inner rfl .nil

theorem Clear.dropWhile {todo : List Task} (h : Clear wild todo) :
    Clear wild (todo.dropWhile fun task => !task.catches) := by
  induction todo with
  | nil => exact .nil
  | cons task rest ih =>
    by_cases hcatches : task.catches
    · simpa [List.dropWhile, hcatches] using h
    · have hrest : Clear wild rest := h.tail (by rintro kind rfl; simp [Task.catches] at hcatches)
      simpa [List.dropWhile, hcatches] using ih hrest

/-! ### The calls that are left to be made -/

def Task.output? : Task → Option Output
  | .call output _ => some output
  | _ => none

/-- The calls that are left to be made. -/
def due (todo : List Task) : List Output := todo.filterMap Task.output?

@[simp] theorem due_nil : due [] = [] := rfl

@[simp] theorem due_append (a b : List Task) : due (a ++ b) = due a ++ due b := List.filterMap_append

@[simp] theorem due_call (output : Output) (kind : Kind) (todo : List Task) :
    due (.call output kind :: todo) = output :: due todo := rfl

theorem due_cons_of_none {task : Task} (h : task.output? = none) (todo : List Task) :
    due (task :: todo) = due todo := by
  simp [due, h]

theorem moves_of_plain {tasks : List Task} (h : ∀ task ∈ tasks, task.plain) :
    ∀ output ∈ due tasks, output.moves = false := by
  intro output hmem
  obtain ⟨task, htask, houtput⟩ := List.mem_filterMap.1 hmem
  have hplain := h task htask
  cases task <;> simp_all [Task.output?, Task.plain]

/-! ### Quiet functions -/

/-- What becomes of the list of tasks: a quiet function puts plain tasks first, or throws. -/
inductive Grown (todo : List Task) : List Task → Prop where
  | tasks {tasks : List Task} (h : ∀ task ∈ tasks, task.plain) : Grown todo (tasks ++ todo)
  | thrown : Grown todo (todo.dropWhile fun task => !task.catches)
  | caught {rest : List Task} (h : (todo.dropWhile fun task => !task.catches) = .catchOpen :: rest) : Grown todo rest

theorem Grown.refl (todo : List Task) : Grown todo todo := by
  have hnil : ∀ task ∈ ([] : List Task), task.plain := by simp
  exact .tasks hnil

theorem Grown.clear {todo todo' : List Task} (hgrown : Grown todo todo') (h : Clear wild todo) : Clear wild todo' := by
  cases hgrown with
  | tasks htasks => exact h.append fun task hmem => Task.inner_of_plain (htasks task hmem)
  | thrown => exact h.dropWhile
  | caught hcaught =>
    have hdrop := h.dropWhile
    rw [hcaught] at hdrop
    exact hdrop.tail (by simp)

/-- While a port is being opened, the old one is closed. -/
def Apart (s : SerialPortStream) : Prop := s.opening → s.port.any s.ports = false

/-- `_destroy` runs for a destroyed stream. -/
def Doomed (s : SerialPortStream) : Prop := ∀ error, .destroy error ∈ s.todo → s.destroyed

/-- What only writes and `destroy` change. -/
structure Frame (s s' : SerialPortStream) : Prop where
  features : s'.features = s.features
  waitingWrite : s'._waitingWrite = s._waitingWrite
  destroyed : s'.destroyed = s.destroyed
  writing : s'.writing = s.writing
  writes : s'.writes = s.writes
  apart : Apart s → Apart s'

theorem Frame.refl (s : SerialPortStream) : Frame s s := ⟨rfl, rfl, rfl, rfl, rfl, id⟩

theorem Frame.trans {s₁ s₂ s₃ : SerialPortStream} (h₁ : Frame s₁ s₂) (h₂ : Frame s₂ s₃) : Frame s₁ s₃ :=
  ⟨h₂.features.trans h₁.features, h₂.waitingWrite.trans h₁.waitingWrite, h₂.destroyed.trans h₁.destroyed,
    h₂.writing.trans h₁.writing, h₂.writes.trans h₁.writes, h₂.apart ∘ h₁.apart⟩

theorem Grown.mem_destroy {todo todo' : List Task} (h : Grown todo todo') {error : Option SerialError}
    (hmem : .destroy error ∈ todo') : .destroy error ∈ todo := by
  cases h with
  | tasks htasks =>
    obtain hmem | hmem := List.mem_append.1 hmem
    · exact absurd (htasks _ hmem) (by simp [Task.plain])
    · exact hmem
  | thrown => exact (List.dropWhile_sublist _).subset hmem
  | caught hcaught => exact (List.dropWhile_sublist _).subset (hcaught ▸ List.mem_cons_of_mem _ hmem)

/-- What a function does that moves no data. -/
structure Quiet (s s' : SerialPortStream) : Prop where
  frame : Frame s s'
  promises : ∃ added : List Promise, s'.promises = s.promises ++ added ∧ ∀ promise ∈ added, promise.quiet
  todo : Grown s.todo s'.todo

theorem Quiet.doomed {s s' : SerialPortStream} (h : Quiet s s') (hdoomed : Doomed s) : Doomed s' := by
  intro error hmem
  rw [h.frame.destroyed]
  exact hdoomed error (h.todo.mem_destroy hmem)

namespace SerialPortStream

variable {s : SerialPortStream}

theorem quiet_refl (s : SerialPortStream) : Quiet s s := ⟨.refl s, ⟨[], by simp, by simp⟩, .refl _⟩

theorem quiet_first (s : SerialPortStream) {tasks : List Task} (h : ∀ task ∈ tasks, task.plain) :
    Quiet s (s.first tasks) :=
  ⟨⟨rfl, rfl, rfl, rfl, rfl, id⟩, ⟨[], by simp [first], by simp⟩, .tasks h⟩

theorem throw_quiet (s : SerialPortStream) (reason : Thrown) : Quiet s (s.throw reason) := by
  unfold throw
  split
  · rename_i rest h
    exact ⟨⟨rfl, rfl, rfl, rfl, rfl, id⟩, ⟨[.reporting reason], rfl, by simp [Promise.quiet]⟩, .caught h⟩
  · exact ⟨⟨rfl, rfl, rfl, rfl, rfl, id⟩, ⟨[], by simp, by simp⟩, .thrown⟩

theorem _report_quiet (s : SerialPortStream) (error : SerialError) (cb : Option Callback) :
    Quiet s (s._report error cb) := by
  cases cb with
  | none => exact quiet_first s (by simp [Task.plain, Output.moves, Output.noted, Kind.plain])
  | some cb => exact quiet_first s (by simp)

theorem _asyncError_quiet (s : SerialPortStream) (message : String) (cb : Option Callback) :
    Quiet s (s._asyncError message cb) :=
  ⟨⟨rfl, rfl, rfl, rfl, rfl, id⟩, ⟨[], by simp [_asyncError], by simp⟩, .refl _⟩

theorem closeCalls_plain (s : SerialPortStream) (error : Option SerialError) :
    ∀ task ∈ s.closeCalls error, task.plain := by
  intro task hmem
  simp only [closeCalls, List.mem_append, List.mem_singleton, List.mem_map] at hmem
  obtain (rfl | hmem) | ⟨cb, -, rfl⟩ := hmem
  · rfl
  · split at hmem
    · obtain rfl := List.mem_singleton.1 hmem
      rfl
    · simp at hmem
  · exact callback_plain _ _

theorem openCalls_plain (cb : Option Callback) : ∀ task ∈ Task.call .emitOpen .listener ::
    (cb.toList.map (callback none) ++ [.resume, .catchOpen]), task.plain := by
  intro task hmem
  simp only [List.mem_cons, List.mem_append, List.mem_map] at hmem
  obtain rfl | ⟨cb, -, rfl⟩ | rfl | rfl | hmem := hmem
  · rfl
  · exact callback_plain _ _
  · rfl
  · rfl
  · simp at hmem

theorem failedCalls_plain (s : SerialPortStream) (failure : SerialError) :
    ∀ task ∈ s.failedCalls failure, task.plain := by
  intro task hmem
  obtain hmem | hmem := List.mem_append.1 hmem
  · split at hmem
    · obtain rfl := List.mem_singleton.1 hmem
      rfl
    · obtain ⟨cb, -, rfl⟩ := List.mem_map.1 hmem
      exact callback_plain _ _
  · obtain rfl := List.mem_singleton.1 hmem
    rfl

theorem _finishClose_quiet (s : SerialPortStream) (error : Option SerialError) : Quiet s (s._finishClose error) := by
  unfold _finishClose
  split
  · exact quiet_refl s
  · exact ⟨⟨rfl, rfl, rfl, rfl, rfl, fun _ _ => rfl⟩, ⟨[], by simp [first], by simp⟩, .tasks (closeCalls_plain s _)⟩

theorem _closeFailed_quiet (s : SerialPortStream) (port : ℕ) (error : Thrown) : Quiet s (s._closeFailed port error) := by
  unfold _closeFailed
  split
  · exact quiet_refl s
  split
  · exact _finishClose_quiet s _
  · exact ⟨⟨rfl, rfl, rfl, rfl, rfl, id⟩, ⟨[], by simp [first], by simp⟩, .tasks (failedCalls_plain s _)⟩

theorem closed_quiet (s : SerialPortStream) (port : ℕ) (error : Option SerialError) : Quiet s (s.closed port error) := by
  unfold closed
  split
  · exact _finishClose_quiet s error
  · exact quiet_refl s

theorem close_quiet (s : SerialPortStream) (cb : Option Callback) (error : Option SerialError) :
    Quiet s (s.close cb error) := by
  unfold close
  split
  · exact _asyncError_quiet s _ _
  split
  · exact _asyncError_quiet s _ _
  simp only
  split
  · split
    · exact ⟨⟨rfl, rfl, rfl, rfl, rfl, id⟩, ⟨[], by simp [first], by simp⟩,
        .tasks (by simp [Task.plain, Output.moves, Output.noted, Kind.plain])⟩
    · obtain ⟨⟨h₁, h₂, h₃, h₄, h₅, h₆⟩, hpromises, htodo⟩ := throw_quiet
        { s with closing := true, _closeError := error, _closeCallbacks := s._closeCallbacks ++ cb.toList } _
      exact ⟨⟨h₁, h₂, h₃, h₄, h₅, h₆⟩, hpromises, htodo⟩
  · split
    · exact ⟨⟨rfl, rfl, rfl, rfl, rfl, id⟩, ⟨[], by simp, by simp⟩, .refl _⟩
    · exact ⟨⟨rfl, rfl, rfl, rfl, rfl, id⟩, ⟨_, rfl, by simp [Promise.quiet]⟩,
      .tasks (by simp [Task.plain, Output.moves, Output.noted, Kind.plain])⟩

theorem close_eq (s : SerialPortStream) (cb : Option Callback) (error : Option SerialError) {port : ℕ}
    (hopen : s.isOpen) (hopening : s.opening = false) (hport : s.port = some port) :
    s.close cb error = ({ s with
      closing := true
      _closeError := error
      _closeCallbacks := s._closeCallbacks ++ cb.toList }.await (.closing port error)).first
        [.call (.close port) .binding] := by
  have hclosing : s.closing = false := by
    rw [isOpen, Bool.and_eq_true, Bool.not_eq_true'] at hopen
    exact hopen.2
  simp [close, hclosing, hopen, hopening, hport]

theorem open_quiet (s : SerialPortStream) (cb : Option Callback) : Quiet s (s.open cb) := by
  unfold SerialPortStream.open
  split
  · exact _asyncError_quiet s _ _
  split
  · exact _asyncError_quiet s _ _
  split
  · exact _asyncError_quiet s _ _
  · rename_i hopen hbusy
    have hclosed : s.port.any s.ports = false := by
      simp only [Bool.or_eq_true, not_or, Bool.not_eq_true] at hbusy
      simpa [isOpen, hbusy.2] using hopen
    exact ⟨⟨rfl, rfl, rfl, rfl, rfl, fun _ _ => hclosed⟩, ⟨_, rfl, by simp [Promise.quiet]⟩,
      .tasks (by simp [Task.plain, Output.moves, Output.noted, Kind.plain])⟩

theorem _operation_quiet (s : SerialPortStream) (operation : ControlOperation) (baudRate : Option ℕ)
    (cb : Option Callback) : Quiet s (s._operation operation baudRate cb) := by
  unfold _operation
  split
  · exact _asyncError_quiet s _ _
  · exact ⟨⟨rfl, rfl, rfl, rfl, rfl, id⟩, ⟨_, rfl, by simp [Promise.quiet]⟩,
      .tasks (by simp [Task.plain, Output.moves, Output.noted, Kind.plain])⟩

theorem operated_quiet (s : SerialPortStream) (port : ℕ) (operation : ControlOperation) (baudRate : Option ℕ)
    (cb : Option Callback) : Quiet s (s.operated port operation baudRate cb) := by
  have hplain : ∀ task ∈ cb.toList.map (callback none), task.plain := by simp
  unfold operated
  simp only
  split
  · exact ⟨⟨rfl, rfl, rfl, rfl, rfl, id⟩, ⟨[], by simp [first], by simp⟩, .tasks hplain⟩
  · exact quiet_first s hplain

theorem quiet_of_first {s' : SerialPortStream} {tasks : List Task} (hplain : ∀ task ∈ tasks, task.plain)
    (h : Quiet (s.first tasks) s') (htodo : ∃ more, (∀ task ∈ more, task.plain) ∧ s'.todo = more ++ (s.first tasks).todo) :
    Quiet s s' := by
  obtain ⟨more, hmore, htodo⟩ := htodo
  refine ⟨(quiet_first s hplain).frame.trans h.frame, h.promises, ?_⟩
  rw [htodo, first, ← List.append_assoc]
  refine .tasks fun task hmem => ?_
  obtain hmem | hmem := List.mem_append.1 hmem
  · exact hmore task hmem
  · exact hplain task hmem

theorem _finishClose_todo (s : SerialPortStream) (error : Option SerialError) :
    ∃ more, (∀ task ∈ more, task.plain) ∧ (s._finishClose error).todo = more ++ s.todo := by
  unfold _finishClose
  split
  · exact ⟨[], by simp, rfl⟩
  · exact ⟨_, closeCalls_plain s _, rfl⟩

theorem _closeFailed_todo (s : SerialPortStream) (port : ℕ) (error : Thrown) :
    ∃ more, (∀ task ∈ more, task.plain) ∧ (s._closeFailed port error).todo = more ++ s.todo := by
  unfold _closeFailed
  split
  · exact ⟨[], by simp, rfl⟩
  split
  · exact _finishClose_todo s _
  · exact ⟨_, failedCalls_plain s _, rfl⟩

theorem canceled_quiet (s : SerialPortStream) (port : ℕ) (cb : Option Callback) (error : Option Thrown) :
    Quiet s (s.canceled port cb error) := by
  have hplain : ∀ task ∈ cb.toList.map (callback (some openingCanceled)), task.plain := by simp
  unfold canceled
  simp only
  split
  · exact quiet_of_first hplain (_closeFailed_quiet _ _ _) (_closeFailed_todo _ _ _)
  split
  · exact quiet_of_first hplain (_finishClose_quiet _ _) (_finishClose_todo _ _)
  · exact quiet_first s hplain

theorem openFailed_quiet (s : SerialPortStream) (error : SerialError) (cb : Option Callback) :
    Quiet s (s.openFailed error cb) := by
  unfold openFailed
  split
  · exact quiet_of_first (by simp) (_finishClose_quiet _ _) (_finishClose_todo _ _)
  · exact _report_quiet s error cb

theorem tearDown_quiet (s : SerialPortStream) (error : Option SerialError) : Quiet s (s.tearDown error) := by
  unfold tearDown
  split
  · exact ⟨⟨rfl, rfl, rfl, rfl, rfl, id⟩, ⟨[], by simp, by simp⟩, .refl _⟩
  split
  · exact close_quiet s _ _
  · exact quiet_first s (by simp)

theorem onClose_quiet (s : SerialPortStream) (port : ℕ) (error : Option Thrown) : Quiet s (s.onClose port error) := by
  unfold onClose
  split
  · exact quiet_refl s
  simp only
  split
  · exact close_quiet s _ _
  · exact _finishClose_quiet s _

end SerialPortStream

/-! ### Reads -/

/-- A quiet function that throws no exception and registers nothing. -/
structure Same (s s' : SerialPortStream) : Prop where
  frame : Frame s s'
  promises : s'.promises = s.promises
  todo : s'.todo = s.todo
  isOpen : s'.isOpen = s.isOpen

theorem Same.quiet {s s₁ s' : SerialPortStream} (h : Same s s₁) (h' : Quiet s₁ s') : Quiet s s' :=
  ⟨h.frame.trans h'.frame, h.promises ▸ h'.promises, h.todo ▸ h'.todo⟩

/-- A call that asks for data. -/
def Output.asks : Output → Bool
  | .startReading _ _ | .readChunk _ _ | .read _ _ => true
  | _ => false

/-- What a function does that may ask an open port for data. -/
inductive Reads (s s' : SerialPortStream) : Prop where
  | quiet (h : Quiet s s')
  | asks {output : Output} {kind : Kind} (hopen : s.isOpen) (frame : Frame s s')
    (promises : ∃ added : List Promise, s'.promises = s.promises ++ added ∧
      ∀ promise ∈ added, ∃ port length, promise = .reading port length)
    (houtput : output.asks) (hkind : kind.cancels = false) (todo : s'.todo = .call output kind :: s.todo)

theorem Same.reads {s s₁ s' : SerialPortStream} (h : Same s s₁) (h' : Reads s₁ s') : Reads s s' := by
  cases h' with
  | quiet hquiet => exact .quiet (h.quiet hquiet)
  | asks hopen hframe hpromises houtput hkind htodo =>
    exact .asks (h.isOpen ▸ hopen) (h.frame.trans hframe) (h.promises ▸ hpromises) houtput hkind (h.todo ▸ htodo)

namespace SerialPortStream

theorem readSettled_same (s : SerialPortStream) (port : ℕ) : Same s (s.readSettled port) := by
  unfold readSettled
  split
  · exact ⟨⟨rfl, rfl, rfl, rfl, rfl, id⟩, rfl, rfl, rfl⟩
  · exact ⟨.refl s, rfl, rfl, rfl⟩

theorem openPort_eq_some {s : SerialPortStream} {port : ℕ} : s.openPort = some port ↔ s.isOpen ∧ s.port = some port := by
  simp [openPort]

theorem openPort_eq_none {s : SerialPortStream} : s.openPort = none ↔ s.isOpen = false := by
  by_cases hopen : s.isOpen
  · have hport : s.port ≠ none := by
      intro hnone
      simp [isOpen, hnone] at hopen
    simp [openPort, hopen, hport]
  · simp [openPort, hopen]

theorem _read_reads (s : SerialPortStream) (length : ℕ) : Reads s (s._read length) := by
  have hsame : Same s { s with _readRequested := true } := ⟨⟨rfl, rfl, rfl, rfl, rfl, id⟩, rfl, rfl, rfl⟩
  refine hsame.reads ?_
  unfold _read
  simp only
  split
  · exact .quiet (quiet_refl _)
  · rename_i port hport
    have hopen := (openPort_eq_some.1 hport).1
    split
    · exact .quiet (quiet_refl _)
    split
    · exact .asks hopen ⟨rfl, rfl, rfl, rfl, rfl, id⟩ ⟨[], by simp [first], by simp⟩ rfl rfl rfl
    · refine .asks hopen ⟨rfl, rfl, rfl, rfl, rfl, id⟩ ⟨_, rfl, by simp⟩ ?_ rfl rfl
      split <;> rfl

theorem resumeRead_reads (s : SerialPortStream) : Reads s s.resumeRead := by
  unfold resumeRead
  split
  · exact _read_reads s _
  · exact .quiet (quiet_refl s)

theorem _readError_reads (s : SerialPortStream) (port : ℕ) (error : Thrown) (length : ℕ) :
    Reads s (s._readError port error length) := by
  refine (readSettled_same s port).reads ?_
  unfold _readError
  simp only
  split
  · exact .quiet (close_quiet _ _ _)
  split
  · exact _read_reads _ _
  · exact .quiet (quiet_refl _)

/-- A read that resolved pushes its data, where its port is the open one. -/
theorem received_cases (s : SerialPortStream) (port length : ℕ) (data : Buffer) :
    (s.port = some port ∧ s.isOpen ∧ s.received port length data =
      { s.readSettled port with _readRequested := false }.first
        [.call (.push (if data = [] then none else some data)) .listener]) ∨
    (¬ (s.port = some port ∧ s.isOpen) ∧ Reads s (s.received port length data)) := by
  have hsame := readSettled_same s port
  have hport : (s.readSettled port).port = s.port := by
    unfold readSettled
    split <;> rfl
  unfold received
  simp only
  rw [hsame.isOpen, hport]
  split
  · rename_i h
    exact .inl ⟨h.1, h.2, rfl⟩
  · rename_i h
    refine .inr ⟨h, hsame.reads ?_⟩
    split
    · exact _read_reads _ _
    · exact .quiet (quiet_refl _)

theorem onData_cases (s : SerialPortStream) (port : ℕ) (data : Buffer) :
    (s.port = some port ∧ s.isOpen ∧ s.onData port data =
      { s with _readRequested := false }.first [.call (.push (some data)) .listener]) ∨
    (¬ (s.port = some port ∧ s.isOpen) ∧ s.onData port data = s) := by
  unfold onData
  split
  · rename_i h
    exact .inl ⟨h.1, h.2, rfl⟩
  · rename_i h
    exact .inr ⟨h, rfl⟩

/-! ### Writes -/

theorem _failWaitingWrite_cases (s : SerialPortStream) (error : SerialError) :
    (s._waitingWrite = none ∧ s._failWaitingWrite error = s) ∨
    ∃ write data, s._waitingWrite = some (write, data) ∧ s._failWaitingWrite error =
      { s with _waitingWrite := none }.first [.call (.written write (some error)) .listener] := by
  unfold _failWaitingWrite
  split
  · rename_i h
    exact .inl ⟨h, rfl⟩
  · rename_i write data h
    exact .inr ⟨write, data, h, rfl⟩

theorem _write_cases (s : SerialPortStream) (write : ℕ) (data : Buffer) :
    (s.isOpen = false ∧ s._write write data = { s with _waitingWrite := some (write, data) }) ∨
    ∃ port, s.isOpen ∧ s.port = some port ∧ s._write write data =
      (s.await (.writing port write)).first [.call (.write port write data) .binding] := by
  unfold _write
  split
  · rename_i h
    exact .inl ⟨openPort_eq_none.1 h, rfl⟩
  · rename_i port h
    obtain ⟨hopen, hport⟩ := openPort_eq_some.1 h
    exact .inr ⟨port, hopen, hport, rfl⟩

theorem _writev_cases (s : SerialPortStream) (write : ℕ) (chunks : List Buffer) :
    s._writev write chunks = s._write write chunks.flatten ∨
    ∃ port, s.isOpen ∧ s.port = some port ∧ s._writev write chunks =
      (s.await (.writing port write)).first [.call (.writev port write chunks) .binding] := by
  unfold _writev
  split
  · exact .inl rfl
  · rename_i port h
    obtain ⟨hopen, hport⟩ := openPort_eq_some.1 h
    split
    · exact .inl rfl
    · exact .inr ⟨port, hopen, hport, rfl⟩

/-- `_resumeIO`: nothing while destroyed or not open; else the waiting write goes first. -/
theorem _resumeIO_cases (s : SerialPortStream) :
    ((s.destroyed ∨ s.isOpen = false) ∧ _resumeIO s = s) ∨
    (s.destroyed = false ∧ s.isOpen ∧ s._waitingWrite = none ∧ _resumeIO s = s.resumeRead) ∨
    ∃ port write data, s.destroyed = false ∧ s.isOpen ∧ s.port = some port ∧ s._waitingWrite = some (write, data) ∧
      _resumeIO s = (({ s with _waitingWrite := none }.first [.resumeRead]).await (.writing port write)).first
        [.call (.write port write data) .binding] := by
  unfold _resumeIO
  split
  · rename_i h
    exact .inl ⟨by simpa using h, rfl⟩
  · rename_i h
    simp only [Bool.or_eq_true, Bool.not_eq_true', not_or, Bool.not_eq_true, Bool.not_eq_false] at h
    obtain ⟨hdestroyed, hopen⟩ := h
    split
    · rename_i hwaiting
      exact .inr (.inl ⟨hdestroyed, hopen, hwaiting, rfl⟩)
    · rename_i write data hwaiting
      obtain ⟨hclosed, -⟩ | ⟨port, -, hport, heq⟩ :=
        _write_cases ({ s with _waitingWrite := none }.first [.resumeRead]) write data
      · have hopen' : ({ s with _waitingWrite := none }.first [.resumeRead]).isOpen = s.isOpen := rfl
        rw [hopen', hopen] at hclosed
        cases hclosed
      · exact .inr (.inr ⟨port, write, data, hdestroyed, hopen, hport, hwaiting, heq⟩)

/-! ### Steps -/

/-- **The continuation of each promise.** -/
inductive Settles (s : SerialPortStream) : Promise → Result → SerialPortStream → Prop
  | opened {cb : Option Callback} {port : ℕ} {isOpen : Bool} :
      Settles s (.opening cb) (.port port isOpen) (s.opened port isOpen cb)
  | rejected {cb : Option Callback} {reason : Thrown} : Settles s (.opening cb) (.rejected reason) (s.rejected reason cb)
  | closed {port : ℕ} {error : Option SerialError} : Settles s (.closing port error) .done (s.closed port error)
  | closeFailed {port : ℕ} {error : Option SerialError} {reason : Thrown} :
      Settles s (.closing port error) (.rejected reason) (s._closeFailed port reason)
  | canceled {port : ℕ} {cb : Option Callback} :
      Settles s (.canceling port cb) .done ((s.first [.catchOpen]).canceled port cb none)
  | cancelFailed {port : ℕ} {cb : Option Callback} {reason : Thrown} :
      Settles s (.canceling port cb) (.rejected reason) ((s.first [.catchOpen]).canceled port cb (some reason))
  | written {port write : ℕ} : Settles s (.writing port write) .done (s.first [.call (.written write none) .listener])
  | writeFailed {port write : ℕ} {reason : Thrown} :
      Settles s (.writing port write) (.rejected reason) (s._writeError port write reason)
  | data {port length : ℕ} {data : Buffer} (hchunk : (s.features port).readChunk = true) :
      Settles s (.reading port length) (.data data) (s.received port length data)
  | bytesRead {port length : ℕ} {bytesRead : Option ℤ} {buffer data : Buffer} (hchunk : (s.features port).readChunk = false)
      (hlength : buffer.length = length) (hdata : readData length bytesRead buffer = .ok data) :
      Settles s (.reading port length) (.bytesRead bytesRead buffer) (s.received port length data)
  | invalid {port length : ℕ} {bytesRead : Option ℤ} {buffer : Buffer} {error : Thrown}
      (hchunk : (s.features port).readChunk = false) (hlength : buffer.length = length)
      (herror : readData length bytesRead buffer = .error error) :
      Settles s (.reading port length) (.bytesRead bytesRead buffer) (s._readError port error length)
  | readFailed {port length : ℕ} {reason : Thrown} :
      Settles s (.reading port length) (.rejected reason) (s._readError port reason length)
  | operated {port : ℕ} {operation : ControlOperation} {baudRate : Option ℕ} {cb : Option Callback} :
      Settles s (.operating port operation baudRate cb) .done (s.operated port operation baudRate cb)
  | operationFailed {port : ℕ} {operation : ControlOperation} {baudRate : Option ℕ} {cb : Option Callback} {reason : Thrown} :
      Settles s (.operating port operation baudRate cb) (.rejected reason) (s._report (asError reason) cb)
  | reported {reason : Thrown} : Settles s (.reporting reason) (.rejected reason) (s._report (asError reason) none)

theorem settled_settles {s' : SerialPortStream} {promise : Promise} {result : Result}
    (h : s.settled promise result = some s') : Settles s promise result s' := by
  cases promise with
  | opening cb =>
    cases result with
    | port port isOpen =>
      cases h
      exact .opened
    | rejected reason =>
      cases h
      exact .rejected
    | _ => cases h
  | closing port error =>
    cases result with
    | done =>
      cases h
      exact .closed
    | rejected reason =>
      cases h
      exact .closeFailed
    | _ => cases h
  | canceling port cb =>
    cases result with
    | done =>
      cases h
      exact .canceled
    | rejected reason =>
      cases h
      exact .cancelFailed
    | _ => cases h
  | writing port write =>
    cases result with
    | done =>
      cases h
      exact .written
    | rejected reason =>
      cases h
      exact .writeFailed
    | _ => cases h
  | reading port length =>
    cases result with
    | data data =>
      obtain ⟨hchunk, heq⟩ := Option.ite_none_right_eq_some.1
        (show (if (s.features port).readChunk then some (s.received port length data) else none) = some s' from h)
      cases heq
      exact .data hchunk
    | bytesRead bytesRead buffer =>
      simp only [settled] at h
      split at h
      · rename_i hread
        have hchunk : (s.features port).readChunk = false := by simpa using hread.1
        split at h <;> cases h
        · rename_i data hdata
          exact .bytesRead hchunk hread.2 hdata
        · rename_i error herror
          exact .invalid hchunk hread.2 herror
      · cases h
    | rejected reason =>
      cases h
      exact .readFailed
    | _ => cases h
  | operating port operation baudRate cb =>
    cases result with
    | done =>
      cases h
      exact .operated
    | rejected reason =>
      cases h
      exact .operationFailed
    | _ => cases h
  | reporting thrown =>
    cases result with
    | rejected reason =>
      obtain ⟨rfl, heq⟩ := Option.ite_none_right_eq_some.1
        (show (if thrown = reason then some (s._report (asError reason) none) else none) = some s' from h)
      cases heq
      exact .reported
    | _ => cases h

/-- **What runs on each input**, and when it may. -/
inductive Runs (s : SerialPortStream) : Input → SerialPortStream → List Output → Prop
  | enter {entry : Entry} {s' : SerialPortStream} {out : List Output} (hwaits : s.waits)
      (hentry : s.enter entry = some (s', out)) : Runs s (.enter entry) s' out
  | returns {kind : Kind} {rest : List Task} (htodo : s.todo = .outside kind :: rest) :
      Runs s .returns ({ s with todo := rest }.returned kind) []
  | throws {kind : Kind} {rest : List Task} (reason : Thrown) (htodo : s.todo = .outside kind :: rest) :
      Runs s (.throws reason) ({ s with todo := rest }.thrown reason kind) []
  | proceed {task : Task} {rest : List Task} {s' : SerialPortStream} {out : List Output} (htodo : s.todo = task :: rest)
      (htask : { s with todo := rest }.perform task = some (s', out)) : Runs s .proceed s' out
  | settle {index : ℕ} {promise : Promise} {result : Result} {s' : SerialPortStream} (htodo : s.todo = [])
      (hpromise : s.promises[index]? = some promise)
      (hsettled : { s with promises := s.promises.eraseIdx index }.settled promise result = some s') :
      Runs s (.settle index result) s' []
  | tick {message : String} {cb : Option Callback} {rest : List (String × Option Callback)} (htodo : s.todo = [])
      (hticks : s.ticks = (message, cb) :: rest) :
      Runs s .tick ({ s with ticks := rest }._report { message := message } cb) []
  | isOpen {port : ℕ} {value : Bool} (hwaits : s.waits) : Runs s (.isOpen port value) (s.setOpen port value) []

/-- Nothing else runs. -/
theorem step_runs {s' : SerialPortStream} {input : Input} {out : List Output} (h : s.step input = some (s', out)) :
    Runs s input s' out := by
  cases input with
  | enter entry =>
    obtain ⟨hwaits, hentry⟩ := Option.ite_none_right_eq_some.1
      (show (if s.waits then s.enter entry else none) = some (s', out) from h)
    exact .enter hwaits hentry
  | returns =>
    simp only [step] at h
    split at h <;> cases h
    rename_i htodo
    exact .returns htodo
  | throws reason =>
    simp only [step] at h
    split at h <;> cases h
    rename_i htodo
    exact .throws reason htodo
  | proceed =>
    simp only [step] at h
    split at h
    · rename_i htodo
      exact .proceed htodo h
    · cases h
  | settle index result =>
    obtain ⟨htodo, h⟩ := Option.ite_none_right_eq_some.1 (show (if s.todo = [] then _ else none) = some (s', out) from h)
    split at h
    · rename_i promise hpromise
      obtain ⟨s₁, hsettled, heq⟩ := Option.map_eq_some_iff.1 h
      cases heq
      exact .settle htodo hpromise hsettled
    · cases h
  | tick =>
    obtain ⟨htodo, h⟩ := Option.ite_none_right_eq_some.1 (show (if s.todo = [] then _ else none) = some (s', out) from h)
    split at h <;> cases h
    rename_i hticks
    exact .tick htodo hticks
  | isOpen port value =>
    obtain ⟨hwaits, heq⟩ := Option.ite_none_right_eq_some.1 (show (if _ then _ else none) = some (s', out) from h)
    cases heq
    exact .isOpen hwaits

end SerialPortStream

end NodeSerialport.Stream
