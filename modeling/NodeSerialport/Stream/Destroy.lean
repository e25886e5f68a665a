import NodeSerialport.Stream.Refinement
/-!
# A destroyed stream

Once `_destroy` has run, the port may still be open: its `close` is under way, or fails.  `_resumeIO` tests `destroyed` before
its write; the handlers of a read that an earlier connection left behind do not.

* `Output.transfers` — the calls that start a transfer;
* `Quelled` — what holds once `_destroy` has run: no transfer is left to be made;
* `Stale` — what goes on reading while the present port is open and is not being read;
* `destroyed_quiet` — no transfer is made as long as nothing stale goes on, and one is made as soon as something does.
-/

namespace NodeSerialport.Stream

open Binding (SerialError ControlOperation)
open Lib (Machine)

/-- A call that starts a transfer. -/
def Output.transfers : Output → Bool
  | .startReading _ _ | .readChunk _ _ | .read _ _ | .write _ _ _ | .writev _ _ _ => true
  | _ => false

theorem transfers_of_not_moves {output : Output} (h : output.moves = false) : output.transfers = false := by
  cases output with
  | startReading | readChunk | read | write | writev => cases h
  | _ => rfl

/-! ### The invariant -/

/-- What holds once `_destroy` has run. -/
structure Quelled (s : SerialPortStream) : Prop where
  destroyed : s.destroyed
  due : ∀ output ∈ due s.todo, output.transfers = false

theorem Clear.transfers {wild : Bool} {todo : List Task} (h : Clear wild todo) : ∀ output ∈ due todo, output.transfers = false := by
  intro output hmem
  cases hmoves : output.moves with
  | false => exact transfers_of_not_moves hmoves
  | true =>
    obtain ⟨write, error, rfl⟩ := h.moving_written output (List.mem_filter.2 ⟨hmem, hmoves⟩)
    rfl

theorem Grown.due {todo todo' : List Task} (h : Grown todo todo') {output : Output} (hmem : output ∈ due todo') :
    output.transfers = false ∨ output ∈ Stream.due todo := by
  have hdrop : Stream.due (todo.dropWhile fun task => !task.catches) ⊆ Stream.due todo :=
    ((List.dropWhile_sublist _).filterMap _).subset
  cases h with
  | tasks htasks =>
    rw [due_append, List.mem_append] at hmem
    exact hmem.imp_left fun hnew => transfers_of_not_moves (moves_of_plain htasks output hnew)
  | thrown => exact .inr (hdrop hmem)
  | caught hcaught =>
    rw [hcaught] at hdrop
    exact .inr (hdrop hmem)

theorem Grown.mem {todo todo' : List Task} (h : Grown todo todo') {task : Task} (hmem : task ∈ todo') :
    task.plain ∨ task ∈ todo := by
  cases h with
  | tasks htasks => exact (List.mem_append.1 hmem).imp_left (htasks task)
  | thrown => exact .inr ((List.dropWhile_sublist _).subset hmem)
  | caught hcaught => exact .inr ((List.dropWhile_sublist _).subset (hcaught ▸ List.mem_cons_of_mem _ hmem))

section

variable {s s' : SerialPortStream}

theorem Quelled.quiet (h : Quelled s) (hquiet : Quiet s s') : Quelled s' := by
  refine ⟨?_, fun output hmem => (hquiet.todo.due hmem).elim id (h.due output)⟩
  rw [hquiet.frame.destroyed]
  exact h.destroyed

theorem Quelled.of_todo (h : Quelled s) (tasks rest : List Task) (hrest : ∀ task ∈ rest, task ∈ s.todo)
    (htodo : s'.todo = tasks ++ rest) (hdestroyed : s'.destroyed = s.destroyed)
    (hdue : ∀ output ∈ Stream.due tasks, output.transfers = false) : Quelled s' := by
  refine ⟨hdestroyed ▸ h.destroyed, ?_⟩
  intro output hmem
  rw [htodo, due_append, List.mem_append] at hmem
  obtain hmem | hmem := hmem
  · exact hdue output hmem
  · obtain ⟨task, htask, houtput⟩ := List.mem_filterMap.1 hmem
    exact h.due output (List.mem_filterMap.2 ⟨task, hrest task htask, houtput⟩)

end

/-! ### Which functions open no port -/

namespace SerialPortStream

variable {s : SerialPortStream}

@[simp] theorem first_isOpen (s : SerialPortStream) (tasks : List Task) : (s.first tasks).isOpen = s.isOpen := rfl

theorem throw_isOpen (s : SerialPortStream) (reason : Thrown) : (s.throw reason).isOpen = s.isOpen := by
  unfold throw
  split <;> rfl

theorem isOpen_of_closing (h : s.closing) : s.isOpen = false := by simp [isOpen, h]

theorem isOpen_of_port (h : s.port = none) : s.isOpen = false := by simp [isOpen, h]

theorem setOpen_isOpen (s : SerialPortStream) (port : ℕ) : (s.setOpen port false).isOpen → s.isOpen := by
  intro hopen
  cases hport : s.port with
  | none => simp [isOpen, setOpen, hport] at hopen
  | some current =>
    by_cases hsame : current = port
    · simp [isOpen, setOpen, hport, hsame] at hopen
    · simpa [isOpen, setOpen, hport, hsame] using hopen

theorem open_isOpen (s : SerialPortStream) (cb : Option Callback) : (s.open cb).isOpen = s.isOpen := by
  unfold SerialPortStream.open
  split
  · rfl
  split
  · rfl
  split
  · rfl
  · rfl

theorem _read_closed (h : s.isOpen = false) (length : ℕ) : s._read length = { s with _readRequested := true } := by
  have hclosed : ({ s with _readRequested := true } : SerialPortStream).openPort = none := openPort_eq_none.2 h
  simp [_read, hclosed]

theorem _read_pending {port : ℕ} (hopen : s.isOpen) (hport : s.port = some port) (hread : s._readPort = some port)
    (length : ℕ) : s._read length = { s with _readRequested := true } := by
  have hsome : ({ s with _readRequested := true } : SerialPortStream).openPort = some port :=
    openPort_eq_some.2 ⟨hopen, hport⟩
  unfold _read
  simp only
  rw [hsome]
  simp [hread]

end SerialPortStream

/-! ### Every step keeps it -/

/-- What goes on reading while the stream is open and its port is not being read: a read of an earlier connection that settles
or fails, and `_resumeIO` behind its write. -/
inductive Stale (s : SerialPortStream) : Input → Prop where
  | settles {index port length : ℕ} {result : Result} (hpromise : s.promises[index]? = some (.reading port length))
      (hother : s.port ≠ some port) (hopen : s.isOpen) (hread : s._readPort ≠ s.port) : Stale s (.settle index result)
  | throws {reason : Thrown} {port length : ℕ} {rest : List Task}
      (htodo : s.todo = .outside (.startReading port length) :: rest) (hother : s.port ≠ some port) (hopen : s.isOpen)
      (hread : s._readPort ≠ s.port) : Stale s (.throws reason)
  | resumes {rest : List Task} (htodo : s.todo = .resumeRead :: rest) (hrequested : s._readRequested) (hopen : s.isOpen)
      (hread : s._readPort ≠ s.port) : Stale s .proceed

namespace Quelled

open SerialPortStream

variable {wild : Bool} {s s' : SerialPortStream} {out : List Output}

theorem same (h : Quelled s) (hsame : Same s s') : Quelled s' :=
  h.of_todo [] s.todo (fun _ => id) hsame.todo hsame.frame.destroyed (by simp)

theorem enter (h : Quelled s) {entry : Entry} (hstep : s.enter entry = some (s', out)) : Quelled s' ∧ out = [] := by
  have hdestroyed := h.destroyed
  cases entry with
  | «open» cb =>
    cases hstep
    exact ⟨h.quiet (open_quiet s _), rfl⟩
  | close cb =>
    cases hstep
    exact ⟨h.quiet (close_quiet s _ _), rfl⟩
  | destroy error =>
    cases hstep
    simp only [hdestroyed, if_true]
    exact ⟨h, trivial⟩
  | operation operation baudRate cb =>
    cases hstep
    exact ⟨h.quiet (_operation_quiet s _ _ _), rfl⟩
  | onClose port error closed =>
    cases hstep
    refine ⟨?_, rfl⟩
    have hset : Quelled (if closed then s.setOpen port false else s) := by
      split
      · exact ⟨h.destroyed, h.due⟩
      · exact h
    exact hset.quiet (onClose_quiet _ port error)
  | onData port data =>
    cases hstep
    refine ⟨?_, rfl⟩
    obtain ⟨-, -, heq⟩ | ⟨-, heq⟩ := onData_cases s port data
    · rw [heq]
      exact h.of_todo _ s.todo (fun _ => id) rfl rfl (by simp [Output.transfers])
    · rw [heq]
      exact h
  | _ => simp [SerialPortStream.enter, hdestroyed] at hstep

theorem popped (h : Quelled s) {task : Task} {rest : List Task} (htodo : s.todo = task :: rest) :
    Quelled { s with todo := rest } :=
  h.of_todo [] rest (fun other hmem => htodo ▸ List.mem_cons_of_mem _ hmem) rfl rfl (by simp)

theorem returned (h : Quelled s) {kind : Kind} {rest : List Task} (htodo : s.todo = .outside kind :: rest) :
    Quelled ({ s with todo := rest }.returned kind) := by
  have hrest := h.popped htodo
  cases kind <;> exact ⟨hrest.destroyed, hrest.due⟩

theorem _read (h : Quelled s) (hidle : s.isOpen → s._readPort = s.port) (length : ℕ) : Quelled (s._read length) := by
  cases hopen : s.isOpen with
  | false =>
    rw [_read_closed hopen]
    exact ⟨h.destroyed, h.due⟩
  | true =>
    obtain ⟨port, hport⟩ : ∃ port, s.port = some port := by
      cases hport : s.port with
      | none => simp [isOpen, hport] at hopen
      | some port => exact ⟨port, rfl⟩
    rw [_read_pending hopen hport ((hidle hopen).trans hport)]
    exact ⟨h.destroyed, h.due⟩

theorem readSettled_idle {port : ℕ} (hother : s.port ≠ some port) (hidle : s._readPort = s.port) :
    (s.readSettled port)._readPort = (s.readSettled port).port := by
  have hne : s._readPort ≠ some port := hidle ▸ hother
  rw [readSettled, if_neg hne]
  exact hidle

theorem read_settled (h : Quelled s) {port : ℕ} (length : ℕ)
    (hfresh : s.port ≠ some port → s.isOpen → s._readPort = s.port) :
    (∀ data, Quelled (s.received port length data)) ∧ ∀ reason, Quelled (s._readError port reason length) := by
  have hsame := readSettled_same s port
  have hbase := h.same hsame
  have hport : (s.readSettled port).port = s.port := by
    unfold readSettled
    split <;> rfl
  have hread (hother : s.port ≠ some port) : Quelled ((s.readSettled port)._read length) :=
    hbase._read (fun hopen => readSettled_idle hother (hfresh hother (hsame.isOpen.symm.trans hopen))) length
  constructor
  · intro data
    obtain ⟨-, -, heq⟩ | ⟨hnot, -⟩ := received_cases s port length data
    · rw [heq]
      exact hbase.of_todo _ (s.readSettled port).todo (fun _ => id) rfl rfl (by simp [Output.transfers])
    · unfold received
      simp only
      rw [if_neg (by rwa [hsame.isOpen, hport]), hsame.isOpen]
      split
      · rename_i hopen
        exact hread fun hcurrent => hnot ⟨hcurrent, hopen⟩
      · exact hbase
  · intro reason
    unfold _readError
    simp only
    rw [hsame.isOpen, hport]
    split
    · exact hbase.quiet (close_quiet _ _ _)
    split
    · rename_i hother
      simp only [Bool.and_eq_true, decide_eq_true_eq] at hother
      exact hread hother.2
    · exact hbase

theorem thrown (h : Quelled s) {kind : Kind} {rest : List Task} (htodo : s.todo = .outside kind :: rest)
    {reason : Thrown} (hfresh : ¬ Stale s (.throws reason)) : Quelled ({ s with todo := rest }.thrown reason kind) := by
  have hrest := h.popped htodo
  cases kind with
  | listener => exact hrest.quiet (throw_quiet _ reason)
  | binding => exact hrest
  | opening => exact h.returned htodo
  | startReading port length =>
    refine (hrest.read_settled length fun hother hopen => ?_).2 reason
    by_contra hread
    exact hfresh (.throws htodo hother hopen hread)
  | canceling port cb => exact hrest.quiet (canceled_quiet _ port cb (some reason))

theorem perform (h : Quelled s) {task : Task} {rest : List Task} (htodo : s.todo = task :: rest)
    (hfresh : ¬ Stale s .proceed)
    (hstep : ({ s with todo := rest } : SerialPortStream).perform task = some (s', out)) :
    Quelled s' ∧ ∀ output ∈ out, output.transfers = false := by
  have hrest := h.popped htodo
  cases task with
  | call output kind =>
    cases hstep
    exact ⟨⟨hrest.destroyed, hrest.due⟩, by simpa using h.due output (by simp [htodo])⟩
  | outside kind => simp [SerialPortStream.perform] at hstep
  | resume =>
    cases hstep
    obtain ⟨-, heq⟩ | ⟨hnot, -⟩ | ⟨-, -, -, hnot, -⟩ := _resumeIO_cases { s with todo := rest }
    · rw [heq]
      exact ⟨hrest, by simp⟩
    · exact absurd hnot (by simp [h.destroyed])
    · exact absurd hnot (by simp [h.destroyed])
  | resumeRead =>
    cases hstep
    refine ⟨?_, by simp⟩
    unfold SerialPortStream.resumeRead
    split
    · rename_i hrequested
      refine hrest._read (fun hopen => ?_) _
      by_contra hread
      exact hfresh (.resumes htodo hrequested hopen hread)
    · exact hrest
  | cancelOpen port cb =>
    cases hstep
    exact ⟨hrest.of_todo _ rest (fun _ => id) rfl rfl (by simp [Output.transfers]), by simp⟩
  | openFailed error cb =>
    cases hstep
    exact ⟨hrest.quiet (openFailed_quiet _ error cb), by simp⟩
  | destroy error =>
    cases hstep
    exact ⟨hrest.quiet (tearDown_quiet _ error), by simp [Output.transfers]⟩
  | catchOpen =>
    cases hstep
    exact ⟨hrest, by simp⟩

theorem _failWaitingWrite (h : Quelled s) (error : SerialError) : Quelled (s._failWaitingWrite error) := by
  obtain ⟨-, heq⟩ | ⟨write, data, -, heq⟩ := _failWaitingWrite_cases s error
  · rw [heq]
    exact h
  · rw [heq]
    exact h.of_todo _ s.todo (fun _ => id) rfl rfl (by simp [Output.transfers])

theorem opened (hdestroyed : s.destroyed) (htodo : s.todo = []) (port : ℕ) (isOpen : Bool) (cb : Option Callback) :
    Quelled (s.opened port isOpen cb) := by
  unfold SerialPortStream.opened
  simp only
  split
  · refine _failWaitingWrite ?_ openingCanceled
    refine ⟨hdestroyed, ?_⟩
    simp [first, setOpen, htodo, Stream.due, Task.output?]
  · refine ⟨hdestroyed, fun output hmem => ?_⟩
    rw [first, due_append, List.mem_append] at hmem
    obtain hmem | hmem := hmem
    · exact transfers_of_not_moves (moves_of_plain (openCalls_plain cb) output hmem)
    · simp [setOpen, htodo] at hmem

theorem rejected (h : Quelled s) (reason : Thrown) (cb : Option Callback) : Quelled (s.rejected reason cb) := by
  refine _failWaitingWrite ?_ (asError reason)
  exact h.of_todo _ s.todo (fun _ => id) rfl rfl (by simp [Stream.due, Task.output?])

theorem _writeError (h : Quelled s) (port write : ℕ) (error : Thrown) : Quelled (s._writeError port write error) := by
  have hfirst : Quelled (s.first [.call (.written write (some (asError error))) .listener]) :=
    h.of_todo _ s.todo (fun _ => id) rfl rfl (by simp [Output.transfers])
  unfold SerialPortStream._writeError
  simp only
  split
  · exact hfirst.quiet (close_quiet _ _ _)
  · exact hfirst

theorem settled (h : Quelled s) (htodo : s.todo = []) {index : ℕ} {promise : Promise} {result : Result}
    (hpromise : s.promises[index]? = some promise) (hfresh : ¬ Stale s (.settle index result))
    (hstep : ({ s with promises := s.promises.eraseIdx index } : SerialPortStream).settled promise result = some s') :
    Quelled s' := by
  have hbase : Quelled { s with promises := s.promises.eraseIdx index } := ⟨h.destroyed, h.due⟩
  have hcatch : Quelled (({ s with promises := s.promises.eraseIdx index } : SerialPortStream).first [.catchOpen]) :=
    hbase.of_todo _ s.todo (fun _ => id) rfl rfl (by simp [Stream.due, Task.output?])
  have hread {port length : ℕ} (hreading : promise = .reading port length) :
      (∀ data, Quelled (({ s with promises := s.promises.eraseIdx index } : SerialPortStream).received port length data)) ∧
        ∀ reason,
          Quelled (({ s with promises := s.promises.eraseIdx index } : SerialPortStream)._readError port reason length) := by
    refine hbase.read_settled length fun hother hopen => ?_
    by_contra hread
    exact hfresh (.settles (hreading ▸ hpromise) hother hopen hread)
  cases SerialPortStream.settled_settles hstep with
  | opened => exact opened hbase.destroyed htodo _ _ _
  | rejected => exact rejected hbase _ _
  | closed => exact hbase.quiet (closed_quiet _ _ _)
  | closeFailed => exact hbase.quiet (_closeFailed_quiet _ _ _)
  | canceled | cancelFailed => exact hcatch.quiet (canceled_quiet _ _ _ _)
  | written => exact hbase.of_todo _ s.todo (fun _ => id) rfl rfl (by simp [Output.transfers])
  | writeFailed => exact hbase._writeError _ _ _
  | data | bytesRead => exact (hread rfl).1 _
  | invalid | readFailed => exact (hread rfl).2 _
  | operated => exact hbase.quiet (operated_quiet _ _ _ _ _)
  | operationFailed | reported => exact hbase.quiet (_report_quiet _ _ _)

end Quelled

theorem step_quelled {s s' : SerialPortStream} {input : Input} {out : List Output} (h : Quelled s) (hfresh : ¬ Stale s input)
    (hstep : s.step input = some (s', out)) : Quelled s' ∧ ∀ output ∈ out, output.transfers = false := by
  cases SerialPortStream.step_runs hstep with
  | enter hwaits hentry =>
    obtain ⟨hquelled, rfl⟩ := h.enter hentry
    exact ⟨hquelled, by simp⟩
  | returns htodo => exact ⟨h.returned htodo, by simp⟩
  | throws reason htodo => exact ⟨h.thrown htodo hfresh, by simp⟩
  | proceed htodo htask => exact h.perform htodo hfresh htask
  | settle htodo hpromise hsettled => exact ⟨h.settled htodo hpromise hfresh hsettled, by simp⟩
  | @tick message cb rest htodo hticks =>
    have hbase : Quelled { s with ticks := rest } := ⟨h.destroyed, h.due⟩
    exact ⟨hbase.quiet (SerialPortStream._report_quiet _ { message := message } cb), by simp⟩
  | isOpen hwaits => exact ⟨⟨h.destroyed, h.due⟩, by simp⟩

theorem enter_not_torn {s s' : SerialPortStream} {entry : Entry} {out : List Output}
    (hstep : s.enter entry = some (s', out)) : .torn ∉ out := by
  cases entry with
  | _read _ =>
    simp only [SerialPortStream.enter] at hstep
    split at hstep
    · simp at hstep
    · cases hstep
      simp
  | _write _ =>
    simp only [SerialPortStream.enter] at hstep
    split at hstep
    · simp at hstep
    · cases hstep
      simp
  | _writev _ =>
    simp only [SerialPortStream.enter] at hstep
    split at hstep
    · simp at hstep
    · cases hstep
      simp
  | _ =>
    cases hstep
    simp

/-- Once `_destroy` has run, nothing that is left may start a transfer. -/
theorem step_torn {wild : Bool} {s s' : SerialPortStream} {input : Input} {out : List Output} (hs : Sound wild s)
    (hstep : s.step input = some (s', out)) (htorn : .torn ∈ out) : Quelled s' ∧ out = [.torn] := by
  cases SerialPortStream.step_runs hstep with
  | enter hwaits hentry => exact absurd htorn (enter_not_torn hentry)
  | @proceed task rest _ _ htodo htask =>
    cases task with
    | destroy error =>
      cases htask
      have hrest : Clear wild rest := by
        have horderly := hs.orderly
        rw [htodo] at horderly
        cases horderly with
        | clear hclear => exact hclear.tail (by simp)
      have hquiet := SerialPortStream.tearDown_quiet { s with todo := rest } error
      refine ⟨⟨?_, fun output hmem => ?_⟩, rfl⟩
      · rw [hquiet.frame.destroyed]
        exact hs.doomed error (by simp [htodo])
      · exact (hquiet.todo.due hmem).elim id (hrest.transfers output)
    | call output kind =>
      have hnoted := (SerialPortStream.call_next (htodo ▸ hs.orderly)).2
      cases htask
      obtain rfl := List.mem_singleton.1 htorn
      cases hnoted
    | outside kind => simp [SerialPortStream.perform] at htask
    | _ =>
      cases htask
      simp at htorn
  | _ => cases htorn

/-! ### Runs -/

/-- The other call is no transfer that follows `_destroy`. -/
def Rests (a b : Output) : Prop := a = .torn → b.transfers = false

/-- Nothing stale goes on once `_destroy` has run. -/
def Fresh (outputs : List Output) (s : SerialPortStream) (input : Input) : Prop := .torn ∈ outputs → ¬ Stale s input

theorem run_quelled {s s' : SerialPortStream} {inputs : List Input} {outputs : List Output} (hsound : Sound true s)
    (hfresh : stream.Along (fun _ => Fresh) s inputs) (hrun : stream.run s inputs = some (s', outputs)) :
    Sound true s' ∧ outputs.Pairwise Rests ∧ (.torn ∈ outputs → Quelled s') := by
  refine Machine.run_rule (fun _ outputs s => Sound true s ∧ outputs.Pairwise Rests ∧ (.torn ∈ outputs → Quelled s))
    ⟨hsound, .nil, by simp⟩ ?_ hfresh hrun
  rintro _ outputs s input s' out ⟨hs, hrests, hquelled⟩ hfresh hstep
  refine ⟨(step_goes hs (by simp) hstep).sound, ?_, ?_⟩
  · by_cases htorn : .torn ∈ outputs
    · obtain ⟨-, hnone⟩ := step_quelled (hquelled htorn) (hfresh htorn) hstep
      refine List.pairwise_append.2 ⟨hrests, ?_, fun _ _ b hb _ => hnone b hb⟩
      exact List.pairwise_of_forall_mem_list fun _ _ b hb _ => hnone b hb
    · refine List.pairwise_append.2 ⟨hrests, ?_, fun a ha _ _ hatorn => absurd (hatorn ▸ ha) htorn⟩
      by_cases hnow : .torn ∈ out
      · rw [(step_torn hs hstep hnow).2]
        exact List.pairwise_singleton _ _
      · exact List.pairwise_of_forall_mem_list fun a ha _ _ hatorn => absurd (hatorn ▸ ha) hnow
  · intro htorn
    obtain hbefore | hnow := List.mem_append.1 htorn
    · exact (step_quelled (hquelled hbefore) (hfresh hbefore) hstep).1
    · exact (step_torn hs hstep hnow).1

theorem SerialPortStream._read_starts {s : SerialPortStream} {port : ℕ} (hopen : s.isOpen) (hport : s.port = some port)
    (hread : s._readPort ≠ some port) (length : ℕ) :
    ∃ output kind, (s._read length).todo = .call output kind :: s.todo ∧ output.transfers := by
  have hsome : ({ s with _readRequested := true } : SerialPortStream).openPort = some port :=
    openPort_eq_some.2 ⟨hopen, hport⟩
  unfold SerialPortStream._read
  simp only
  rw [hsome]
  simp only [hread, if_false]
  split
  · exact ⟨_, _, rfl, rfl⟩
  · refine ⟨_, _, rfl, ?_⟩
    split <;> rfl

/-- A read of another port that settles begins a read of the open one. -/
theorem stale_starts {s : SerialPortStream} {port current : ℕ} (hopen : s.isOpen) (hport : s.port = some current)
    (hother : current ≠ port) (hread : s._readPort ≠ some current) (length : ℕ) :
    (∀ data, ∃ output kind, (s.received port length data).todo = .call output kind :: s.todo ∧ output.transfers) ∧
    ∀ reason, ∃ output kind, (s._readError port reason length).todo = .call output kind :: s.todo ∧ output.transfers := by
  have hsame := SerialPortStream.readSettled_same s port
  have hport' : (s.readSettled port).port = some current := by
    rw [← hport]
    unfold SerialPortStream.readSettled
    split <;> rfl
  have hread' : (s.readSettled port)._readPort ≠ some current := by
    unfold SerialPortStream.readSettled
    split
    · simp
    · exact hread
  have hstarts := SerialPortStream._read_starts (hsame.isOpen.trans hopen) hport' hread' length
  rw [hsame.todo] at hstarts
  have hopen' : (s.readSettled port).isOpen = true := hsame.isOpen.trans hopen
  constructor
  · intro data
    simpa [SerialPortStream.received, hopen', hport', hother] using hstarts
  · intro reason
    simpa [SerialPortStream._readError, hopen', hport', hother] using hstarts

/-- What is stale starts a transfer. -/
theorem stale_transfers {s s' : SerialPortStream} {input : Input} {out : List Output} (h : Stale s input)
    (hstep : stream.step s input = some (s', out)) :
    ∃ s'' output, stream.step s' .proceed = some (s'', [output]) ∧ output.transfers := by
  suffices hcall : ∃ output kind rest, s'.todo = .call output kind :: rest ∧ output.transfers by
    obtain ⟨output, kind, rest, htodo, htransfers⟩ := hcall
    refine ⟨({ s' with todo := rest, writing := if output.ends then none else s'.writing } : SerialPortStream).first
      [.outside kind], output, ?_, htransfers⟩
    show SerialPortStream.step s' .proceed = _
    unfold SerialPortStream.step
    rw [htodo]
    rfl
  have hcurrent (hopen : s.isOpen) : ∃ current, s.port = some current := by
    cases hcurrent : s.port with
    | none => simp [SerialPortStream.isOpen, hcurrent] at hopen
    | some current => exact ⟨current, rfl⟩
  cases h with
  | @settles index port length result hpromise hother hopen hread =>
    obtain ⟨current, hcurrent⟩ := hcurrent hopen
    rw [hcurrent] at hother hread
    have hother' : current ≠ port := fun heq => hother (heq ▸ rfl)
    obtain ⟨hreceived, hfailed⟩ := stale_starts (s := { s with promises := s.promises.eraseIdx index }) hopen hcurrent
      hother' hread length
    change s.step (.settle index result) = some (s', out) at hstep
    cases SerialPortStream.step_runs hstep with
    | settle htodo hpromise' hsettled =>
      cases Option.some.inj (hpromise'.symm.trans hpromise)
      cases SerialPortStream.settled_settles hsettled with
      | data | bytesRead =>
        obtain ⟨output, kind, htodo, htransfers⟩ := hreceived _
        exact ⟨output, kind, _, htodo, htransfers⟩
      | invalid | readFailed =>
        obtain ⟨output, kind, htodo, htransfers⟩ := hfailed _
        exact ⟨output, kind, _, htodo, htransfers⟩
  | @throws reason port length rest htodo hother hopen hread =>
    obtain ⟨current, hcurrent⟩ := hcurrent hopen
    rw [hcurrent] at hother hread
    have hother' : current ≠ port := fun heq => hother (heq ▸ rfl)
    obtain ⟨output, kind, hcall, htransfers⟩ :=
      (stale_starts (s := { s with todo := rest }) hopen hcurrent hother' hread length).2 reason
    change s.step (.throws reason) = some (s', out) at hstep
    unfold SerialPortStream.step at hstep
    rw [htodo] at hstep
    cases hstep
    exact ⟨output, kind, _, hcall, htransfers⟩
  | @resumes rest htodo hrequested hopen hread =>
    obtain ⟨current, hcurrent⟩ := hcurrent hopen
    rw [hcurrent] at hread
    obtain ⟨output, kind, hcall, htransfers⟩ :=
      SerialPortStream._read_starts (s := { s with todo := rest }) hopen hcurrent hread s.highWaterMark
    change s.step .proceed = some (s', out) at hstep
    unfold SerialPortStream.step at hstep
    rw [htodo] at hstep
    cases hstep
    refine ⟨output, kind, rest, ?_, htransfers⟩
    have hresumes : ({ s with todo := rest } : SerialPortStream).resumeRead =
        ({ s with todo := rest } : SerialPortStream)._read s.highWaterMark := if_pos hrequested
    rw [hresumes]
    exact hcall

/-- **A destroyed stream starts no transfer as long as nothing stale goes on**, and the first that does starts one. -/
theorem destroyed_quiet (features : ℕ → Features) (endOnClose : Bool) (highWaterMark : ℕ) (baudRate : Option ℕ)
    (inputs : List Input) {s : SerialPortStream} {outputs : List Output}
    (hfresh : stream.Along (fun _ => Fresh) (.new features endOnClose highWaterMark baudRate) inputs)
    (hrun : stream.run (.new features endOnClose highWaterMark baudRate) inputs = some (s, outputs)) :
    outputs.Pairwise Rests ∧ ∀ input s' out, Stale s input → stream.step s input = some (s', out) →
      ∃ s'' output, stream.step s' .proceed = some (s'', [output]) ∧ output.transfers := by
  obtain ⟨-, hrests, -⟩ := run_quelled (new_sound true features endOnClose highWaterMark baudRate) hfresh hrun
  exact ⟨hrests, fun _ _ _ hstale hstep => stale_transfers hstale hstep⟩

/-- Whether a step may go on reading. -/
def goesOn (s : SerialPortStream) : Input → List Input
  | .settle index result =>
    match s.promises[index]? with
    | some (.reading _ _) => [.settle index result]
    | _ => []
  | .throws reason => [.throws reason]
  | .proceed => if s.todo.head? = some .resumeRead then [.proceed] else []
  | _ => []

theorem along_fresh {s s' : SerialPortStream} {inputs : List Input} {outputs : List Output}
    (hrun : stream.run s inputs = some (s', outputs)) (hnone : stream.collect goesOn s inputs = []) :
    stream.Along (fun _ => Fresh) s inputs := by
  rintro pre input post heq s₁ out hpre - hstale
  have hidle : goesOn s₁ input = [] := (Machine.collect_eq_nil hrun).1 hnone pre _ post heq s₁ out hpre
  cases hstale with
  | settles hpromise => simp [goesOn, hpromise] at hidle
  | throws htodo => simp [goesOn] at hidle
  | resumes htodo => simp [goesOn, htodo] at hidle

/-- The `close` of a destroyed stream fails, and its port stays open. -/
theorem destroyed_quiet_failed : ∃ s outputs,
    stream.run (.new (fun _ => {}) false 16 none) [.enter (.open none), .proceed, .returns, .settle 0 (.port 0 true),
      .proceed, .returns, .proceed, .proceed, .enter (.destroy none), .proceed, .proceed, .returns,
      .settle 0 (.rejected .other), .proceed, .returns, .proceed] = some (s, outputs) ∧
    outputs.Pairwise Rests ∧ .torn ∈ outputs ∧ s.isOpen := by
  refine ⟨_, _, rfl, ?_, by decide, rfl⟩
  exact (destroyed_quiet (fun _ => {}) false 16 none [.enter (.open none), .proceed, .returns,
    .settle 0 (.port 0 true), .proceed, .returns, .proceed, .proceed, .enter (.destroy none), .proceed, .proceed, .returns,
    .settle 0 (.rejected .other), .proceed, .returns, .proceed] (along_fresh rfl rfl) rfl).1

/-- The stream closes one connection whose read does not settle, opens another, and is destroyed; the second port does
not close.  Then the read settles. -/
theorem destroyed_reads : ∃ s outputs before after,
    stream.run (.new (fun port => { startReading := port = 1 }) false 16 none)
      [.enter (.open none), .proceed, .returns, .settle 0 (.port 0 true), .proceed, .returns, .proceed, .proceed,
        .enter (._read 16), .proceed, .returns, .enter (.close none), .proceed, .returns, .settle 1 .done, .proceed,
        .returns, .enter (.open none), .proceed, .returns, .settle 1 (.port 1 true), .proceed, .returns, .proceed,
        .proceed, .returns, .proceed, .enter (.destroy none), .proceed, .proceed, .returns,
        .settle 1 (.rejected .other), .proceed, .returns, .proceed, .settle 0 (.rejected .other), .proceed] =
      some (s, outputs) ∧
    outputs = before ++ .torn :: after ∧ .startReading 1 16 ∈ after := by
  refine ⟨_, _, [.bindingOpen, .emitOpen, .read 0 16, .close 0, .emitClose (some 0) none, .bindingOpen, .emitOpen,
    .startReading 1 16], [.close 1, .destroyed (some (asError .other)), .startReading 1 16], rfl, by rfl, by decide⟩

end NodeSerialport.Stream
