import NodeSerialport.Stream.Attached
/-!
# Writes that are reported done

A write ends without an error only where its promise was fulfilled.

* `SerialPortStream.reports` — the writes whose callbacks are about to be called without an error;
* `Silent` — a function that adds none;
* `step_reports` — over one step of the stream.
-/

namespace NodeSerialport.Stream

open Parsers (Buffer)
open Binding (SerialError ControlOperation)

/-- The write a task reports done. -/
def Task.reports? : Task → Option ℕ
  | .call (.written write none) _ => some write
  | _ => none

namespace SerialPortStream

/-- The writes whose callbacks are about to be called without an error. -/
def reports (s : SerialPortStream) : List ℕ := s.todo.filterMap Task.reports?

/-- Nothing more is reported. -/
def Silent (s s' : SerialPortStream) : Prop := ∀ write ∈ s'.reports, write ∈ s.reports

variable {s s₁ s' : SerialPortStream} {out : List Output}

theorem mem_reports {write : ℕ} : write ∈ s.reports ↔ ∃ kind, .call (.written write none) kind ∈ s.todo := by
  constructor
  · intro hmem
    obtain ⟨task, htask, hreports⟩ := List.mem_filterMap.1 hmem
    cases task with
    | call output kind =>
      cases output with
      | written write' error =>
        cases error with
        | none =>
          cases hreports
          exact ⟨kind, htask⟩
        | some error => cases hreports
      | _ => cases hreports
    | _ => cases hreports
  · rintro ⟨kind, hmem⟩
    exact List.mem_filterMap.2 ⟨_, hmem, rfl⟩

theorem reports_plain {task : Task} (h : task.plain) : task.reports? = none := by
  cases task with
  | call output kind =>
    cases output with
    | written => simp [Task.plain, Output.moves] at h
    | _ => rfl
  | _ => rfl

namespace Silent

theorem of_subset (h : s'.todo ⊆ s.todo) : Silent s s' := by
  intro write hmem
  obtain ⟨kind, hkind⟩ := mem_reports.1 hmem
  exact mem_reports.2 ⟨kind, h hkind⟩

theorem refl (s : SerialPortStream) : Silent s s := fun _ => id

theorem trans (h : Silent s s₁) (h' : Silent s₁ s') : Silent s s' := fun write hmem => h write (h' write hmem)

theorem cons (tasks : List Task) (htodo : s'.todo = tasks ++ s.todo) (h : ∀ task ∈ tasks, task.reports? = none) :
    Silent s s' := by
  intro write hmem
  unfold reports at hmem
  rw [htodo, List.filterMap_append, List.filterMap_eq_nil_iff.2 h] at hmem
  exact hmem

theorem first {tasks : List Task} (h : ∀ task ∈ tasks, task.reports? = none) : Silent s (s.first tasks) := cons tasks rfl h

theorem grown {todo todo' : List Task} (h : Grown todo todo') {write : ℕ} (hmem : write ∈ todo'.filterMap Task.reports?) :
    write ∈ todo.filterMap Task.reports? := by
  cases h with
  | tasks htasks =>
    rw [List.filterMap_append, List.filterMap_eq_nil_iff.2 fun task htask => reports_plain (htasks task htask)] at hmem
    exact hmem
  | thrown => exact ((List.dropWhile_sublist _).filterMap _).subset hmem
  | caught hcaught =>
    refine ((List.dropWhile_sublist fun task : Task => !task.catches).filterMap _).subset ?_
    rw [hcaught]
    exact hmem

theorem quiet (h : Quiet s s') : Silent s s' := fun _ hmem => grown h.todo hmem

theorem reads (h : Reads s s') : Silent s s' := by
  cases h with
  | quiet hquiet => exact quiet hquiet
  | @asks output kind _ _ _ houtput _ htodo =>
    refine cons [.call output kind] htodo fun task hmem => ?_
    rw [List.mem_singleton.1 hmem]
    cases output with
    | written => cases houtput
    | _ => rfl

theorem failWaitingWrite (s : SerialPortStream) (error : SerialError) : Silent s (s._failWaitingWrite error) := by
  obtain ⟨-, heq⟩ | ⟨write, data, -, heq⟩ := _failWaitingWrite_cases s error
  · rw [heq]
    exact refl s
  · rw [heq]
    exact cons [.call (.written write (some error)) .listener] rfl (by simp [Task.reports?])

theorem write (s : SerialPortStream) (write : ℕ) (data : Buffer) : Silent s (s._write write data) := by
  obtain ⟨-, heq⟩ | ⟨port, -, -, heq⟩ := _write_cases s write data
  · rw [heq]
    exact of_subset (List.Subset.refl _)
  · rw [heq]
    exact cons [.call (.write port write data) .binding] rfl (by simp [Task.reports?])

theorem writev (s : SerialPortStream) (write : ℕ) (chunks : List Buffer) : Silent s (s._writev write chunks) := by
  obtain heq | ⟨port, -, -, heq⟩ := _writev_cases s write chunks
  · rw [heq]
    exact Silent.write s write _
  · rw [heq]
    exact cons [.call (.writev port write chunks) .binding] rfl (by simp [Task.reports?])

theorem resumed (s : SerialPortStream) : Silent s ( _resumeIO s) := by
  unfold _resumeIO
  split
  · exact refl s
  split
  · exact reads (resumeRead_reads s)
  · refine trans ?_ (write ({ s with _waitingWrite := none }.first [.resumeRead]) _ _)
    exact cons [.resumeRead] rfl (by simp [Task.reports?])

theorem writeError (s : SerialPortStream) (port write : ℕ) (error : Thrown) : Silent s (s._writeError port write error) := by
  have hfirst : Silent s (s.first [.call (.written write (some (asError error))) .listener]) :=
    first (by simp [Task.reports?])
  unfold _writeError
  simp only
  split
  · exact hfirst.trans (quiet (close_quiet _ _ _))
  · exact hfirst

theorem received (s : SerialPortStream) (port length : ℕ) (data : Buffer) : Silent s (s.received port length data) := by
  obtain ⟨-, -, heq⟩ | ⟨-, hreads⟩ := received_cases s port length data
  · rw [heq]
    exact cons (s := s) _ (congrArg ([Task.call _ _] ++ ·) (readSettled_same s port).todo) (by simp [Task.reports?])
  · exact reads hreads

theorem opened (s : SerialPortStream) (port : ℕ) (isOpen : Bool) (cb : Option Callback) : Silent s (s.opened port isOpen cb) := by
  unfold SerialPortStream.opened
  simp only
  split
  · exact trans (cons [.cancelOpen port cb, .catchOpen] rfl (by simp [Task.reports?])) (failWaitingWrite _ _)
  · refine cons (.call .emitOpen .listener :: (cb.toList.map (callback none) ++ [.resume, .catchOpen])) rfl ?_
    intro task hmem
    simp only [List.mem_cons, List.mem_append, List.mem_map, List.not_mem_nil, or_false] at hmem
    rcases hmem with rfl | ⟨callback, -, rfl⟩ | rfl | rfl
    · rfl
    · cases callback <;> rfl
    · rfl
    · rfl

theorem enter {entry : Entry} (hstep : s.enter entry = some (s', out)) : Silent s s' := by
  cases entry with
  | «open» cb =>
    cases hstep
    exact quiet (open_quiet s _)
  | close cb =>
    cases hstep
    exact quiet (close_quiet s _ _)
  | destroy error =>
    cases hstep
    split
    · exact refl s
    · exact trans (cons [.destroy error] rfl (by simp [Task.reports?]))
        (failWaitingWrite ({ s with destroyed := true }.first [.destroy error]) _)
  | operation operation baudRate cb =>
    cases hstep
    exact quiet (_operation_quiet s _ _ _)
  | _read length =>
    obtain ⟨-, heq⟩ := Option.ite_none_left_eq_some.1 (show (if s.destroyed then none else _) = _ from hstep)
    cases heq
    exact reads (_read_reads s length)
  | _write data =>
    obtain ⟨-, heq⟩ := Option.ite_none_left_eq_some.1
      (show (if s.destroyed || s.writing.isSome then none else _) = _ from hstep)
    cases heq
    exact write s.hand _ _
  | _writev chunks =>
    obtain ⟨-, heq⟩ := Option.ite_none_left_eq_some.1
      (show (if s.destroyed || s.writing.isSome then none else _) = _ from hstep)
    cases heq
    exact writev s.hand _ _
  | onClose port error closed =>
    cases hstep
    split
    · exact quiet (s := s.setOpen port false) (onClose_quiet _ _ _)
    · exact quiet (onClose_quiet _ _ _)
  | onData port data =>
    cases hstep
    obtain ⟨-, -, heq⟩ | ⟨-, heq⟩ := onData_cases s port data
    · rw [heq]
      exact cons [.call (.push (some data)) .listener] rfl (by simp [Task.reports?])
    · rw [heq]
      exact refl s

theorem settled {index : ℕ} {promise : Promise} {result : Result}
    (hwriting : ∀ port write, promise = .writing port write → result ≠ .done)
    (hstep : ({ s with promises := s.promises.eraseIdx index } : SerialPortStream).settled promise result = some s') :
    Silent s s' := by
  cases settled_settles hstep with
  | opened => exact opened { s with promises := s.promises.eraseIdx index } _ _ _
  | @rejected cb reason =>
    refine trans ?_ (failWaitingWrite ({ s with
      promises := s.promises.eraseIdx index, _opening := false, opening := false }.first
        [.openFailed (asError reason) cb, .catchOpen]) _)
    exact cons [.openFailed (asError reason) cb, .catchOpen] rfl (by simp [Task.reports?])
  | closed => exact quiet (s := { s with promises := s.promises.eraseIdx index }) (closed_quiet _ _ _)
  | closeFailed => exact quiet (s := { s with promises := s.promises.eraseIdx index }) (_closeFailed_quiet _ _ _)
  | canceled | cancelFailed =>
    refine trans ?_ (quiet (s := { s with promises := s.promises.eraseIdx index }.first [.catchOpen]) (canceled_quiet _ _ _ _))
    exact cons [.catchOpen] rfl (by simp [Task.reports?])
  | written => exact absurd rfl (hwriting _ _ rfl)
  | writeFailed => exact writeError { s with promises := s.promises.eraseIdx index } _ _ _
  | data | bytesRead => exact received { s with promises := s.promises.eraseIdx index } _ _ _
  | invalid | readFailed => exact reads (s := { s with promises := s.promises.eraseIdx index }) (_readError_reads _ _ _ _)
  | operated => exact quiet (s := { s with promises := s.promises.eraseIdx index }) (operated_quiet _ _ _ _ _)
  | operationFailed | reported => exact quiet (s := { s with promises := s.promises.eraseIdx index }) (_report_quiet _ _ _)

theorem tail {task : Task} {rest : List Task} (htodo : s.todo = task :: rest) : Silent s { s with todo := rest } :=
  of_subset fun _ hmem => htodo ▸ List.mem_cons_of_mem _ hmem

end Silent

/-- **A write is reported done where its promise was fulfilled**, and nowhere else. -/
theorem step_reports {input : Input} (hstep : s.step input = some (s', out)) :
    (∀ write, .written write none ∈ out → write ∈ s.reports) ∧ ∀ write ∈ s'.reports, write ∈ s.reports ∨
      ∃ index port, input = .settle index .done ∧ s.promises[index]? = some (.writing port write) := by
  have hsilent (hout : ∀ write, .written write none ∉ out) (h : Silent s s') :
      (∀ write, .written write none ∈ out → write ∈ s.reports) ∧ ∀ write ∈ s'.reports, write ∈ s.reports ∨
        ∃ index port, input = .settle index .done ∧ s.promises[index]? = some (.writing port write) :=
    ⟨fun write hmem => absurd hmem (hout write), fun write hmem => .inl (h write hmem)⟩
  cases step_runs hstep with
  | @enter entry _ _ hwaits hentry =>
    refine hsilent (fun write hmem => ?_) (.enter hentry)
    rcases step_calls hstep with hnoted | ⟨output, kind, rest, hinput, -⟩
    · exact absurd (hnoted _ hmem) Bool.false_ne_true
    · cases hinput
  | @returns kind rest htodo =>
    refine hsilent (fun _ hmem => nomatch hmem) (Silent.trans (.tail htodo) ?_)
    cases kind <;> exact .of_subset (List.Subset.refl _)
  | @throws kind rest reason htodo =>
    refine hsilent (fun _ hmem => nomatch hmem) (Silent.trans (.tail htodo) ?_)
    cases kind with
    | listener => exact .quiet (throw_quiet _ _)
    | startReading port length => exact .reads (_readError_reads _ _ _ _)
    | canceling port cb => exact .quiet (canceled_quiet { s with todo := rest } port cb (some reason))
    | _ => exact .of_subset (List.Subset.refl _)
  | @proceed task rest _ _ htodo htask =>
    have htail := Silent.tail htodo
    cases task with
    | call output kind =>
      cases htask
      refine ⟨fun write hmem => ?_, fun write hmem => .inl (htail write ?_)⟩
      · obtain rfl := List.mem_singleton.1 hmem
        exact mem_reports.2 ⟨kind, htodo ▸ List.mem_cons_self⟩
      · exact Silent.cons (s := { s with todo := rest }) [.outside kind] rfl (by simp [Task.reports?]) write hmem
    | outside kind => cases htask
    | resume =>
      cases htask
      exact hsilent (fun _ hmem => nomatch hmem) (htail.trans (.resumed _))
    | resumeRead =>
      cases htask
      exact hsilent (fun _ hmem => nomatch hmem) (htail.trans (.reads (resumeRead_reads _)))
    | cancelOpen port cb =>
      cases htask
      exact hsilent (fun _ hmem => nomatch hmem) (htail.trans (.first (by simp [Task.reports?])))
    | openFailed error cb =>
      cases htask
      exact hsilent (fun _ hmem => nomatch hmem) (htail.trans (.quiet (openFailed_quiet _ _ _)))
    | destroy error =>
      cases htask
      exact hsilent (by simp) (htail.trans (.quiet (tearDown_quiet _ _)))
    | catchOpen =>
      cases htask
      exact hsilent (fun _ hmem => nomatch hmem) htail
  | @settle index promise result _ htodo hpromise hsettled =>
    by_cases hwriting : ∃ port write, promise = .writing port write ∧ result = .done
    · obtain ⟨port, write, rfl, rfl⟩ := hwriting
      cases hsettled
      refine ⟨fun _ hmem => (nomatch hmem), fun write' hmem => .inr ⟨index, port, rfl, ?_⟩⟩
      have hone : write' ∈ [write] := by simpa [reports, first, htodo, Task.reports?] using hmem
      rw [hpromise, List.mem_singleton.1 hone]
    · refine hsilent (fun _ hmem => nomatch hmem) (.settled (fun port write heq hdone => ?_) hsettled)
      exact hwriting ⟨port, write, heq, hdone⟩
  | @tick message cb rest => exact hsilent (fun _ hmem => nomatch hmem) (.quiet (s := { s with ticks := rest }) (_report_quiet _ _ _))
  | isOpen => exact hsilent (fun _ hmem => nomatch hmem) (.of_subset (List.Subset.refl _))

end SerialPortStream

end NodeSerialport.Stream
