import NodeSerialport.Stream.Steps
/-!
# The promise of an open

`_opening` holds the promise of `binding.open()` from the moment that call returns.  A `close` that cancels the open before
then finds nothing to call `cancel` of, and throws.

* `Keeps` — what a function does that opens nothing;
* `Dialed`, `Offered` — while a port is being opened, the promise is there, or `binding.open()` runs, or is to be called;
* `offered_step` — every step keeps it.
-/

namespace NodeSerialport.Stream

open Parsers (Buffer)
open Binding (SerialError ControlOperation)

/-- While a port is being opened `_opening` holds the promise, unless `binding.open()` runs. -/
def Dialed (s : SerialPortStream) : Prop := s.opening → s._opening ∨ .outside .opening ∈ s.todo

/-- What a function does that opens nothing. -/
structure Keeps (s s' : SerialPortStream) : Prop where
  opening : s'.opening = s.opening
  _opening : s'._opening = s._opening
  outside : ∀ kind, .outside kind ∈ s.todo → .outside kind ∈ s'.todo

namespace Keeps

variable {s s₁ s' : SerialPortStream}

theorem refl (s : SerialPortStream) : Keeps s s := ⟨rfl, rfl, fun _ => id⟩

theorem trans (h : Keeps s s₁) (h' : Keeps s₁ s') : Keeps s s' :=
  ⟨h'.opening.trans h.opening, h'._opening.trans h._opening, fun kind => h'.outside kind ∘ h.outside kind⟩

theorem of_eq (hopening : s'.opening = s.opening) (h_opening : s'._opening = s._opening) (htodo : s'.todo = s.todo) :
    Keeps s s' :=
  ⟨hopening, h_opening, fun _ hmem => htodo ▸ hmem⟩

theorem grown {tasks : List Task} (hopening : s'.opening = s.opening) (h_opening : s'._opening = s._opening)
    (htodo : s'.todo = tasks ++ s.todo) : Keeps s s' :=
  ⟨hopening, h_opening, fun _ hmem => htodo ▸ List.mem_append_right _ hmem⟩

theorem first (s : SerialPortStream) (tasks : List Task) : Keeps s (s.first tasks) := .grown rfl rfl rfl

theorem await (s : SerialPortStream) (promise : Promise) : Keeps s (s.await promise) := .of_eq rfl rfl rfl

theorem dialed (h : Keeps s s') (hs : Dialed s) : Dialed s' := by
  intro hopening
  rw [h.opening] at hopening
  rw [h._opening]
  exact (hs hopening).imp_right (h.outside .opening)

end Keeps

theorem outside_dropWhile {todo : List Task} {kind : Kind} (h : .outside kind ∈ todo) :
    .outside kind ∈ todo.dropWhile fun task => !task.catches := by
  induction todo with
  | nil => exact h
  | cons task rest ih =>
    by_cases hcatches : task.catches
    · rwa [List.dropWhile_cons_of_neg (by simpa using hcatches)]
    · rw [List.dropWhile_cons_of_pos (by simpa using hcatches)]
      rcases List.mem_cons.1 h with rfl | hrest
      · exact absurd rfl hcatches
      · exact ih hrest

namespace SerialPortStream

variable {s s' : SerialPortStream}

theorem throw_keeps (s : SerialPortStream) (reason : Thrown) : Keeps s (s.throw reason) := by
  have hdrop {kind : Kind} (hmem : .outside kind ∈ s.todo) := outside_dropWhile hmem
  unfold throw
  split
  · rename_i rest heq
    refine ⟨rfl, rfl, fun kind hmem => ?_⟩
    exact (List.mem_cons.1 (heq ▸ hdrop hmem)).resolve_left (by simp)
  · exact ⟨rfl, rfl, fun _ => hdrop⟩

theorem _report_keeps (s : SerialPortStream) (error : SerialError) (cb : Option Callback) : Keeps s (s._report error cb) := by
  cases cb with
  | none => exact .first s _
  | some cb => exact .first s _

theorem _finishClose_keeps (s : SerialPortStream) (error : Option SerialError) : Keeps s (s._finishClose error) := by
  unfold _finishClose
  split
  · exact .refl s
  · exact .grown rfl rfl rfl

theorem _closeFailed_keeps (s : SerialPortStream) (port : ℕ) (error : Thrown) : Keeps s (s._closeFailed port error) := by
  unfold _closeFailed
  split
  · exact .refl s
  split
  · exact _finishClose_keeps s _
  · exact .grown rfl rfl rfl

theorem close_keeps (s : SerialPortStream) (cb : Option Callback) (error : Option SerialError) : Keeps s (s.close cb error) := by
  unfold close
  split
  · exact .of_eq rfl rfl rfl
  split
  · exact .of_eq rfl rfl rfl
  simp only
  have hset : Keeps s { s with
      closing := true
      _closeError := error
      _closeCallbacks := s._closeCallbacks ++ cb.toList } := .of_eq rfl rfl rfl
  split
  · split
    · exact hset.trans (.first _ _)
    · exact hset.trans (throw_keeps _ _)
  · split
    · exact hset
    · exact (hset.trans (.await _ _)).trans (.first _ _)

theorem closed_keeps (s : SerialPortStream) (port : ℕ) (error : Option SerialError) : Keeps s (s.closed port error) := by
  unfold closed
  split
  · exact _finishClose_keeps s error
  · exact .refl s

theorem canceled_keeps (s : SerialPortStream) (port : ℕ) (cb : Option Callback) (error : Option Thrown) :
    Keeps s (s.canceled port cb error) := by
  unfold canceled
  simp only
  split
  · exact (Keeps.first s _).trans (_closeFailed_keeps _ _ _)
  split
  · exact (Keeps.first s _).trans (_finishClose_keeps _ _)
  · exact .first s _

theorem openFailed_keeps (s : SerialPortStream) (error : SerialError) (cb : Option Callback) :
    Keeps s (s.openFailed error cb) := by
  unfold openFailed
  split
  · exact (Keeps.first s _).trans (_finishClose_keeps _ _)
  · exact _report_keeps s error cb

theorem _failWaitingWrite_keeps (s : SerialPortStream) (error : SerialError) : Keeps s (s._failWaitingWrite error) := by
  unfold _failWaitingWrite
  split
  · exact .refl s
  · exact .grown rfl rfl rfl

theorem _write_keeps (s : SerialPortStream) (write : ℕ) (data : Buffer) : Keeps s (s._write write data) := by
  unfold _write
  split
  · exact .of_eq rfl rfl rfl
  · exact (Keeps.await s _).trans (.first _ _)

theorem _writev_keeps (s : SerialPortStream) (write : ℕ) (chunks : List Buffer) : Keeps s (s._writev write chunks) := by
  unfold _writev
  split
  · exact _write_keeps s write _
  split
  · exact _write_keeps s write _
  · exact (Keeps.await s _).trans (.first _ _)

theorem _writeError_keeps (s : SerialPortStream) (port write : ℕ) (error : Thrown) :
    Keeps s (s._writeError port write error) := by
  unfold _writeError
  simp only
  split
  · exact (Keeps.first s _).trans (close_keeps _ _ _)
  · exact .first s _

theorem _read_keeps (s : SerialPortStream) (length : ℕ) : Keeps s (s._read length) := by
  unfold _read
  simp only
  split
  · exact .of_eq rfl rfl rfl
  split
  · exact .of_eq rfl rfl rfl
  split
  · exact .grown rfl rfl rfl
  · exact .grown rfl rfl rfl

theorem readSettled_keeps (s : SerialPortStream) (port : ℕ) : Keeps s (s.readSettled port) := by
  unfold readSettled
  split
  · exact .of_eq rfl rfl rfl
  · exact .refl s

theorem received_keeps (s : SerialPortStream) (port length : ℕ) (data : Buffer) : Keeps s (s.received port length data) := by
  refine (readSettled_keeps s port).trans ?_
  unfold received
  simp only
  split
  · exact .grown rfl rfl rfl
  split
  · exact _read_keeps _ _
  · exact .refl _

theorem _readError_keeps (s : SerialPortStream) (port : ℕ) (error : Thrown) (length : ℕ) :
    Keeps s (s._readError port error length) := by
  refine (readSettled_keeps s port).trans ?_
  unfold _readError
  simp only
  split
  · exact close_keeps _ _ _
  split
  · exact _read_keeps _ _
  · exact .refl _

theorem resumeRead_keeps (s : SerialPortStream) : Keeps s s.resumeRead := by
  unfold resumeRead
  split
  · exact _read_keeps s _
  · exact .refl s

theorem _resumeIO_keeps (s : SerialPortStream) : Keeps s ( _resumeIO s) := by
  unfold _resumeIO
  split
  · exact .refl s
  split
  · exact resumeRead_keeps s
  · have hset : Keeps s ({ s with _waitingWrite := none }.first [.resumeRead]) :=
      .grown rfl rfl rfl
    exact hset.trans (_write_keeps _ _ _)

theorem _operation_keeps (s : SerialPortStream) (operation : ControlOperation) (baudRate : Option ℕ) (cb : Option Callback) :
    Keeps s (s._operation operation baudRate cb) := by
  unfold _operation
  split
  · exact .of_eq rfl rfl rfl
  · exact (Keeps.await s _).trans (.first _ _)

theorem operated_keeps (s : SerialPortStream) (port : ℕ) (operation : ControlOperation) (baudRate : Option ℕ)
    (cb : Option Callback) : Keeps s (s.operated port operation baudRate cb) := by
  unfold operated
  simp only
  split
  · exact .grown rfl rfl rfl
  · exact .first s _

theorem tearDown_keeps (s : SerialPortStream) (error : Option SerialError) : Keeps s (s.tearDown error) := by
  unfold tearDown
  split
  · exact .of_eq rfl rfl rfl
  split
  · exact close_keeps s _ _
  · exact .first s _

theorem onClose_keeps (s : SerialPortStream) (port : ℕ) (error : Option Thrown) : Keeps s (s.onClose port error) := by
  unfold onClose
  split
  · exact .refl s
  simp only
  split
  · exact close_keeps s _ _
  · exact _finishClose_keeps s _

theorem onData_keeps (s : SerialPortStream) (port : ℕ) (data : Buffer) : Keeps s (s.onData port data) := by
  unfold onData
  split
  · exact .grown rfl rfl rfl
  · exact .refl s

end SerialPortStream

/-! ### Steps -/

/-- The same, also where `binding.open()` is to be called next. -/
def Offered (s : SerialPortStream) : Prop := Dialed s ∨ ∃ rest, s.todo = .call .bindingOpen .opening :: rest

section

open SerialPortStream

variable {s s' : SerialPortStream} {out : List Output}

theorem Keeps.offered (h : Keeps s s') (hs : Dialed s) : Offered s' := .inl (h.dialed hs)

theorem Offered.dialed (h : Offered s) (hwaits : s.waits) : Dialed s := by
  refine h.resolve_right fun ⟨rest, htodo⟩ => ?_
  rw [waits, htodo] at hwaits
  cases hwaits

theorem Offered.promise (h : Offered s) (htodo : s.todo = []) (hopening : s.opening) : s._opening := by
  refine (h.dialed (by rw [waits, htodo]; rfl) hopening).resolve_right fun hmem => ?_
  rw [htodo] at hmem
  cases hmem

theorem Dialed.popped (h : Dialed s) {task : Task} {rest : List Task} (htodo : s.todo = task :: rest)
    (hother : task ≠ .outside .opening) : Dialed { s with todo := rest } := by
  refine fun hopening => (h hopening).imp_right fun hmem => ?_
  rw [htodo] at hmem
  exact (List.mem_cons.1 hmem).resolve_left (Ne.symm hother)

theorem enter_offered (h : Dialed s) {entry : Entry} (hstep : s.enter entry = some (s', out)) : Offered s' := by
  cases entry with
  | «open» cb =>
    cases hstep
    unfold SerialPortStream.open
    split
    · exact .inl h
    split
    · exact .inl h
    split
    · exact .inl h
    · exact .inr ⟨_, rfl⟩
  | close cb =>
    cases hstep
    exact (close_keeps s _ _).offered h
  | destroy error =>
    cases hstep
    split
    · exact .inl h
    · have hset : Keeps s ({ s with destroyed := true }.first [.destroy error]) := .grown rfl rfl rfl
      exact (hset.trans (_failWaitingWrite_keeps _ _)).offered h
  | operation operation baudRate cb =>
    cases hstep
    exact (_operation_keeps s _ _ _).offered h
  | _read length =>
    obtain ⟨-, heq⟩ := Option.ite_none_left_eq_some.1 (show (if s.destroyed then none else _) = _ from hstep)
    cases heq
    exact (_read_keeps s length).offered h
  | _write data =>
    obtain ⟨-, heq⟩ := Option.ite_none_left_eq_some.1
      (show (if s.destroyed || s.writing.isSome then none else _) = _ from hstep)
    cases heq
    have hhand : Keeps s s.hand := .of_eq rfl rfl rfl
    exact (hhand.trans (_write_keeps _ _ _)).offered h
  | _writev chunks =>
    obtain ⟨-, heq⟩ := Option.ite_none_left_eq_some.1
      (show (if s.destroyed || s.writing.isSome then none else _) = _ from hstep)
    cases heq
    have hhand : Keeps s s.hand := .of_eq rfl rfl rfl
    exact (hhand.trans (_writev_keeps _ _ _)).offered h
  | onClose port error closed =>
    cases hstep
    have hset : Keeps s (if closed then s.setOpen port false else s) := by
      split
      · exact .of_eq rfl rfl rfl
      · exact .refl s
    exact (hset.trans (onClose_keeps _ _ _)).offered h
  | onData port data =>
    cases hstep
    exact (onData_keeps s port data).offered h

theorem returned_offered (h : Dialed s) {kind : Kind} {rest : List Task} (htodo : s.todo = .outside kind :: rest) :
    Offered ({ s with todo := rest }.returned kind) := by
  cases kind with
  | opening => exact .inl fun _ => .inl rfl
  | canceling port cb => exact (Keeps.await _ _).offered (h.popped htodo (by simp))
  | _ => exact .inl (h.popped htodo (by simp))

theorem thrown_offered (h : Dialed s) {kind : Kind} {rest : List Task} (htodo : s.todo = .outside kind :: rest)
    (reason : Thrown) : Offered ({ s with todo := rest }.thrown reason kind) := by
  cases kind with
  | opening => exact .inl fun _ => .inl rfl
  | listener => exact (throw_keeps _ reason).offered (h.popped htodo (by simp))
  | binding => exact .inl (h.popped htodo (by simp))
  | startReading port length => exact (_readError_keeps _ port reason length).offered (h.popped htodo (by simp))
  | canceling port cb => exact (canceled_keeps _ port cb (some reason)).offered (h.popped htodo (by simp))

theorem perform_offered (h : Offered s) {task : Task} {rest : List Task} (htodo : s.todo = task :: rest)
    (hstep : ({ s with todo := rest } : SerialPortStream).perform task = some (s', out)) : Offered s' := by
  have hpopped (hcall : ∀ output kind, task ≠ .call output kind) (hother : task ≠ .outside .opening) :
      Dialed { s with todo := rest } := by
    refine (h.resolve_right fun ⟨rest', htodo'⟩ => ?_).popped htodo hother
    obtain ⟨rfl, -⟩ := List.cons.inj (htodo.symm.trans htodo')
    exact hcall _ _ rfl
  cases task with
  | call output kind =>
    cases hstep
    rcases h with hdialed | ⟨rest', htodo'⟩
    · have hset : Keeps { s with todo := rest } (({ s with
          todo := rest, writing := if output.ends then none else s.writing } : SerialPortStream).first [.outside kind]) :=
        .grown rfl rfl rfl
      exact hset.offered (hdialed.popped htodo (by simp))
    · -- `binding.open()` is called
      obtain ⟨heq, rfl⟩ := List.cons.inj (htodo.symm.trans htodo')
      cases heq
      exact .inl fun _ => .inr List.mem_cons_self
  | outside kind => cases hstep
  | resume =>
    cases hstep
    exact (_resumeIO_keeps _).offered (hpopped (by simp) (by simp))
  | resumeRead =>
    cases hstep
    exact (resumeRead_keeps _).offered (hpopped (by simp) (by simp))
  | cancelOpen port cb =>
    cases hstep
    exact (Keeps.first _ _).offered (hpopped (by simp) (by simp))
  | openFailed error cb =>
    cases hstep
    exact (openFailed_keeps _ error cb).offered (hpopped (by simp) (by simp))
  | destroy error =>
    cases hstep
    exact (tearDown_keeps _ error).offered (hpopped (by simp) (by simp))
  | catchOpen =>
    cases hstep
    exact .inl (hpopped (by simp) (by simp))

theorem opened_offered (s : SerialPortStream) (port : ℕ) (isOpen : Bool) (cb : Option Callback) :
    Offered (s.opened port isOpen cb) := by
  have hset : Dialed ({ s with _opening := false, opening := false, port := some port }.setOpen port isOpen) :=
    fun hno => (Bool.false_ne_true hno).elim
  unfold opened
  simp only
  split
  · exact ((Keeps.first _ _).trans (_failWaitingWrite_keeps _ _)).offered hset
  · exact (Keeps.first _ _).offered hset

theorem settled_offered (h : Dialed s) {promise : Promise} {result : Result} (hstep : s.settled promise result = some s') :
    Offered s' := by
  cases settled_settles hstep with
  | opened => exact opened_offered s _ _ _
  | rejected =>
    have hset : Dialed { s with _opening := false, opening := false } := fun hno => (Bool.false_ne_true hno).elim
    exact ((Keeps.first _ _).trans (_failWaitingWrite_keeps _ _)).offered hset
  | closed => exact (closed_keeps s _ _).offered h
  | closeFailed => exact (_closeFailed_keeps s _ _).offered h
  | canceled | cancelFailed => exact ((Keeps.first s _).trans (canceled_keeps _ _ _ _)).offered h
  | written => exact (Keeps.first s _).offered h
  | writeFailed => exact (_writeError_keeps s _ _ _).offered h
  | data | bytesRead => exact (received_keeps s _ _ _).offered h
  | invalid | readFailed => exact (_readError_keeps s _ _ _).offered h
  | operated => exact (operated_keeps s _ _ _ _).offered h
  | operationFailed | reported => exact (_report_keeps s _ _).offered h

/-- **Every step keeps it.** -/
theorem offered_step (h : Offered s) {input : Input} (hstep : s.step input = some (s', out)) : Offered s' := by
  have houtside {kind : Kind} {rest : List Task} (htodo : s.todo = .outside kind :: rest) : Dialed s :=
    h.dialed (by rw [waits, htodo]; rfl)
  have hdone (htodo : s.todo = []) : Dialed s := h.dialed (by rw [waits, htodo]; rfl)
  cases step_runs hstep with
  | enter hwaits hentry => exact enter_offered (h.dialed hwaits) hentry
  | returns htodo => exact returned_offered (houtside htodo) htodo
  | throws reason htodo => exact thrown_offered (houtside htodo) htodo reason
  | proceed htodo htask => exact perform_offered h htodo htask
  | settle htodo _ hsettled => exact settled_offered (s := { s with promises := s.promises.eraseIdx _ }) (hdone htodo) hsettled
  | @tick message cb rest htodo =>
    have hset : Keeps s { s with ticks := rest } := .of_eq rfl rfl rfl
    exact (hset.trans (_report_keeps _ _ _)).offered (hdone htodo)
  | @isOpen port value hwaits =>
    have hset : Keeps s (s.setOpen port value) := .of_eq rfl rfl rfl
    exact hset.offered (h.dialed hwaits)

end

end NodeSerialport.Stream
