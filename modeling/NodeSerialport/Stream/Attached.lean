import NodeSerialport.Stream.Demand
/-!
# Streams that stay attached

A stream that nobody closes, and to which no failure is reported, keeps its port.

* `Output.disconnects`, `Task.disconnects`, `Promise.disconnects` — what takes a port away, or may come to;
* `Task.Safe` — a task that is none of these, and calls the present port;
* `Attached` — all that is outstanding is safe, and the port is open;
* `Undisturbed` — what a function does that adds nothing of the kind;
* `SerialPortStream.Peaceful` — the inputs that close nothing and report no failure;
* `Stays`, `step_stays` — what one such step does;
* `step_calls` — the call a step makes.
-/

namespace NodeSerialport.Stream

open Parsers (Buffer)
open Binding (SerialError ControlOperation)
open SerialPortStream

variable {s s' s₁ : SerialPortStream} {out : List Output}

/-! ### What takes a port away -/

/-- A call that closes a port, gives up an open, or tells of a close. -/
def Output.disconnects : Output → Bool
  | .close _ | .bindingCancel | .emitClose _ _ => true
  | _ => false

/-- A port is asked for a chunk; a failure of that would close the port. -/
def Output.reads : Output → Bool
  | .readChunk _ _ | .read _ _ => true
  | _ => false

/-- The open port that is called. -/
def Output.port? : Output → Option ℕ
  | .startReading port _ | .write port _ _ | .writev port _ _ | .operation port _ _ => some port
  | _ => none

def Task.port? : Task → Option ℕ
  | .call output _ => output.port?
  | _ => none

def Task.disconnects : Task → Bool
  | .call output kind => output.disconnects || output.reads || kind.cancels
  | .outside kind => kind.cancels
  | .cancelOpen _ _ | .openFailed _ _ | .destroy _ => true
  | .resume | .resumeRead | .catchOpen => false

/-- A promise of a close, or of a read, which fails the connection where it fails. -/
def Promise.disconnects : Promise → Bool
  | .closing _ _ | .canceling _ _ | .reading _ _ => true
  | _ => false

def Output.dials : Output → Bool
  | .bindingOpen => true
  | _ => false

def Task.dials : Task → Bool
  | .call output _ => output.dials
  | _ => false

namespace SerialPortStream

/-- How many calls of `binding.open()` are to be made. -/
def dials (s : SerialPortStream) : ℕ := s.todo.countP Task.dials

/-- The stream has a port, or is getting one. -/
def engaged (s : SerialPortStream) : Bool := s.opening || s.port.isSome

end SerialPortStream

/-- A task that takes nothing away, and calls no port but this one. -/
structure Task.Safe (port : Option ℕ) (task : Task) : Prop where
  disconnects : task.disconnects = false
  port : ∀ p, task.port? = some p → port = some p

theorem Task.Safe.of_none {port : Option ℕ} {task : Task} (h : task.disconnects = false) (hport : task.port? = none) :
    task.Safe port := by
  refine ⟨h, fun p hp => ?_⟩
  rw [hport] at hp
  cases hp

/-- **Nothing is outstanding that takes the port away.** -/
structure Attached (s : SerialPortStream) : Prop where
  /-- The ports are not asked for single chunks. -/
  features : ∀ port, (s.features port).startReading
  closing : s.closing = false
  todo : ∀ task ∈ s.todo, task.Safe s.port
  promises : ∀ promise ∈ s.promises, promise.disconnects = false
  isOpen : ∀ port, s.port = some port → s.ports port
  apart : s.opening → s.port = none

theorem Attached.open_of_port (h : Attached s) {port : ℕ} (hport : s.port = some port) : s.isOpen := by
  simp [SerialPortStream.isOpen, hport, h.isOpen port hport, h.closing]

theorem Attached.isOpen_iff (h : Attached s) : s.isOpen ↔ s.port.isSome := by
  cases hport : s.port with
  | none => simp [SerialPortStream.isOpen, hport]
  | some port => simp [h.open_of_port hport]

/-! ### Functions that take nothing away -/

/-- What a function does that adds nothing that takes the port away. -/
structure Undisturbed (s s' : SerialPortStream) : Prop where
  features : s'.features = s.features
  closing : s'.closing = s.closing
  opening : s'.opening = s.opening
  port : s'.port = s.port
  ports : s'.ports = s.ports
  todo : ∀ task ∈ s'.todo, task ∈ s.todo ∨ task.Safe s.port
  promises : ∀ promise ∈ s'.promises, promise ∈ s.promises ∨ promise.disconnects = false
  kept : ∀ promise ∈ s.promises, promise ∈ s'.promises
  dials : s'.dials ≤ s.dials

namespace Undisturbed

theorem of_eq (hfeatures : s'.features = s.features) (hclosing : s'.closing = s.closing)
    (hopening : s'.opening = s.opening) (hport : s'.port = s.port) (hports : s'.ports = s.ports)
    (htodo : s'.todo = s.todo) (hpromises : s'.promises = s.promises) : Undisturbed s s' :=
  ⟨hfeatures, hclosing, hopening, hport, hports, fun _ hmem => .inl (htodo ▸ hmem),
    fun _ hmem => .inl (hpromises ▸ hmem), fun _ hmem => hpromises.symm ▸ hmem, (congrArg (List.countP Task.dials) htodo).le⟩

theorem refl (s : SerialPortStream) : Undisturbed s s := .of_eq rfl rfl rfl rfl rfl rfl rfl

theorem trans (h : Undisturbed s s₁) (h' : Undisturbed s₁ s') : Undisturbed s s' where
  features := h'.features.trans h.features
  closing := h'.closing.trans h.closing
  opening := h'.opening.trans h.opening
  port := h'.port.trans h.port
  ports := h'.ports.trans h.ports
  todo := fun task hmem => (h'.todo task hmem).elim (h.todo task) fun hsafe => .inr (h.port ▸ hsafe)
  promises := fun promise hmem => (h'.promises promise hmem).elim (h.promises promise) .inr
  kept := fun promise hmem => h'.kept promise (h.kept promise hmem)
  dials := h'.dials.trans h.dials

theorem first (s : SerialPortStream) {tasks : List Task} (h : ∀ task ∈ tasks, task.Safe s.port ∧ task.dials = false) :
    Undisturbed s (s.first tasks) := by
  refine ⟨rfl, rfl, rfl, rfl, rfl, fun task hmem => ?_, fun _ hmem => .inl hmem, fun _ hmem => hmem, ?_⟩
  · rcases List.mem_append.1 hmem with hnew | hold
    · exact .inr (h task hnew).1
    · exact .inl hold
  · have hnone : tasks.countP Task.dials = 0 := by
      rw [List.countP_eq_zero]
      intro task hmem
      simp [(h task hmem).2]
    show (tasks ++ s.todo).countP Task.dials ≤ _
    rw [List.countP_append, hnone, Nat.zero_add]
    exact le_rfl

theorem await (s : SerialPortStream) {promise : Promise} (h : promise.disconnects = false) :
    Undisturbed s (s.await promise) := by
  refine ⟨rfl, rfl, rfl, rfl, rfl, fun _ hmem => .inl hmem, fun other hmem => ?_,
    fun _ hmem => List.mem_append_left _ hmem, le_rfl⟩
  rcases List.mem_append.1 hmem with hold | hnew
  · exact .inl hold
  · rw [List.mem_singleton.1 hnew]
    exact .inr h

theorem call (s : SerialPortStream) {output : Output} {kind : Kind} (hsafe : (Task.call output kind).Safe s.port)
    (hdials : output.dials = false) : Undisturbed s (s.first [.call output kind]) := by
  refine .first s fun task hmem => ?_
  rw [List.mem_singleton.1 hmem]
  exact ⟨hsafe, hdials⟩

theorem notify (s : SerialPortStream) {output : Output} {kind : Kind} (h : (Task.call output kind).disconnects = false)
    (hport : output.port? = none) (hdials : output.dials = false) : Undisturbed s (s.first [.call output kind]) :=
  .call s (.of_none h hport) hdials

theorem request (s : SerialPortStream) {port : ℕ} {promise : Promise} {output : Output} (hport : s.port = some port)
    (hpromise : promise.disconnects = false) (hcall : (Task.call output .binding).disconnects = false)
    (haddress : output.port? = some port) (hdials : output.dials = false) :
    Undisturbed s ((s.await promise).first [.call output .binding]) := by
  refine (await s hpromise).trans (.call _ ⟨hcall, fun p hp => ?_⟩ hdials)
  rw [show output.port? = some p from hp] at haddress
  cases haddress
  exact hport

theorem attached (h : Undisturbed s s') (ha : Attached s) : Attached s' where
  features := by
    rw [h.features]
    exact ha.features
  closing := h.closing.trans ha.closing
  todo := by
    rw [h.port]
    exact fun task hmem => (h.todo task hmem).elim (ha.todo task) id
  promises := fun promise hmem => (h.promises promise hmem).elim (ha.promises promise) id
  isOpen := by
    rw [h.port, h.ports]
    exact ha.isOpen
  apart := by
    rw [h.opening, h.port]
    exact ha.apart

theorem engaged (h : Undisturbed s s') : s'.engaged = s.engaged := by
  rw [SerialPortStream.engaged, h.opening, h.port]
  rfl

end Undisturbed

namespace SerialPortStream

theorem callbacks_undisturbed (s : SerialPortStream) (cbs : List Callback) (error : Option SerialError) :
    Undisturbed s (s.first (cbs.map (callback error))) := by
  refine .first s fun task hmem => ?_
  obtain ⟨cb, -, rfl⟩ := List.mem_map.1 hmem
  cases cb <;> exact ⟨.of_none rfl rfl, rfl⟩

theorem _report_undisturbed (s : SerialPortStream) (error : SerialError) (cb : Option Callback) :
    Undisturbed s (s._report error cb) := by
  cases cb with
  | none => exact .notify s rfl rfl rfl
  | some cb => exact callbacks_undisturbed s [cb] _

theorem _asyncError_undisturbed (s : SerialPortStream) (message : String) (cb : Option Callback) :
    Undisturbed s (s._asyncError message cb) := .of_eq rfl rfl rfl rfl rfl rfl rfl

theorem throw_undisturbed (s : SerialPortStream) (reason : Thrown) : Undisturbed s (s.throw reason) := by
  have hsub := List.dropWhile_sublist (l := s.todo) fun task => !task.catches
  have hdrop {rest : List Task} (hrest : rest.Sublist s.todo) : Undisturbed s { s with todo := rest } :=
    ⟨rfl, rfl, rfl, rfl, rfl, fun _ hmem => .inl (hrest.subset hmem), fun _ hmem => .inl hmem, fun _ hmem => hmem,
      hrest.countP_le⟩
  unfold throw
  split
  · rename_i rest hcaught
    rw [hcaught] at hsub
    exact (hdrop ((List.sublist_cons_self _ _).trans hsub)).trans (.await _ rfl)
  · exact hdrop hsub

theorem _operation_undisturbed (s : SerialPortStream) (operation : ControlOperation) (baudRate : Option ℕ)
    (cb : Option Callback) : Undisturbed s (s._operation operation baudRate cb) := by
  unfold _operation
  split
  · exact _asyncError_undisturbed s _ _
  · rename_i port hopen
    exact .request s (openPort_eq_some.1 hopen).2 rfl rfl rfl rfl

theorem operated_undisturbed (s : SerialPortStream) (port : ℕ) (operation : ControlOperation) (baudRate : Option ℕ)
    (cb : Option Callback) : Undisturbed s (s.operated port operation baudRate cb) := by
  have hset : Undisturbed s (if s.port = some port ∧ operation = .update then { s with baudRate := baudRate } else s) := by
    split
    · exact .of_eq rfl rfl rfl rfl rfl rfl rfl
    · exact .refl s
  exact hset.trans (callbacks_undisturbed _ _ _)

theorem _write_undisturbed (s : SerialPortStream) (write : ℕ) (data : Buffer) : Undisturbed s (s._write write data) := by
  obtain ⟨-, heq⟩ | ⟨port, -, hport, heq⟩ := _write_cases s write data
  · rw [heq]
    exact .of_eq rfl rfl rfl rfl rfl rfl rfl
  · rw [heq]
    exact .request s hport rfl rfl rfl rfl

theorem _writev_undisturbed (s : SerialPortStream) (write : ℕ) (chunks : List Buffer) :
    Undisturbed s (s._writev write chunks) := by
  obtain heq | ⟨port, -, hport, heq⟩ := _writev_cases s write chunks
  · rw [heq]
    exact _write_undisturbed s write _
  · rw [heq]
    exact .request s hport rfl rfl rfl rfl

theorem _read_undisturbed (h : Attached s) (length : ℕ) : Undisturbed s (s._read length) := by
  obtain ⟨-, heq⟩ | ⟨port, -, hport, -, heq⟩ | ⟨port, output, -, -, -, hfeature, -⟩ := _read_cases s length
  · rw [heq]
    exact .of_eq rfl rfl rfl rfl rfl rfl rfl
  · rw [heq]
    have hset : Undisturbed s { s with _readRequested := true } := .of_eq rfl rfl rfl rfl rfl rfl rfl
    refine hset.trans (.call _ ⟨rfl, fun p hp => ?_⟩ rfl)
    cases hp
    exact hport
  · rw [h.features port] at hfeature
    cases hfeature

theorem resumeRead_undisturbed (h : Attached s) : Undisturbed s s.resumeRead := by
  unfold SerialPortStream.resumeRead
  split
  · exact _read_undisturbed h _
  · exact .refl s

theorem _resumeIO_undisturbed (h : Attached s) : Undisturbed s ( _resumeIO s) := by
  obtain ⟨-, heq⟩ | ⟨-, -, -, heq⟩ | ⟨port, write, data, -, -, hport, -, heq⟩ := _resumeIO_cases s
  · rw [heq]
    exact .refl s
  · rw [heq]
    exact resumeRead_undisturbed h
  · rw [heq]
    have hset : Undisturbed s { s with _waitingWrite := none } := .of_eq rfl rfl rfl rfl rfl rfl rfl
    have hfirst : Undisturbed { s with _waitingWrite := none } ({ s with _waitingWrite := none }.first [.resumeRead]) := by
      refine .first _ fun task hmem => ?_
      rw [List.mem_singleton.1 hmem]
      exact ⟨.of_none rfl rfl, rfl⟩
    refine (hset.trans hfirst).trans (.request _ ?_ rfl rfl rfl rfl)
    exact hport

theorem onData_undisturbed (s : SerialPortStream) (port : ℕ) (data : Buffer) : Undisturbed s (s.onData port data) := by
  obtain ⟨-, -, heq⟩ | ⟨-, heq⟩ := onData_cases s port data
  · rw [heq]
    have hset : Undisturbed s { s with _readRequested := false } := .of_eq rfl rfl rfl rfl rfl rfl rfl
    exact hset.trans (.notify _ rfl rfl rfl)
  · rw [heq]
    exact .refl s

end SerialPortStream

/-! ### Steps -/

/-- Whether a promise may settle so without a failure of the port; an operation may be rejected. -/
def Promise.fulfilled : Promise → Result → Bool
  | .opening _, .port _ isOpen => isOpen
  | .opening _, _ => false
  | .writing _ _, .rejected _ => false
  | _, _ => true

namespace SerialPortStream

/-- **No failure is reported, and nobody closes the port.**  Listeners may throw. -/
def Peaceful (s : SerialPortStream) : Input → Prop
  | .enter (.close _) | .enter (.destroy _) | .enter (.onClose _ _ _) | .isOpen _ _ => False
  | .throws _ => ∃ rest, s.todo = .outside .listener :: rest
  | .settle index result => ∀ promise, s.promises[index]? = some promise → promise.fulfilled result
  | _ => True

end SerialPortStream

/-- What a step does that leaves the port to the stream. -/
structure Stays (s : SerialPortStream) (input : Input) (out : List Output) (s' : SerialPortStream) : Prop where
  attached : Attached s'
  quiet : ∀ output ∈ out, output.disconnects = false ∧ output.reads = false ∧
    ∀ port, output.port? = some port → s.port = some port
  /-- The port is another one only if that is handed over. -/
  port : s'.port = s.port ∧ s'.ports = s.ports ∨
    ∃ index port cb, input = .settle index (.port port true) ∧ s.promises[index]? = some (.opening cb) ∧ s'.port = some port
  kept : ∀ promise ∈ s.promises, promise ∈ s'.promises ∨
    ∃ index result, input = .settle index result ∧ s.promises[index]? = some promise
  /-- `binding.open()` is called once for each time the stream sets about getting a port. -/
  dials : s'.dials + out.countP Output.dials + (if s.engaged then 1 else 0) ≤ s.dials + if s'.engaged then 1 else 0

/-- A step that changes the tasks it starts from to others that disconnect as little. -/
theorem Undisturbed.stays {input : Input} (h : Undisturbed s s') (ha : Attached s)
    (hout : ∀ output ∈ out, output.noted) : Stays s input out s' := by
  refine ⟨h.attached ha, fun output hmem => ?_, .inl ⟨h.port, h.ports⟩,
    fun promise hmem => .inl (h.kept promise hmem), ?_⟩
  · have hnoted := hout output hmem
    cases output with
    | handed | torn => exact ⟨rfl, rfl, nofun⟩
    | _ => cases hnoted
  have hnone : out.countP Output.dials = 0 := by
    rw [List.countP_eq_zero]
    intro output hmem
    have hnoted := hout output hmem
    cases output with
    | handed | torn => exact Bool.false_ne_true
    | _ => cases hnoted
  have hdials := h.dials
  rw [hnone, h.engaged]
  omega

namespace SerialPortStream

theorem popped_undisturbed {task : Task} {rest : List Task} (htodo : s.todo = task :: rest) :
    Undisturbed s { s with todo := rest } := by
  have hsub : rest.Sublist s.todo := htodo ▸ List.sublist_cons_self task rest
  exact ⟨rfl, rfl, rfl, rfl, rfl, fun _ hmem => .inl (hsub.subset hmem), fun _ hmem => .inl hmem, fun _ hmem => hmem,
    hsub.countP_le⟩

/-- **`open`.**  Only a stream without a port gets one. -/
theorem open_stays (h : Attached s) (cb : Option Callback) (input : Input) : Stays s input [] (s.open cb) := by
  have hasync (message : String) : Stays s input [] (s._asyncError message cb) :=
    (_asyncError_undisturbed s message cb).stays h (by simp)
  unfold SerialPortStream.open
  split
  · exact hasync _
  split
  · exact hasync _
  split
  · exact hasync _
  · rename_i hopen hbusy
    simp only [Bool.or_eq_true, not_or, Bool.not_eq_true] at hbusy
    have hport : s.port = none := by
      cases hport : s.port with
      | none => rfl
      | some port => exact absurd (h.open_of_port hport) hopen
    refine ⟨⟨h.features, h.closing, fun task hmem => ?_, fun promise hmem => ?_, h.isOpen, fun _ => hport⟩, by simp,
      .inl ⟨rfl, rfl⟩, fun promise hmem => .inl (List.mem_append_left _ hmem), ?_⟩
    · rcases List.mem_cons.1 hmem with rfl | hmem
      · exact .of_none rfl rfl
      · exact h.todo task hmem
    · rcases List.mem_append.1 hmem with hmem | hmem
      · exact h.promises promise hmem
      · rw [List.mem_singleton.1 hmem]
        rfl
    · let s₁ : SerialPortStream := { s with opening := true }
      have hidle : s.engaged = false := by rw [SerialPortStream.engaged, hbusy.1, hport]; rfl
      have hdials : ((s₁.await (.opening cb)).first [.call .bindingOpen .opening]).dials = s.dials + 1 :=
        List.countP_cons_of_pos rfl
      have hengaged : ((s₁.await (.opening cb)).first [.call .bindingOpen .opening]).engaged = true := rfl
      rw [hidle, hdials, hengaged, List.countP_nil]
      simp

theorem enter_stays (h : Attached s) {entry : Entry} (hpeaceful : s.Peaceful (.enter entry))
    (hstep : s.enter entry = some (s', out)) : Stays s (.enter entry) out s' := by
  have hnone : ∀ output ∈ ([] : List Output), output.noted := by simp
  have hhand : Undisturbed s s.hand := .of_eq rfl rfl rfl rfl rfl rfl rfl
  cases entry with
  | «open» cb =>
    cases hstep
    exact open_stays h _ _
  | close cb => exact hpeaceful.elim
  | destroy error => exact hpeaceful.elim
  | onClose port error closed => exact hpeaceful.elim
  | operation operation baudRate cb =>
    cases hstep
    exact (_operation_undisturbed s operation baudRate _).stays h hnone
  | _read length =>
    obtain ⟨-, heq⟩ := Option.ite_none_left_eq_some.1 (show (if s.destroyed then none else _) = _ from hstep)
    cases heq
    exact (_read_undisturbed h length).stays h hnone
  | _write data =>
    obtain ⟨-, heq⟩ := Option.ite_none_left_eq_some.1
      (show (if s.destroyed || s.writing.isSome then none else _) = _ from hstep)
    cases heq
    exact (hhand.trans (_write_undisturbed _ _ _)).stays h (by simp [Output.noted])
  | _writev chunks =>
    obtain ⟨-, heq⟩ := Option.ite_none_left_eq_some.1
      (show (if s.destroyed || s.writing.isSome then none else _) = _ from hstep)
    cases heq
    exact (hhand.trans (_writev_undisturbed _ _ _)).stays h (by simp [Output.noted])
  | onData port data =>
    cases hstep
    exact (onData_undisturbed s port data).stays h hnone

theorem returned_stays (h : Attached s) {kind : Kind} {rest : List Task} (htodo : s.todo = .outside kind :: rest) :
    Stays s .returns [] ({ s with todo := rest }.returned kind) := by
  have hpopped := popped_undisturbed htodo
  have hcancels : kind.cancels = false := (h.todo (.outside kind) (htodo ▸ List.mem_cons_self)).disconnects
  cases kind with
  | opening =>
    have hset : Undisturbed { s with todo := rest } { s with todo := rest, _opening := true } :=
      .of_eq rfl rfl rfl rfl rfl rfl rfl
    exact (hpopped.trans hset).stays h (by simp)
  | canceling port cb => cases hcancels
  | _ => exact hpopped.stays h (by simp)

theorem perform_stays (h : Attached s) {task : Task} {rest : List Task} (htodo : s.todo = task :: rest)
    (hstep : ({ s with todo := rest } : SerialPortStream).perform task = some (s', out)) : Stays s .proceed out s' := by
  have hpopped := popped_undisturbed htodo
  have ha := hpopped.attached h
  have hsafe : task.Safe s.port := h.todo task (htodo ▸ List.mem_cons_self)
  have htask := hsafe.disconnects
  cases task with
  | call output kind =>
    cases hstep
    obtain ⟨⟨houtput, hreads⟩, hkind⟩ :
        (output.disconnects = false ∧ output.reads = false) ∧ kind.cancels = false := by
      simpa [Task.disconnects] using htask
    refine ⟨⟨h.features, h.closing, fun task hmem => ?_, h.promises, h.isOpen, h.apart⟩, fun other hmem => ?_,
      .inl ⟨rfl, rfl⟩, fun promise hmem => .inl hmem, ?_⟩
    · rcases List.mem_cons.1 hmem with rfl | hmem
      · exact .of_none hkind rfl
      · exact ha.todo task hmem
    · rw [List.mem_singleton.1 hmem]
      exact ⟨houtput, hreads, hsafe.port⟩
    · have hdials : s.dials = rest.countP Task.dials + [output].countP Output.dials := by
        show s.todo.countP Task.dials = _
        rw [htodo, List.countP_cons, List.countP_singleton]
        rfl
      rw [hdials]
      exact Nat.le_refl _
  | outside kind => cases hstep
  | resume =>
    cases hstep
    exact (hpopped.trans (_resumeIO_undisturbed ha)).stays h (by simp)
  | resumeRead =>
    cases hstep
    exact (hpopped.trans (resumeRead_undisturbed ha)).stays h (by simp)
  | catchOpen =>
    cases hstep
    exact hpopped.stays h (by simp)
  | cancelOpen port cb => cases htask
  | openFailed error cb => cases htask
  | destroy error => cases htask

theorem mem_erased {α : Type*} {l : List α} {index : ℕ} {a b : α} (h : l[index]? = some a) (hmem : b ∈ l) :
    b ∈ l.eraseIdx index ∨ b = a := by
  obtain ⟨before, after, hsplit, herase⟩ := eq_of_getElem? h
  rw [herase, List.mem_append]
  rw [hsplit, List.mem_append, List.mem_cons] at hmem
  tauto

theorem opened_stays (h : Attached s) (htodo : s.todo = []) {index : ℕ} {cb : Option Callback}
    (hpromise : s.promises[index]? = some (.opening cb)) (port : ℕ) : Stays s (.settle index (.port port true)) []
      (({ s with promises := s.promises.eraseIdx index } : SerialPortStream).opened port true cb) := by
  let s₁ : SerialPortStream := ({ s with promises := s.promises.eraseIdx index } : SerialPortStream).connect port true
  have heq : ({ s with promises := s.promises.eraseIdx index } : SerialPortStream).opened port true cb =
      s₁.first (.call .emitOpen .listener :: (cb.toList.map (callback none) ++ [.resume, .catchOpen])) := by
    show (if s.closing then _ else _) = _
    exact if_neg (by rw [h.closing]; exact Bool.false_ne_true)
  have hconnected : Attached s₁ := by
    refine ⟨h.features, h.closing, fun task hmem => ?_,
      fun promise hmem => h.promises promise (List.mem_of_mem_eraseIdx hmem), fun p hp => ?_, nofun⟩
    · rw [show s₁.todo = [] from htodo] at hmem
      cases hmem
    · obtain rfl : port = p := Option.some.inj hp
      exact if_pos rfl
  have hfirst : Undisturbed s₁
      (s₁.first (.call .emitOpen .listener :: (cb.toList.map (callback none) ++ [.resume, .catchOpen]))) := by
    refine .first s₁ fun task hmem => ?_
    rcases List.mem_cons.1 hmem with rfl | hmem
    · exact ⟨.of_none rfl rfl, rfl⟩
    rcases List.mem_append.1 hmem with hmem | hmem
    · obtain ⟨cb, -, rfl⟩ := List.mem_map.1 hmem
      cases cb <;> exact ⟨.of_none rfl rfl, rfl⟩
    · simp only [List.mem_cons, List.not_mem_nil, or_false] at hmem
      rcases hmem with rfl | rfl <;> exact ⟨.of_none rfl rfl, rfl⟩
  rw [heq]
  refine ⟨hfirst.attached hconnected, by simp, .inr ⟨index, port, cb, rfl, hpromise, rfl⟩, fun promise hmem => ?_, ?_⟩
  · rcases mem_erased hpromise hmem with hkept | rfl
    · exact .inl (hfirst.kept promise hkept)
    · exact .inr ⟨index, _, rfl, hpromise⟩
  · have hdials := hfirst.dials
    have hsame : s₁.dials = s.dials := rfl
    have hengaged : s₁.engaged = true := rfl
    rw [hfirst.engaged, hengaged, List.countP_nil, if_pos rfl]
    split <;> omega

theorem settles_stays (h : Attached s) {index : ℕ} {promise : Promise} {result : Result}
    (hpromise : s.promises[index]? = some promise)
    (hsettled : Undisturbed { s with promises := s.promises.eraseIdx index } s') : Stays s (.settle index result) [] s' := by
  have ha : Attached { s with promises := s.promises.eraseIdx index } :=
    ⟨h.features, h.closing, h.todo, fun promise hmem => h.promises promise (List.mem_of_mem_eraseIdx hmem), h.isOpen,
      h.apart⟩
  refine ⟨hsettled.attached ha, by simp, .inl ⟨hsettled.port, hsettled.ports⟩, fun other hmem => ?_, ?_⟩
  · rcases mem_erased hpromise hmem with hkept | rfl
    · exact .inl (hsettled.kept other hkept)
    · exact .inr ⟨index, _, rfl, hpromise⟩
  · have hdials : s'.dials ≤ s.dials := hsettled.dials
    have hengaged : s'.engaged = s.engaged := hsettled.engaged
    rw [hengaged, List.countP_nil]
    omega

theorem settled_stays (h : Attached s) (htodo : s.todo = []) {index : ℕ} {promise : Promise} {result : Result}
    (hpromise : s.promises[index]? = some promise) (hfulfilled : promise.fulfilled result)
    (hstep : ({ s with promises := s.promises.eraseIdx index } : SerialPortStream).settled promise result = some s') :
    Stays s (.settle index result) [] s' := by
  have hkind : promise.disconnects = false := h.promises promise (List.mem_of_getElem? hpromise)
  cases settled_settles hstep with
  | opened =>
    obtain rfl : _ = true := hfulfilled
    exact opened_stays h htodo hpromise _
  | rejected => cases hfulfilled
  | closed | closeFailed | canceled | cancelFailed => cases hkind
  | data | bytesRead | invalid | readFailed => cases hkind
  | written => exact settles_stays h hpromise (.notify _ rfl rfl rfl)
  | writeFailed => cases hfulfilled
  | operated => exact settles_stays h hpromise (operated_undisturbed _ _ _ _ _)
  | operationFailed | reported => exact settles_stays h hpromise (_report_undisturbed _ _ _)

/-- **A stream stays attached**, whatever happens that is no failure and no close. -/
theorem step_stays (h : Attached s) {input : Input} (hpeaceful : s.Peaceful input)
    (hstep : s.step input = some (s', out)) : Stays s input out s' := by
  cases step_runs hstep with
  | enter hwaits hentry => exact enter_stays h hpeaceful hentry
  | returns htodo => exact returned_stays h htodo
  | throws reason htodo =>
    obtain ⟨rest, htodo'⟩ := hpeaceful
    obtain ⟨hkind, rfl⟩ := List.cons.inj (htodo.symm.trans htodo')
    cases hkind
    exact ((popped_undisturbed htodo).trans (throw_undisturbed _ reason)).stays h (by simp)
  | proceed htodo htask => exact perform_stays h htodo htask
  | settle htodo hpromise hsettled => exact settled_stays h htodo hpromise (hpeaceful _ hpromise) hsettled
  | @tick message cb rest =>
    have hset : Undisturbed s { s with ticks := rest } := .of_eq rfl rfl rfl rfl rfl rfl rfl
    exact (hset.trans (_report_undisturbed _ _ cb)).stays h (by simp)
  | isOpen => exact hpeaceful.elim

/-- A step makes the next call, or no call at all. -/
theorem step_calls {input : Input} (hstep : s.step input = some (s', out)) :
    (∀ output ∈ out, output.noted) ∨ ∃ output kind rest, input = .proceed ∧ s.todo = .call output kind :: rest ∧
      out = [output] ∧ s'.todo = .outside kind :: rest ∧ s'.promises = s.promises := by
  have hnone : ∀ output ∈ ([] : List Output), output.noted := by simp
  cases step_runs hstep with
  | @enter entry _ _ hwaits hentry =>
    left
    cases entry with
    | _write | _writev =>
      obtain ⟨-, heq⟩ := Option.ite_none_left_eq_some.1
        (show (if s.destroyed || s.writing.isSome then none else _) = _ from hentry)
      cases heq
      simp [Output.noted]
    | _read length =>
      obtain ⟨-, heq⟩ := Option.ite_none_left_eq_some.1 (show (if s.destroyed then none else _) = _ from hentry)
      cases heq
      exact hnone
    | _ =>
      cases hentry
      exact hnone
  | @proceed task rest _ _ htodo htask =>
    cases task with
    | call output kind =>
      cases htask
      exact .inr ⟨output, kind, rest, rfl, htodo, rfl, rfl, rfl⟩
    | outside kind => cases htask
    | destroy error =>
      cases htask
      exact .inl (by simp [Output.noted])
    | _ =>
      cases htask
      exact .inl hnone
  | _ => exact .inl hnone

theorem new_attached {features : ℕ → Features} (h : ∀ port, (features port).startReading) (endOnClose : Bool)
    (highWaterMark : ℕ) (baudRate : Option ℕ) : Attached (.new features endOnClose highWaterMark baudRate) :=
  ⟨h, rfl, (fun _ hmem => nomatch hmem), (fun _ hmem => nomatch hmem), (fun _ hport => nomatch hport), fun _ => rfl⟩

end SerialPortStream

end NodeSerialport.Stream
