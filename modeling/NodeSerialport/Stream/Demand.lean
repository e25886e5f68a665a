import NodeSerialport.Stream.Destroy
/-!
# The demand for data

Node asks for data with `_read`, and asks again only once a push has answered.  The stream keeps the demand in
`_readRequested`, and the port it reads from in `_readPort`.

* `Demand` — what an observer remembers: whether Node waits, and whether `startReading` was called for it;
* `Calm` — what a function does that neither asks for data nor answers: if the stream is open after it, it was open
  before, or `_resumeIO` is ahead;
* `Attends` — what a function does that looks at the demand;
* `Heeds`, `Flying`, `Single` — the invariants, kept by every step (`heeds_step`);
* `read_demand`: no demand is forgotten, and a port is read once at a time.
-/

namespace NodeSerialport.Stream

open Parsers (Buffer)
open Binding (SerialError ControlOperation)
open Lib (Machine)

/-! ### The observer -/

/-- What an observer remembers. -/
structure Demand where
  /-- Node's last `_read` has not been answered by a push. -/
  asked : Bool := false
  /-- `startReading` was called, and did not throw, since the present port became that and since the last `_read`. -/
  started : Bool := false
  deriving DecidableEq, Repr

def Demand.next (d : Demand) (s : SerialPortStream) : Input → List Output → Demand
  | .enter (._read _), _ => { asked := true }
  | .settle _ (.port _ _), _ => { d with started := false }
  | .throws _, _ =>
    match s.todo with
    | .outside (.startReading _ _) :: _ => { d with started := false }
    | _ => d
  | .proceed, [.push _] => { d with asked := false }
  | .proceed, [.startReading port _] => if s.port = some port then { d with started := true } else d
  | _, _ => d

namespace SerialPortStream

/-- A port is closed: it says so, or the stream has let go of it. -/
def Closed (s : SerialPortStream) (port : ℕ) : Prop := s.ports port = false ∨ s.port ≠ some port

/-- Listeners do not throw, and a read is rejected as canceled by a closed port only. -/
def Lawful (s : SerialPortStream) (closed : ℕ → Prop) : Input → Prop
  | .throws reason =>
    match s.todo with
    | .outside .listener :: _ => False
    | .outside (.startReading port _) :: _ => (asError reason).canceled → closed port
    | _ => True
  | .settle index (.rejected reason) =>
    match s.promises[index]? with
    | some (.reading port _) => (asError reason).canceled → closed port
    | _ => True
  | _ => True

/-- The present port says that it is open again only while the stream is closing. -/
def RevivesClosing (s : SerialPortStream) (input : Input) : Prop := s.Revives input → s.closing

end SerialPortStream

/-! ### Tasks and promises of reads -/

/-- What asks the present port for data, if it has to be asked. -/
def Task.serves (port : Option ℕ) : Task → Bool
  | .resume | .resumeRead => true
  | .call (.startReading p _) _ => port = some p
  | _ => false

/-- The port whose `startReading` is to be called, or runs. -/
def Task.begins? : Task → Option ℕ
  | .call _ (.startReading port _) | .outside (.startReading port _) => some port
  | _ => none

def Promise.reads (port : ℕ) : Promise → Bool
  | .reading p _ => p = port
  | _ => false

theorem begins?_of_plain {task : Task} (h : task.plain) : task.begins? = none := by
  cases task with
  | call output kind => cases kind <;> simp_all [Task.plain, Task.begins?, Kind.plain]
  | outside kind => cases kind <;> simp_all [Task.plain]
  | _ => rfl

theorem reads_of_quiet {promise : Promise} (h : promise.quiet) (port : ℕ) : promise.reads port = false := by
  cases promise with
  | reading => cases h
  | _ => rfl

namespace SerialPortStream

/-- How many reads of a port are in flight. -/
def reading (s : SerialPortStream) (port : ℕ) : ℕ := s.promises.countP (Promise.reads port)

/-- Data is about to be pushed, which answers the demand. -/
def Pushing (s : SerialPortStream) : Prop :=
  s._readRequested = false ∧ ∃ data kind rest, s.todo = .call (.push data) kind :: rest

end SerialPortStream

open SerialPortStream

variable {s s' s₁ s₂ : SerialPortStream} {d : Demand} {out : List Output}

/-! ### Functions that leave the demand alone -/

/-- What a function does that neither asks for data nor answers. -/
structure Calm (s s' : SerialPortStream) : Prop where
  requested : s._readRequested → s'._readRequested
  port : s'.port = none ∧ s'._readPort = none ∨ s'.port = s.port ∧ s'._readPort = s._readPort
  reading : ∀ port, s'.reading port = s.reading port
  features : s'.features = s.features
  begins : ∀ task ∈ s'.todo, task ∈ s.todo ∨ task.begins? = none
  resumed : s'.isOpen → s'.destroyed = false → .resume ∈ s'.todo ∨
    s.isOpen ∧ s.destroyed = false ∧ s'._readRequested = s._readRequested ∧ ∀ task ∈ s.todo, task ∈ s'.todo

namespace Calm

theorem of_eq (hrequested : s'._readRequested = s._readRequested) (hport : s'.port = s.port)
    (hread : s'._readPort = s._readPort) (hpromises : s'.promises = s.promises) (hfeatures : s'.features = s.features)
    (htodo : s'.todo = s.todo) (hopen : s'.isOpen → s.isOpen) (hlive : s'.destroyed = false → s.destroyed = false) :
    Calm s s' :=
  ⟨fun h => hrequested.trans h, .inr ⟨hport, hread⟩, fun port => congrArg (List.countP (Promise.reads port)) hpromises,
    hfeatures, fun _ hmem => .inl (htodo ▸ hmem),
    fun hopen' hlive' => .inr ⟨hopen hopen', hlive hlive', hrequested, fun _ hmem => htodo ▸ hmem⟩⟩

theorem refl (s : SerialPortStream) : Calm s s := .of_eq rfl rfl rfl rfl rfl rfl id id

theorem trans (h : Calm s s₁) (h' : Calm s₁ s') : Calm s s' where
  requested := h'.requested ∘ h.requested
  port := by
    rcases h'.port with hnone | ⟨hport, hread⟩
    · exact .inl hnone
    · rcases h.port with ⟨hnone, hidle⟩ | ⟨hport', hread'⟩
      · exact .inl ⟨hport.trans hnone, hread.trans hidle⟩
      · exact .inr ⟨hport.trans hport', hread.trans hread'⟩
  reading := fun port => (h'.reading port).trans (h.reading port)
  features := h'.features.trans h.features
  begins := fun task hmem => (h'.begins task hmem).elim (h.begins task) .inr
  resumed := by
    intro hopen hlive
    rcases h'.resumed hopen hlive with hresume | ⟨hopen₁, hlive₁, hsame, htasks⟩
    · exact .inl hresume
    · rcases h.resumed hopen₁ hlive₁ with hresume | ⟨hopen₀, hlive₀, hsame₀, htasks₀⟩
      · exact .inl (htasks _ hresume)
      · exact .inr ⟨hopen₀, hlive₀, hsame.trans hsame₀, fun task hmem => htasks task (htasks₀ task hmem)⟩

theorem of_quiet (h : Quiet s s') (hrequested : s._readRequested → s'._readRequested)
    (hport : s'.port = none ∧ s'._readPort = none ∨ s'.port = s.port ∧ s'._readPort = s._readPort)
    (hresumed : s'.isOpen → .resume ∈ s'.todo ∨
      s.isOpen ∧ s'._readRequested = s._readRequested ∧ ∀ task ∈ s.todo, task ∈ s'.todo) : Calm s s' := by
  refine ⟨hrequested, hport, fun port => ?_, h.frame.features, fun task hmem => ?_, fun hopen hlive => ?_⟩
  · obtain ⟨added, hpromises, hadded⟩ := h.promises
    have hnone : added.countP (Promise.reads port) = 0 := by
      rw [List.countP_eq_zero]
      intro promise hmem
      simp [reads_of_quiet (hadded promise hmem)]
    rw [SerialPortStream.reading, hpromises, List.countP_append, hnone]
    rfl
  · exact (h.todo.mem hmem).symm.imp_right begins?_of_plain
  · rw [h.frame.destroyed] at hlive
    exact (hresumed hopen).imp_right fun ⟨hopen₀, hsame, htasks⟩ => ⟨hopen₀, hlive, hsame, htasks⟩

theorem of_closed (h : Quiet s s') (hrequested : s._readRequested → s'._readRequested)
    (hport : s'.port = none ∧ s'._readPort = none ∨ s'.port = s.port ∧ s'._readPort = s._readPort)
    (hclosed : s'.isOpen = false) : Calm s s' :=
  of_quiet h hrequested hport fun hopen => by
    rw [hclosed] at hopen
    cases hopen

theorem first (s : SerialPortStream) {tasks : List Task} (h : ∀ task ∈ tasks, task.begins? = none) : Calm s (s.first tasks) :=
  ⟨id, .inr ⟨rfl, rfl⟩, fun _ => rfl, rfl, fun task hmem => (List.mem_append.1 hmem).symm.imp_right (h task),
    fun hopen hlive => .inr ⟨hopen, hlive, rfl, fun _ => List.mem_append_right _⟩⟩

theorem await (s : SerialPortStream) {promise : Promise} (h : ∀ port, promise.reads port = false) :
    Calm s (s.await promise) := by
  refine ⟨id, .inr ⟨rfl, rfl⟩, fun port => ?_, rfl, fun _ => .inl,
    fun hopen hlive => .inr ⟨hopen, hlive, rfl, fun _ => id⟩⟩
  simp [SerialPortStream.reading, SerialPortStream.await, h]

end Calm

namespace SerialPortStream

theorem _asyncError_calm (s : SerialPortStream) (message : String) (cb : Option Callback) :
    Calm s (s._asyncError message cb) :=
  .of_quiet (_asyncError_quiet s message cb) id (.inr ⟨rfl, rfl⟩) fun hopen => .inr ⟨hopen, rfl, fun _ => id⟩

theorem callbacks_begin (cbs : List Callback) (error : Option SerialError) :
    ∀ task ∈ cbs.map (callback error), task.begins? = none := by
  intro task hmem
  obtain ⟨cb, -, rfl⟩ := List.mem_map.1 hmem
  exact begins?_of_plain (callback_plain _ _)

theorem _report_calm (s : SerialPortStream) (error : SerialError) (cb : Option Callback) :
    Calm s (s._report error cb) := by
  cases cb with
  | none => exact .first s (by simp [Task.begins?])
  | some cb => exact .first s (callbacks_begin [cb] _)

theorem _finishClose_calm (s : SerialPortStream) (error : Option SerialError) : Calm s (s._finishClose error) := by
  have hquiet := _finishClose_quiet s error
  unfold _finishClose at hquiet ⊢
  split at hquiet
  · rename_i hidle
    rw [if_pos hidle]
    exact .refl s
  · rename_i hbusy
    rw [if_neg hbusy]
    exact .of_closed hquiet (fun _ => rfl) (.inl ⟨rfl, rfl⟩) (isOpen_of_port rfl)

theorem _closeFailed_calm (s : SerialPortStream) (port : ℕ) (error : Thrown) : Calm s (s._closeFailed port error) := by
  have hquiet := _closeFailed_quiet s port error
  unfold _closeFailed at hquiet ⊢
  split
  · exact .refl s
  · rename_i hport
    rw [if_neg hport] at hquiet
    split
    · exact _finishClose_calm s _
    · rename_i hopen
      rw [if_neg hopen] at hquiet
      refine .of_quiet hquiet id (.inr ⟨rfl, rfl⟩) fun _ => .inl ?_
      exact List.mem_append_left _ (List.mem_append_right _ (List.mem_singleton_self _))

theorem closed_calm (s : SerialPortStream) (port : ℕ) (error : Option SerialError) : Calm s (s.closed port error) := by
  unfold closed
  split
  · exact _finishClose_calm s error
  · exact .refl s

theorem close_closed (s : SerialPortStream) (cb : Option Callback) (error : Option SerialError) :
    (s.close cb error).isOpen = false := by
  unfold close
  split
  · rename_i hclosing
    exact isOpen_of_closing hclosing
  split
  · rename_i hidle
    simp only [Bool.and_eq_true, Bool.not_eq_true'] at hidle
    exact hidle.1
  simp only
  split
  · split
    · exact isOpen_of_closing rfl
    · rw [throw_isOpen]
      exact isOpen_of_closing rfl
  · split
    · exact isOpen_of_closing rfl
    · exact isOpen_of_closing rfl

theorem close_calm (s : SerialPortStream) (cb : Option Callback) (error : Option SerialError) :
    Calm s (s.close cb error) := by
  have hfields : (s.close cb error)._readRequested = s._readRequested ∧ (s.close cb error).port = s.port ∧
      (s.close cb error)._readPort = s._readPort := by
    unfold close throw
    dsimp only
    repeat' split
    all_goals exact ⟨rfl, rfl, rfl⟩
  obtain ⟨hrequested, hport, hread⟩ := hfields
  exact .of_closed (close_quiet s cb error) (fun h => hrequested.trans h) (.inr ⟨hport, hread⟩) (close_closed s cb error)

theorem open_calm (s : SerialPortStream) (cb : Option Callback) : Calm s (s.open cb) := by
  have hfields : (s.open cb)._readRequested = s._readRequested ∧ (s.open cb).port = s.port ∧
      (s.open cb)._readPort = s._readPort ∧ ∃ tasks, (s.open cb).todo = tasks ++ s.todo := by
    unfold SerialPortStream.open
    repeat' split
    all_goals first | exact ⟨rfl, rfl, rfl, [], rfl⟩ | exact ⟨rfl, rfl, rfl, [_], rfl⟩
  obtain ⟨hrequested, hport, hread, tasks, htodo⟩ := hfields
  refine .of_quiet (open_quiet s cb) (fun h => hrequested.trans h) (.inr ⟨hport, hread⟩) fun hopen =>
    .inr ⟨open_isOpen s cb ▸ hopen, hrequested, fun task hmem => ?_⟩
  rw [htodo]
  exact List.mem_append_right _ hmem

theorem _operation_calm (s : SerialPortStream) (operation : ControlOperation) (baudRate : Option ℕ)
    (cb : Option Callback) : Calm s (s._operation operation baudRate cb) := by
  unfold _operation
  split
  · exact _asyncError_calm s _ _
  · exact (Calm.await s fun _ => rfl).trans (.first _ (by simp [Task.begins?]))

theorem operated_calm (s : SerialPortStream) (port : ℕ) (operation : ControlOperation) (baudRate : Option ℕ)
    (cb : Option Callback) : Calm s (s.operated port operation baudRate cb) := by
  have hset : Calm s (if s.port = some port ∧ operation = .update then { s with baudRate := baudRate } else s) := by
    split
    · exact .of_eq rfl rfl rfl rfl rfl rfl id id
    · exact .refl s
  exact hset.trans (.first _ (callbacks_begin _ _))

theorem canceled_calm (s : SerialPortStream) (port : ℕ) (cb : Option Callback) (error : Option Thrown) :
    Calm s (s.canceled port cb error) := by
  have hfirst : Calm s (s.first (cb.toList.map (callback (some openingCanceled)))) := .first s (callbacks_begin _ _)
  unfold canceled
  simp only
  split
  · exact hfirst.trans (_closeFailed_calm _ _ _)
  split
  · exact hfirst.trans (_finishClose_calm _ _)
  · exact hfirst

theorem openFailed_calm (s : SerialPortStream) (error : SerialError) (cb : Option Callback) :
    Calm s (s.openFailed error cb) := by
  unfold openFailed
  split
  · exact (Calm.first s (callbacks_begin _ _)).trans (_finishClose_calm _ _)
  · exact _report_calm s error cb

theorem tearDown_calm (s : SerialPortStream) (error : Option SerialError) : Calm s (s.tearDown error) := by
  unfold tearDown
  split
  · exact .of_eq rfl rfl rfl rfl rfl rfl id id
  split
  · exact close_calm s _ _
  · exact .first s (callbacks_begin [_] _)

theorem setOpen_calm (s : SerialPortStream) (port : ℕ) {value : Bool} (h : (s.setOpen port value).isOpen → s.isOpen) :
    Calm s (s.setOpen port value) :=
  .of_eq rfl rfl rfl rfl rfl rfl h id

theorem onClose_calm (s : SerialPortStream) (port : ℕ) (error : Option Thrown) : Calm s (s.onClose port error) := by
  unfold onClose
  split
  · exact .refl s
  simp only
  split
  · exact close_calm s _ _
  · exact _finishClose_calm s _

theorem _failWaitingWrite_isOpen (s : SerialPortStream) (error : SerialError) :
    (s._failWaitingWrite error).isOpen = s.isOpen := by
  unfold _failWaitingWrite
  split <;> rfl

theorem _failWaitingWrite_calm (s : SerialPortStream) (error : SerialError) : Calm s (s._failWaitingWrite error) := by
  obtain ⟨-, heq⟩ | ⟨write, data, -, heq⟩ := _failWaitingWrite_cases s error
  · rw [heq]
    exact .refl s
  · rw [heq]
    have hset : Calm s { s with _waitingWrite := none } :=
      .of_eq rfl rfl rfl rfl rfl rfl id id
    exact hset.trans (.first _ (by simp [Task.begins?]))

theorem _write_calm (s : SerialPortStream) (write : ℕ) (data : Buffer) : Calm s (s._write write data) := by
  obtain ⟨-, heq⟩ | ⟨port, -, -, heq⟩ := _write_cases s write data
  · rw [heq]
    exact .of_eq rfl rfl rfl rfl rfl rfl id id
  · rw [heq]
    exact (Calm.await s fun _ => rfl).trans (.first _ (by simp [Task.begins?]))

theorem _writev_calm (s : SerialPortStream) (write : ℕ) (chunks : List Buffer) : Calm s (s._writev write chunks) := by
  obtain heq | ⟨port, -, -, heq⟩ := _writev_cases s write chunks
  · rw [heq]
    exact _write_calm s write _
  · rw [heq]
    exact (Calm.await s fun _ => rfl).trans (.first _ (by simp [Task.begins?]))

theorem _writeError_calm (s : SerialPortStream) (port write : ℕ) (error : Thrown) :
    Calm s (s._writeError port write error) := by
  have hfirst : Calm s (s.first [.call (.written write (some (asError error))) .listener]) := .first s (by simp [Task.begins?])
  unfold _writeError
  simp only
  split
  · exact hfirst.trans (close_calm _ _ _)
  · exact hfirst

end SerialPortStream

/-! ### One read at a time -/

/-- The present port is read once at a time, and only if it has no `startReading`; `handed` are those that were handed
over. -/
structure Single (handed : List ℕ) (s : SerialPortStream) : Prop where
  one : ∀ port, s.port = some port → s.reading port ≤ if s._readPort = some port then 1 else 0
  known : ∀ port, 0 < s.reading port → port ∈ handed
  current : ∀ port, s.port = some port → port ∈ handed
  scalar : ∀ port, 0 < s.reading port → (s.features port).startReading = false
  begins : ∀ task ∈ s.todo, ∀ port, task.begins? = some port → (s.features port).startReading

/-- A read that is noted as in flight is. -/
def Flying (s : SerialPortStream) : Prop := ∀ port, s._readPort = some port → 0 < s.reading port

/-- What is kept of the reads in flight. -/
structure Carries (s s' : SerialPortStream) : Prop where
  single : ∀ handed, Single handed s → Single handed s'
  flying : Flying s → Flying s'

theorem Carries.refl (s : SerialPortStream) : Carries s s := ⟨fun _ => id, id⟩

theorem Carries.trans (h : Carries s s₁) (h' : Carries s₁ s') : Carries s s' :=
  ⟨fun handed hs => h'.single handed (h.single handed hs), h'.flying ∘ h.flying⟩

theorem Calm.single {handed : List ℕ} (h : Calm s s') (hs : Single handed s) : Single handed s' := by
  refine ⟨fun port hport => ?_, fun port hreads => ?_, fun port hport => ?_, fun port hreads => ?_,
    fun task hmem port hbegins => ?_⟩
  · rcases h.port with ⟨hnone, -⟩ | ⟨hsame, hread⟩
    · rw [hnone] at hport
      cases hport
    · rw [h.reading, hread]
      exact hs.one port (hsame ▸ hport)
  · rw [h.reading] at hreads
    exact hs.known port hreads
  · rcases h.port with ⟨hnone, -⟩ | ⟨hsame, -⟩
    · rw [hnone] at hport
      cases hport
    · exact hs.current port (hsame ▸ hport)
  · rw [h.reading] at hreads
    rw [h.features]
    exact hs.scalar port hreads
  · rw [h.features]
    rcases h.begins task hmem with hold | hnone
    · exact hs.begins task hold port hbegins
    · rw [hnone] at hbegins
      cases hbegins

theorem Calm.carries (h : Calm s s') : Carries s s' := by
  refine ⟨fun _ => h.single, fun hs port hread => ?_⟩
  rcases h.port with ⟨-, hidle⟩ | ⟨-, hsame⟩
  · rw [hidle] at hread
    cases hread
  · rw [h.reading]
    exact hs port (hsame ▸ hread)

theorem carries_popped {task : Task} {rest : List Task} (htodo : s.todo = task :: rest) :
    Carries s { s with todo := rest } :=
  ⟨fun _ h => ⟨h.one, h.known, h.current, h.scalar, fun other hmem => h.begins other (htodo ▸ List.mem_cons_of_mem _ hmem)⟩,
    fun h => h⟩

theorem readSettled_readPort {port p : ℕ} (h : (s.readSettled port)._readPort = some p) :
    p ≠ port ∧ s._readPort = some p := by
  unfold readSettled at h
  split at h
  · cases h
  · rename_i hother
    refine ⟨?_, h⟩
    rintro rfl
    exact hother h

theorem readSettled_reading (s : SerialPortStream) (port p : ℕ) : (s.readSettled port).reading p = s.reading p := by
  unfold readSettled
  split <;> rfl

theorem Single.forget {handed : List ℕ} (h : Single handed s) {port : ℕ} (hnone : s.port = some port → s.reading port = 0) :
    Single handed (s.readSettled port) := by
  unfold readSettled
  split
  · rename_i hread
    refine ⟨fun p hp => ?_, h.known, h.current, h.scalar, h.begins⟩
    have hone := h.one p hp
    by_cases hsame : port = p
    · subst hsame
      exact (hnone hp).le.trans (Nat.zero_le _)
    · rw [hread, if_neg fun heq => hsame (Option.some.inj heq)] at hone
      exact hone.trans (Nat.zero_le _)
  · exact h

theorem carries_erase {index : ℕ} {promise : Promise} (hpromise : s.promises[index]? = some promise)
    (hquiet : ∀ port, promise.reads port = false) : Carries s { s with promises := s.promises.eraseIdx index } := by
  have hreading (port : ℕ) : ({ s with promises := s.promises.eraseIdx index } : SerialPortStream).reading port =
      s.reading port := by
    obtain ⟨before, after, heq, herase⟩ := eq_of_getElem? hpromise
    show (s.promises.eraseIdx index).countP _ = s.promises.countP _
    rw [herase, heq, List.countP_append, List.countP_append, List.countP_cons, hquiet]
    simp
  refine ⟨fun handed h => ⟨fun port hport => (hreading port).trans_le (h.one port hport),
    fun port hreads => h.known port (hreading port ▸ hreads), h.current,
    fun port hreads => h.scalar port (hreading port ▸ hreads), h.begins⟩, fun h port hread => ?_⟩
  rw [hreading]
  exact h port hread

theorem carries_settled {index port length : ℕ} (hpromise : s.promises[index]? = some (.reading port length)) :
    Carries s (({ s with promises := s.promises.eraseIdx index } : SerialPortStream).readSettled port) := by
  obtain ⟨before, after, heq, herase⟩ := eq_of_getElem? hpromise
  have hreading (p : ℕ) : s.reading p =
      ({ s with promises := s.promises.eraseIdx index } : SerialPortStream).reading p + if port = p then 1 else 0 := by
    show s.promises.countP _ = (s.promises.eraseIdx index).countP _ + _
    rw [heq] at herase ⊢
    rw [herase, List.countP_append, List.countP_cons, List.countP_append]
    simp only [Promise.reads, decide_eq_true_eq]
    omega
  have hle (p : ℕ) : ({ s with promises := s.promises.eraseIdx index } : SerialPortStream).reading p ≤ s.reading p := by
    rw [hreading p]
    exact Nat.le_add_right _ _
  refine ⟨fun handed h => ?_, fun h p hread => ?_⟩
  · refine Single.forget ⟨fun p hp => (hle p).trans (h.one p hp), fun p hp => h.known p (hp.trans_le (hle p)), h.current,
      fun p hp => h.scalar p (hp.trans_le (hle p)), h.begins⟩ fun hport => ?_
    have hone := h.one port hport
    have hsame := hreading port
    rw [if_pos rfl] at hsame
    split at hone <;> omega
  · obtain ⟨hother, hread⟩ := readSettled_readPort hread
    have hsame := hreading p
    rw [if_neg (Ne.symm hother), Nat.add_zero] at hsame
    rw [readSettled_reading, ← hsame]
    exact h p hread

/-! ### Functions that look at the demand -/

/-- What a function does that looks at the demand: it is kept, unless data is about to be pushed, and an open stream is
reading, or going to. -/
structure Attends (s s' : SerialPortStream) : Prop where
  requested : s._readRequested → s'._readRequested ∨ s'.Pushing
  served : s'.isOpen → s'.destroyed = false → s'._readRequested →
    s'._readPort = s'.port ∨ ∃ task ∈ s'.todo, task.serves s'.port
  carries : Carries s s'

theorem Calm.attends (h : Calm s s') (hclosed : s'.isOpen = false) : Attends s s' := by
  refine ⟨fun hrequested => .inl (h.requested hrequested), fun hopen => ?_, h.carries⟩
  rw [hclosed] at hopen
  cases hopen

namespace SerialPortStream

/-- **`_read`** asks the open port for data, if it is not being read. -/
theorem _read_cases (s : SerialPortStream) (length : ℕ) :
    ((s.isOpen → s._readPort = s.port) ∧ s._read length = { s with _readRequested := true }) ∨
    (∃ port, s.isOpen ∧ s.port = some port ∧ (s.features port).startReading ∧ s._read length =
      { s with _readRequested := true }.first
        [.call (.startReading port (max 1 length)) (.startReading port (max 1 length))]) ∨
    ∃ port output, s.isOpen ∧ s.port = some port ∧ s._readPort ≠ some port ∧ (s.features port).startReading = false ∧
      s._read length = ({ s with _readRequested := true, _readPort := some port }.await
        (.reading port (max 1 length))).first [.call output .binding] ∧ output.asks := by
  cases hopen : s.isOpen with
  | false => exact .inl ⟨by simp, _read_closed hopen length⟩
  | true =>
    obtain ⟨port, hport⟩ : ∃ port, s.port = some port := by
      cases hport : s.port with
      | none =>
        rw [isOpen_of_port hport] at hopen
        cases hopen
      | some port => exact ⟨port, rfl⟩
    by_cases hread : s._readPort = some port
    · exact .inl ⟨fun _ => hread.trans hport.symm, _read_pending hopen hport hread length⟩
    · have hsome : ({ s with _readRequested := true } : SerialPortStream).openPort = some port :=
        openPort_eq_some.2 ⟨hopen, hport⟩
      refine .inr ?_
      unfold _read
      simp only
      rw [hsome]
      dsimp only
      rw [if_neg hread]
      cases hstarts : (s.features port).startReading with
      | true => exact .inl ⟨port, trivial, hport, hstarts, rfl⟩
      | false =>
        refine .inr ⟨port, _, trivial, hport, hread, hstarts, rfl, ?_⟩
        split
        · rfl
        · rfl

theorem carries_begin {port : ℕ} (hport : s.port = some port) (hread : s._readPort ≠ some port)
    (hscalar : (s.features port).startReading = false) (length : ℕ) (output : Output) :
    Carries s (({ s with _readRequested := true, _readPort := some port }.await (.reading port length)).first
      [.call output .binding]) := by
  have hreading (p : ℕ) : (({ s with _readRequested := true, _readPort := some port }.await
      (.reading port length)).first [.call output .binding]).reading p = s.reading p + if port = p then 1 else 0 := by
    show (s.promises ++ [Promise.reading port length]).countP (Promise.reads p) = _
    rw [List.countP_append, List.countP_singleton]
    simp [SerialPortStream.reading, Promise.reads]
  have hof {p : ℕ} (hreads : 0 < s.reading p + if port = p then 1 else 0) : 0 < s.reading p ∨ port = p := by
    split at hreads
    · exact .inr ‹_›
    · exact .inl hreads
  refine ⟨fun handed h => ?_, fun _ p hp => ?_⟩
  · refine ⟨fun p hp => ?_, fun p hreads => ?_, h.current, fun p hreads => ?_, fun task hmem p hbegins => ?_⟩
    · have hsame : port = p := Option.some.inj (hport.symm.trans hp)
      subst hsame
      have hone := h.one port hport
      rw [if_neg hread] at hone
      rw [hreading, if_pos rfl, Nat.le_zero.1 hone]
      exact (if_pos rfl).ge
    · rw [hreading] at hreads
      rcases hof hreads with hold | rfl
      · exact h.known p hold
      · exact h.current port hport
    · rw [hreading] at hreads
      rcases hof hreads with hold | rfl
      · exact h.scalar p hold
      · exact hscalar
    · rcases List.mem_cons.1 hmem with rfl | hmem
      · cases hbegins
      · exact h.begins task hmem p hbegins
  · have hsame : port = p := Option.some.inj hp
    rw [hreading, if_pos hsame]
    exact Nat.succ_pos _

theorem _read_attends (s : SerialPortStream) (length : ℕ) : Attends s (s._read length) := by
  obtain ⟨hreads, heq⟩ | ⟨port, -, hport, hstarts, heq⟩ | ⟨port, output, -, hport, hread, hscalar, heq, -⟩ :=
    _read_cases s length
  · rw [heq]
    exact ⟨fun _ => .inl rfl, fun hopen _ _ => .inl (hreads hopen),
      fun _ h => ⟨h.one, h.known, h.current, h.scalar, h.begins⟩, fun h => h⟩
  · rw [heq]
    refine ⟨fun _ => .inl rfl, fun _ _ _ => .inr ⟨_, List.mem_cons_self, ?_⟩, fun handed h => ?_, fun h => h⟩
    · exact decide_eq_true hport
    · refine ⟨h.one, h.known, h.current, h.scalar, fun task hmem p hbegins => ?_⟩
      rcases List.mem_cons.1 hmem with rfl | hmem
      · cases hbegins
        exact hstarts
      · exact h.begins task hmem p hbegins
  · rw [heq]
    exact ⟨fun _ => .inl rfl, fun _ _ _ => .inl hport.symm, carries_begin hport hread hscalar _ _⟩

theorem resumeRead_attends (s : SerialPortStream) : Attends s s.resumeRead := by
  unfold SerialPortStream.resumeRead
  split
  · exact _read_attends s _
  · rename_i hno
    exact ⟨.inl, fun _ _ hrequested => absurd hrequested hno, .refl s⟩

theorem _resumeIO_attends (s : SerialPortStream) : Attends s ( _resumeIO s) := by
  obtain ⟨hidle, heq⟩ | ⟨-, -, -, heq⟩ | ⟨port, write, data, -, -, -, -, heq⟩ := _resumeIO_cases s
  · rw [heq]
    refine ⟨.inl, fun hopen hlive _ => ?_, .refl s⟩
    rcases hidle with hdead | hclosed
    · rw [hdead] at hlive
      cases hlive
    · rw [hclosed] at hopen
      cases hopen
  · rw [heq]
    exact resumeRead_attends s
  · have hset : Calm s { s with _waitingWrite := none } := .of_eq rfl rfl rfl rfl rfl rfl id id
    have hcalm : Calm s (( _resumeIO s)) := by
      rw [heq]
      exact ((hset.trans (.first _ (by simp [Task.begins?]))).trans (.await _ fun _ => rfl)).trans
        (.first _ (by simp [Task.begins?]))
    refine ⟨fun hrequested => .inl (hcalm.requested hrequested), fun _ _ _ => .inr ⟨.resumeRead, ?_, rfl⟩,
      hcalm.carries⟩
    rw [heq]
    exact List.mem_cons_of_mem _ List.mem_cons_self

theorem push_attends (s : SerialPortStream) (data : Option Buffer) :
    Attends s ({ s with _readRequested := false }.first [.call (.push data) .listener]) := by
  refine ⟨fun _ => .inr ⟨rfl, data, .listener, s.todo, rfl⟩, fun _ _ hno => (Bool.false_ne_true hno).elim,
    fun handed h => ?_, fun h => h⟩
  refine ⟨h.one, h.known, h.current, h.scalar, fun task hmem p hbegins => ?_⟩
  rcases List.mem_cons.1 hmem with rfl | hmem
  · cases hbegins
  · exact h.begins task hmem p hbegins

theorem onData_forms (s : SerialPortStream) (port : ℕ) (data : Buffer) :
    s.onData port data = { s with _readRequested := false }.first [.call (.push (some data)) .listener] ∨
    s.onData port data = s := by
  unfold onData
  split
  · exact .inl rfl
  · exact .inr rfl

theorem readSettled_requested (s : SerialPortStream) (port : ℕ) :
    (s.readSettled port)._readRequested = s._readRequested := by
  unfold readSettled
  split <;> rfl

theorem readSettled_port (s : SerialPortStream) (port : ℕ) : (s.readSettled port).port = s.port := by
  unfold readSettled
  split <;> rfl

theorem received_attends (s : SerialPortStream) (port length : ℕ) (data : Buffer) :
    Attends (s.readSettled port) (s.received port length data) := by
  unfold received
  simp only
  split
  · exact push_attends _ _
  split
  · exact _read_attends _ _
  · rename_i hclosed
    exact (Calm.refl _).attends (by simpa using hclosed)

/-- A read was rejected, and not as canceled while its port is open: the stream is closed, or another port is read, or the
stream is not open. -/
theorem _readError_attends (s : SerialPortStream) (port : ℕ) (error : Thrown) (length : ℕ)
    (hlawful : (asError error).canceled → s.Closed port) :
    Attends (s.readSettled port) (s._readError port error length) := by
  have hopen : (s.readSettled port).isOpen = s.isOpen := (readSettled_same s port).isOpen
  unfold _readError
  simp only
  split
  · exact (close_calm _ _ _).attends (close_closed _ _ _)
  · rename_i hstays
    split
    · exact _read_attends _ _
    · rename_i hsame
      refine (Calm.refl _).attends ?_
      rw [hopen]
      by_contra hstill
      rw [Bool.not_eq_false] at hstill
      rw [readSettled_port, hopen, hstill] at hsame hstays
      have hport : s.port = some port := by simpa using hsame
      have hcanceled : (asError error).canceled = true := by simpa [hport] using hstays
      rcases hlawful hcanceled with hclosed | hother
      · simp [isOpen, hport, hclosed] at hstill
      · exact hother hport

/-- A port was handed over. -/
def connect (s : SerialPortStream) (port : ℕ) (isOpen : Bool) : SerialPortStream :=
  { s with _opening := false, opening := false, port := some port }.setOpen port isOpen

theorem opened_calm (s : SerialPortStream) (port : ℕ) (isOpen : Bool) (cb : Option Callback) :
    Calm (s.connect port isOpen) (s.opened port isOpen cb) ∧
    ((s.opened port isOpen cb).isOpen → .resume ∈ (s.opened port isOpen cb).todo) := by
  unfold opened
  simp only
  split
  · rename_i hclosing
    refine ⟨(Calm.first _ (by simp [Task.begins?])).trans (_failWaitingWrite_calm _ _), fun hopen => ?_⟩
    rw [_failWaitingWrite_isOpen, first_isOpen, isOpen_of_closing hclosing] at hopen
    cases hopen
  · refine ⟨.first _ fun task hmem => begins?_of_plain (openCalls_plain cb task hmem), fun _ => ?_⟩
    exact List.mem_append_left _ (List.mem_cons_of_mem _ (List.mem_append_right _ List.mem_cons_self))

end SerialPortStream

/-! ### Steps -/

theorem readData_error {length : ℕ} {bytesRead : Option ℤ} {buffer : Buffer} {error : Thrown}
    (h : readData length bytesRead buffer = .error error) : (asError error).canceled = false := by
  unfold readData at h
  split at h
  · split at h
    · cases h
      rfl
    · cases h
  · cases h
    rfl

/-- The demand is kept, and an open stream is reading, or going to, or was told to start. -/
structure Demanded (d : Demand) (s : SerialPortStream) : Prop where
  requested : d.asked → s._readRequested
  served : s.isOpen → s.destroyed = false → s._readRequested →
    s._readPort = s.port ∨ d.started ∨ ∃ task ∈ s.todo, task.serves s.port

/-- **No demand is forgotten**: but for one that is about to be answered. -/
def Heeds (d : Demand) (s : SerialPortStream) : Prop := Demanded d s ∨ s.Pushing

theorem Demanded.calm (h : Demanded d s) (hcalm : Calm s s') : Demanded d s' := by
  refine ⟨fun hasked => hcalm.requested (h.requested hasked), fun hopen hlive hrequested => ?_⟩
  rcases hcalm.resumed hopen hlive with hresume | ⟨hopen₀, hlive₀, hsame, htasks⟩
  · exact .inr (.inr ⟨.resume, hresume, rfl⟩)
  · rcases hcalm.port with ⟨hnone, -⟩ | ⟨hport, hread⟩
    · rw [isOpen_of_port hnone] at hopen
      cases hopen
    · rw [hport, hread]
      rcases h.served hopen₀ hlive₀ (hsame ▸ hrequested) with hreads | hstarted | ⟨task, hmem, hserves⟩
      · exact .inl hreads
      · exact .inr (.inl hstarted)
      · exact .inr (.inr ⟨task, htasks task hmem, hserves⟩)

theorem Demanded.popped (h : Demanded d s) {task : Task} {rest : List Task} (htodo : s.todo = task :: rest)
    (hserves : task.serves s.port = false) : Demanded d { s with todo := rest } := by
  refine ⟨h.requested, fun hopen hlive hrequested => ?_⟩
  refine (h.served hopen hlive hrequested).imp_right (.imp_right fun ⟨other, hmem, hother⟩ => ?_)
  rw [htodo] at hmem
  rcases List.mem_cons.1 hmem with rfl | hmem
  · rw [hserves] at hother
    cases hother
  · exact ⟨other, hmem, hother⟩

theorem Attends.heeds (h : Attends s s') (hrequested : d.asked → s._readRequested) : Heeds d s' := by
  have hserved : s'.isOpen → s'.destroyed = false → s'._readRequested →
      s'._readPort = s'.port ∨ d.started ∨ ∃ task ∈ s'.todo, task.serves s'.port :=
    fun hopen hlive hrequested' => (h.served hopen hlive hrequested').imp_right .inr
  cases hasked : d.asked with
  | false => exact .inl ⟨fun hyes => absurd (hasked.symm.trans hyes) Bool.false_ne_true, hserved⟩
  | true => exact (h.requested (hrequested hasked)).imp_left fun hkept => ⟨fun _ => hkept, hserved⟩

/-- What a step does that hands over no port. -/
structure Turns (d : Demand) (s s' : SerialPortStream) : Prop where
  heeds : Heeds d s'
  carries : Carries s s'

theorem Turns.calm (h : Demanded d s₁) (hcarries : Carries s s₁) (hcalm : Calm s₁ s') : Turns d s s' :=
  ⟨.inl (h.calm hcalm), hcarries.trans hcalm.carries⟩

theorem Turns.attends (hattends : Attends s₁ s') (hrequested : d.asked → s₁._readRequested)
    (hcarries : Carries s s₁) : Turns d s s' :=
  ⟨hattends.heeds hrequested, hcarries.trans hattends.carries⟩

namespace Demanded

theorem enter (h : Demanded d s) {entry : Entry} (hstep : s.enter entry = some (s', out)) :
    Turns (d.next s (.enter entry) out) s s' := by
  have hcalm (hcalm : Calm s s') : Turns d s s' := .calm h (.refl s) hcalm
  cases entry with
  | «open» cb =>
    cases hstep
    exact hcalm (open_calm s _)
  | close cb =>
    cases hstep
    exact hcalm (close_calm s _ _)
  | destroy error =>
    have heq : (if s.destroyed then s else { s with destroyed := true }._destroy error) = s' ∧ [] = out := by
      cases hstep
      exact ⟨rfl, rfl⟩
    obtain ⟨rfl, rfl⟩ := heq
    refine hcalm ?_
    split
    · exact .refl s
    · have hset : Calm s { s with destroyed := true } :=
        .of_eq rfl rfl rfl rfl rfl rfl id fun hlive => (Bool.false_ne_true hlive.symm).elim
      exact (hset.trans (.first _ (by simp [Task.begins?]))).trans (_failWaitingWrite_calm _ _)
  | operation operation baudRate cb =>
    cases hstep
    exact hcalm (_operation_calm s _ _ _)
  | _read length =>
    obtain ⟨-, heq⟩ := Option.ite_none_left_eq_some.1 (show (if s.destroyed then none else _) = _ from hstep)
    cases heq
    -- `_read` keeps the demand first of all
    have hattends : Attends { s with _readRequested := true } (s._read length) :=
      _read_attends { s with _readRequested := true } length
    exact .attends hattends (fun _ => rfl) ⟨fun _ hs => ⟨hs.one, hs.known, hs.current, hs.scalar, hs.begins⟩, fun hs => hs⟩
  | _write data =>
    obtain ⟨-, heq⟩ := Option.ite_none_left_eq_some.1
      (show (if s.destroyed || s.writing.isSome then none else _) = _ from hstep)
    cases heq
    have hhand : Calm s s.hand := .of_eq rfl rfl rfl rfl rfl rfl id id
    exact hcalm (hhand.trans (_write_calm _ _ _))
  | _writev chunks =>
    obtain ⟨-, heq⟩ := Option.ite_none_left_eq_some.1
      (show (if s.destroyed || s.writing.isSome then none else _) = _ from hstep)
    cases heq
    have hhand : Calm s s.hand := .of_eq rfl rfl rfl rfl rfl rfl id id
    exact hcalm (hhand.trans (_writev_calm _ _ _))
  | onClose port error closed =>
    cases hstep
    have hset : Calm s (if closed then s.setOpen port false else s) := by
      split
      · exact setOpen_calm s port (setOpen_isOpen s port)
      · exact .refl s
    exact hcalm (hset.trans (onClose_calm _ _ _))
  | onData port data =>
    cases hstep
    obtain heq | heq := onData_forms s port data
    · rw [heq]
      exact .attends (push_attends s _) h.requested (.refl s)
    · rw [heq]
      exact .calm h (.refl s) (.refl s)

theorem returned (h : Demanded d s) {kind : Kind} {rest : List Task} (htodo : s.todo = .outside kind :: rest) :
    Turns d s ({ s with todo := rest }.returned kind) := by
  refine .calm (h.popped htodo rfl) (carries_popped htodo) ?_
  cases kind with
  | opening => exact .of_eq rfl rfl rfl rfl rfl rfl id id
  | canceling port cb => exact .await _ fun _ => rfl
  | _ => exact .refl _

theorem thrown (h : Demanded d s) {kind : Kind} {rest : List Task} (htodo : s.todo = .outside kind :: rest)
    {reason : Thrown} (hlawful : s.Lawful s.Closed (.throws reason)) :
    Turns (d.next s (.throws reason) []) s ({ s with todo := rest }.thrown reason kind) := by
  have hcalm (hother : ∀ port length, kind ≠ .startReading port length)
      (hcalm : Calm { s with todo := rest } ({ s with todo := rest }.thrown reason kind)) :
      Turns (d.next s (.throws reason) []) s ({ s with todo := rest }.thrown reason kind) := by
    have hnext : d.next s (.throws reason) [] = d := by
      cases kind with
      | startReading port length => exact absurd rfl (hother port length)
      | _ => simp only [Demand.next, htodo]
    rw [hnext]
    exact .calm (h.popped htodo rfl) (carries_popped htodo) hcalm
  cases kind with
  | listener => simp only [SerialPortStream.Lawful, htodo] at hlawful
  | binding => exact hcalm (by simp) (.refl _)
  | opening => exact hcalm (by simp) (.of_eq rfl rfl rfl rfl rfl rfl id id)
  | canceling port cb => exact hcalm (by simp) (canceled_calm { s with todo := rest } port cb (some reason))
  | startReading port length =>
    have hnext : d.next s (.throws reason) [] = { d with started := false } := by simp only [Demand.next, htodo]
    have hcanceled : (asError reason).canceled → s.Closed port := by simpa only [SerialPortStream.Lawful, htodo] using hlawful
    rw [hnext]
    refine .attends (_readError_attends { s with todo := rest } port reason length hcanceled) ?_ ?_
    · exact fun hasked => (readSettled_requested _ _).trans (h.requested hasked)
    · refine ⟨fun handed hs => ?_, fun hs p hread => ?_⟩
      rotate_left
      · rw [readSettled_reading]
        exact hs p (readSettled_readPort hread).2
      refine ((carries_popped htodo).single handed hs).forget fun _ => ?_
      -- a port with `startReading` is never read
      by_contra hreads
      have hscalar := hs.scalar port (Nat.pos_of_ne_zero hreads)
      have hbegins := hs.begins (.outside (.startReading port length)) (htodo ▸ List.mem_cons_self) port rfl
      rw [hscalar] at hbegins
      cases hbegins

theorem perform (h : Demanded d s) {task : Task} {rest : List Task} (htodo : s.todo = task :: rest)
    (hstep : ({ s with todo := rest } : SerialPortStream).perform task = some (s', out)) :
    Turns (d.next s .proceed out) s s' := by
  have hcarries : Carries s { s with todo := rest } := carries_popped htodo
  have hcalm (hserves : task.serves s.port = false) (hcalm : Calm { s with todo := rest } s') : Turns d s s' :=
    .calm (h.popped htodo hserves) hcarries hcalm
  have hattends (hattends : Attends { s with todo := rest } s') : Turns d s s' :=
    .attends hattends h.requested hcarries
  cases task with
  | call output kind =>
    have hmem {other : Task} (hother : other ∈ s.todo) : other = .call output kind ∨ other ∈ rest :=
      List.mem_cons.1 (htodo ▸ hother)
    cases hstep
    refine ⟨.inl ?_, fun handed hs => ⟨hs.one, hs.known, hs.current, hs.scalar, fun other hother port hbegins => ?_⟩,
      fun hs => hs⟩
    · cases output with
      | push data =>
        -- a push asks no port for data
        refine ⟨fun hno => (Bool.false_ne_true hno).elim, fun hopen hlive hrequested => ?_⟩
        refine (h.served hopen hlive hrequested).imp_right (.imp_right fun ⟨other, hother, hserves⟩ => ?_)
        rcases hmem hother with rfl | hrest
        · cases hserves
        · exact ⟨other, List.mem_cons_of_mem _ hrest, hserves⟩
      | startReading port length =>
        by_cases hport : s.port = some port
        · rw [show d.next s .proceed [.startReading port length] = { d with started := true } from if_pos hport]
          exact ⟨h.requested, fun _ _ _ => .inr (.inl rfl)⟩
        · rw [show d.next s .proceed [.startReading port length] = d from if_neg hport]
          refine ⟨h.requested, fun hopen hlive hrequested => ?_⟩
          refine (h.served hopen hlive hrequested).imp_right (.imp_right fun ⟨other, hother, hserves⟩ => ?_)
          rcases hmem hother with rfl | hrest
          · exact absurd (of_decide_eq_true hserves) hport
          · exact ⟨other, List.mem_cons_of_mem _ hrest, hserves⟩
      | _ =>
        refine ⟨h.requested, fun hopen hlive hrequested => ?_⟩
        refine (h.served hopen hlive hrequested).imp_right (.imp_right fun ⟨other, hother, hserves⟩ => ?_)
        rcases hmem hother with rfl | hrest
        · cases hserves
        · exact ⟨other, List.mem_cons_of_mem _ hrest, hserves⟩
    · rcases List.mem_cons.1 hother with rfl | hrest
      · exact hs.begins (.call output kind) (htodo ▸ List.mem_cons_self) port (by cases kind <;> exact hbegins)
      · exact hs.begins other (htodo ▸ List.mem_cons_of_mem _ hrest) port hbegins
  | outside kind => cases hstep
  | resume =>
    cases hstep
    exact hattends (_resumeIO_attends _)
  | resumeRead =>
    cases hstep
    exact hattends (resumeRead_attends _)
  | cancelOpen port cb =>
    cases hstep
    exact hcalm rfl (.first _ (by simp [Task.begins?]))
  | openFailed error cb =>
    cases hstep
    exact hcalm rfl (openFailed_calm _ _ _)
  | destroy error =>
    cases hstep
    exact hcalm rfl (tearDown_calm _ _)
  | catchOpen =>
    cases hstep
    exact hcalm rfl (.refl _)

/-- A promise other than that of an open settles, or an open was rejected. -/
theorem settled (h : Demanded d s) {index : ℕ} {promise : Promise} {result : Result}
    (hpromise : s.promises[index]? = some promise) (hlawful : s.Lawful s.Closed (.settle index result))
    (hresult : ∀ port isOpen, result ≠ .port port isOpen)
    (hstep : ({ s with promises := s.promises.eraseIdx index } : SerialPortStream).settled promise result = some s') :
    Turns d s s' := by
  have herased : Demanded d { s with promises := s.promises.eraseIdx index } := ⟨h.requested, h.served⟩
  have hcalm (hquiet : ∀ port, promise.reads port = false)
      (hcalm : Calm { s with promises := s.promises.eraseIdx index } s') : Turns d s s' :=
    .calm herased (carries_erase hpromise hquiet) hcalm
  have hattends {port length : ℕ} (hreading : promise = .reading port length)
      (hattends : Attends (({ s with promises := s.promises.eraseIdx index } : SerialPortStream).readSettled port) s') :
      Turns d s s' := by
    subst hreading
    exact .attends hattends (fun hasked => (readSettled_requested _ port).trans (h.requested hasked))
      (carries_settled hpromise)
  have hcatch : Calm { s with promises := s.promises.eraseIdx index }
      (({ s with promises := s.promises.eraseIdx index } : SerialPortStream).first [.catchOpen]) :=
    .first _ (by simp [Task.begins?])
  cases settled_settles hstep with
  | @opened cb port isOpen => exact absurd rfl (hresult port isOpen)
  | rejected =>
    refine hcalm (fun _ => rfl) ?_
    have hset : Calm { s with promises := s.promises.eraseIdx index }
        { s with promises := s.promises.eraseIdx index, _opening := false, opening := false } :=
      .of_eq rfl rfl rfl rfl rfl rfl id id
    exact (hset.trans (.first _ (by simp [Task.begins?]))).trans (_failWaitingWrite_calm _ _)
  | closed => exact hcalm (fun _ => rfl) (closed_calm _ _ _)
  | closeFailed => exact hcalm (fun _ => rfl) (_closeFailed_calm _ _ _)
  | canceled | cancelFailed => exact hcalm (fun _ => rfl) (hcatch.trans (canceled_calm _ _ _ _))
  | written => exact hcalm (fun _ => rfl) (.first _ (by simp [Task.begins?]))
  | writeFailed => exact hcalm (fun _ => rfl) (_writeError_calm _ _ _ _)
  | data | bytesRead => exact hattends rfl (received_attends _ _ _ _)
  | invalid hchunk hlength herror =>
    refine hattends rfl (_readError_attends _ _ _ _ fun hcanceled => ?_)
    rw [readData_error herror] at hcanceled
    cases hcanceled
  | @readFailed port length reason =>
    have hcanceled : (asError reason).canceled → s.Closed port := by
      simpa only [SerialPortStream.Lawful, hpromise] using hlawful
    exact hattends rfl (_readError_attends _ _ _ _ hcanceled)
  | operated => exact hcalm (fun _ => rfl) (operated_calm _ _ _ _ _)
  | operationFailed | reported => exact hcalm (fun _ => rfl) (_report_calm _ _ _)

end Demanded

/-- The port an input hands over. -/
def Input.ports : Input → List ℕ
  | .settle _ (.port port _) => [port]
  | _ => []

theorem Single.connect {handed : List ℕ} (h : Single handed s) {port : ℕ} (hfresh : port ∉ handed) (isOpen : Bool) :
    Single (handed ++ [port]) (s.connect port isOpen) := by
  refine ⟨fun p hp => ?_, fun p hreads => List.mem_append_left _ (h.known p hreads), fun p hp => ?_, h.scalar, h.begins⟩
  · obtain rfl : port = p := Option.some.inj hp
    have hnone : s.reading port = 0 := by
      by_contra hreads
      exact hfresh (h.known port (Nat.pos_of_ne_zero hreads))
    exact (show s.reading port ≤ 0 from hnone.le).trans (Nat.zero_le _)
  · obtain rfl : port = p := Option.some.inj hp
    exact List.mem_append_right _ (List.mem_singleton_self port)

theorem SerialPortStream.Pushing.not_waits (h : s.Pushing) : s.waits = false := by
  obtain ⟨-, data, kind, rest, htodo⟩ := h
  rw [SerialPortStream.waits, htodo]
  rfl

theorem SerialPortStream.setOpen_revives {port : ℕ} {value : Bool} (hrevives : s.RevivesClosing (.isOpen port value))
    (hopen : (s.setOpen port value).isOpen) : s.isOpen := by
  cases value with
  | false => exact setOpen_isOpen s port hopen
  | true =>
    have hclosing : s.closing = false := by
      cases hclosing : s.closing with
      | false => rfl
      | true => rw [isOpen_of_closing (s := s.setOpen port true) hclosing] at hopen; cases hopen
    by_cases hport : s.port = some port
    · cases hvalue : s.ports port with
      | true => simp [isOpen, hport, hvalue, hclosing]
      | false =>
        -- a port that was closed would be open again, but no close is under way
        rw [hrevives ⟨rfl, hport, hvalue⟩] at hclosing
        cases hclosing
    · cases hcurrent : s.port with
      | none => simp [isOpen, setOpen, hcurrent] at hopen
      | some current =>
        have hother : current ≠ port := fun heq => hport (hcurrent.trans (congrArg some heq))
        simpa [isOpen, setOpen, hcurrent, hother] using hopen

/-- **The step lemma.** -/
theorem heeds_step (h : Heeds d s) {input : Input} (hrevives : s.RevivesClosing input) (hlawful : s.Lawful s.Closed input)
    (hstep : s.step input = some (s', out)) :
    Heeds (d.next s input out) s' ∧ (Flying s → Flying s') ∧
      ∀ handed, Single handed s → (∀ port ∈ input.ports, port ∉ handed) → Single (handed ++ input.ports) s' := by
  have hturns (hturns : Turns (d.next s input out) s s') (hports : input.ports = []) :
      Heeds (d.next s input out) s' ∧ (Flying s → Flying s') ∧
        ∀ handed, Single handed s → (∀ port ∈ input.ports, port ∉ handed) → Single (handed ++ input.ports) s' := by
    refine ⟨hturns.heeds, hturns.carries.flying, fun handed hs _ => ?_⟩
    rw [hports, List.append_nil]
    exact hturns.carries.single handed hs
  have hdemanded (hwaits : s.waits) : Demanded d s := by
    refine h.resolve_right fun hpushing => ?_
    rw [hpushing.not_waits] at hwaits
    cases hwaits
  have houtside {kind : Kind} {rest : List Task} (htodo : s.todo = .outside kind :: rest) : Demanded d s :=
    hdemanded (by rw [SerialPortStream.waits, htodo]; rfl)
  have hdone (htodo : s.todo = []) : Demanded d s := hdemanded (by rw [SerialPortStream.waits, htodo]; rfl)
  cases step_runs hstep with
  | enter hwaits hentry => exact hturns ((hdemanded hwaits).enter hentry) rfl
  | returns htodo => exact hturns ((houtside htodo).returned htodo) rfl
  | throws reason htodo => exact hturns ((houtside htodo).thrown htodo hlawful) rfl
  | proceed htodo htask =>
    rcases h with hdemanded | ⟨hno, data, kind, rest', htodo'⟩
    · exact hturns (hdemanded.perform htodo htask) rfl
    · -- the push answers the demand
      have hanswered : Demanded { d with asked := false } s :=
        ⟨fun hasked => (Bool.false_ne_true hasked).elim, fun _ _ hrequested => by
          rw [hno] at hrequested
          cases hrequested⟩
      have hperform := hanswered.perform htodo htask
      obtain ⟨rfl, rfl⟩ := List.cons.inj (htodo.symm.trans htodo')
      cases htask
      exact hturns hperform rfl
  | @settle index promise result _ htodo hpromise hsettled =>
    by_cases hresult : ∀ port isOpen, result ≠ .port port isOpen
    · have hnext : d.next s (.settle index result) [] = d := by
        cases result with
        | port port isOpen => exact absurd rfl (hresult port isOpen)
        | _ => rfl
      have hports : Input.ports (.settle index result) = [] := by
        cases result with
        | port port isOpen => exact absurd rfl (hresult port isOpen)
        | _ => rfl
      refine hturns ?_ hports
      rw [hnext]
      exact (hdone htodo).settled hpromise hlawful hresult hsettled
    · push Not at hresult
      obtain ⟨port, isOpen, rfl⟩ := hresult
      cases settled_settles hsettled with
      | @opened cb =>
        obtain ⟨hcalm, hresume⟩ := opened_calm { s with promises := s.promises.eraseIdx index } port isOpen cb
        refine ⟨.inl ⟨fun hasked => hcalm.requested ((hdone htodo).requested hasked), fun hopen _ _ =>
          .inr (.inr ⟨.resume, hresume hopen, rfl⟩)⟩, fun hs => ?_, fun handed hs hfresh => ?_⟩
        · have herased := (carries_erase hpromise fun _ => rfl).flying hs
          exact hcalm.carries.flying herased
        · have herased := (carries_erase hpromise fun _ => rfl).single handed hs
          exact hcalm.single (herased.connect (hfresh port (List.mem_singleton_self port)) isOpen)
  | @tick message cb rest htodo hticks =>
    have hset : Calm s { s with ticks := rest } := .of_eq rfl rfl rfl rfl rfl rfl id id
    exact hturns (.calm (hdone htodo) (.refl s) (hset.trans (_report_calm _ _ _))) rfl
  | @isOpen port value hwaits =>
    exact hturns (.calm (hdemanded hwaits) (.refl s) (setOpen_calm s port fun hopen => setOpen_revives hrevives hopen)) rfl

/-! ### Runs -/

/-- **Read demand is never forgotten.**  In every run in which the ports are distinct and steady, listeners do not throw, and
a port rejects a read as canceled only while it is closed: where nothing runs, the stream is open and not destroyed, and Node's
last `_read` was not answered, a read of the present port is in flight, or its `startReading` was called since; and the
present port is read once at a time. -/
theorem read_demand (features : ℕ → Features) (endOnClose : Bool) (highWaterMark : ℕ) (baudRate : Option ℕ)
    {inputs : List Input} {s : SerialPortStream} {d : Demand} {outputs : List Output}
    (hdistinct : (inputs.flatMap Input.ports).Nodup)
    (hrevives : stream.Along (fun _ _ s input => s.RevivesClosing input) (.new features endOnClose highWaterMark baudRate) inputs)
    (hlawful : stream.Along (fun _ _ s input => s.Lawful s.Closed input) (.new features endOnClose highWaterMark baudRate)
      inputs)
    (hrun : (stream.monitor Demand.next).run (.new features endOnClose highWaterMark baudRate, {}) inputs =
      some ((s, d), outputs)) :
    (s.todo = [] → s.isOpen → s.destroyed = false → d.asked →
      (∃ port, s.port = some port ∧ s._readPort = some port ∧ 0 < s.reading port) ∨ d.started) ∧
    ∀ port, s.port = some port → s.reading port ≤ 1 := by
  have hinv : Heeds d s ∧ Flying s ∧
      ((inputs.flatMap Input.ports).Nodup → Single (inputs.flatMap Input.ports) s) := by
    refine Machine.run_rule (fun inputs _ x => Heeds x.2 x.1 ∧ Flying x.1 ∧
      ((inputs.flatMap Input.ports).Nodup → Single (inputs.flatMap Input.ports) x.1)) ?_ ?_
      ((hrevives.and hlawful).monitor {}) hrun
    · refine ⟨.inl ⟨fun hno => (Bool.false_ne_true hno).elim, fun hno => (Bool.false_ne_true hno).elim⟩,
        fun _ hno => (Option.some_ne_none _ hno.symm).elim, fun _ => ⟨fun _ hno => (Option.some_ne_none _ hno.symm).elim,
          fun _ hno => (Nat.lt_irrefl 0 hno).elim, fun _ hno => (Option.some_ne_none _ hno.symm).elim,
          fun _ hno => (Nat.lt_irrefl 0 hno).elim, fun _ hno => (List.not_mem_nil hno).elim⟩⟩
    · rintro pre _ ⟨s, d⟩ input ⟨s', d'⟩ out ⟨hheeds, hflying, hsingle⟩ ⟨hrevives, hlawful⟩ hstep
      obtain ⟨hstep, rfl⟩ := Machine.monitor_step.1 hstep
      obtain ⟨hheeds', hflying', hsingle'⟩ := heeds_step hheeds hrevives hlawful hstep
      refine ⟨hheeds', hflying' hflying, fun hnodup => ?_⟩
      rw [List.flatMap_append, List.flatMap_singleton] at hnodup ⊢
      obtain ⟨hpre, -, hfresh⟩ := List.nodup_append.1 hnodup
      exact hsingle' _ (hsingle hpre) fun port hport hmem => hfresh port hmem port hport rfl
  obtain ⟨hheeds, hflying, hsingle⟩ := hinv
  refine ⟨fun htodo hopen hlive hasked => ?_, fun port hport => ?_⟩
  · have hdemanded : Demanded d s := hheeds.resolve_right fun ⟨_, _, _, _, hpushing⟩ => by
      rw [htodo] at hpushing
      cases hpushing
    rcases hdemanded.served hopen hlive (hdemanded.requested hasked) with hread | hstarted | ⟨task, hmem, -⟩
    · cases hport : s.port with
      | none =>
        rw [isOpen_of_port hport] at hopen
        cases hopen
      | some port => exact .inl ⟨port, rfl, hread.trans hport, hflying port (hread.trans hport)⟩
    · exact .inr hstarted
    · rw [htodo] at hmem
      cases hmem
  · have hone := (hsingle hdistinct).one port hport
    split at hone <;> omega

/-- No port opens by it. -/
def Input.closes : Input → Bool
  | .isOpen _ true => false
  | _ => true

theorem along_revives {inputs : List Input} (h : inputs.all Input.closes) (s : SerialPortStream) :
    stream.Along (fun _ _ s input => s.RevivesClosing input) s inputs := by
  rintro pre input post rfl s' outputs - hrevives
  have hcloses : input.closes := List.all_eq_true.1 h input (List.mem_append_right _ List.mem_cons_self)
  cases input with
  | isOpen port value =>
    obtain rfl := hrevives.1
    cases hcloses
  | _ => cases hrevives

/-- No exception, and no rejection as canceled. -/
def Input.mild : Input → Bool
  | .throws _ => false
  | .settle _ (.rejected reason) => !(asError reason).canceled
  | _ => true

theorem lawful_of_mild {closed : ℕ → Prop} {input : Input} (h : input.mild) (s : SerialPortStream) :
    s.Lawful closed input := by
  cases input with
  | throws reason => cases h
  | settle index result =>
    cases result with
    | rejected reason =>
      have hcanceled : (asError reason).canceled = false := by simpa [Input.mild] using h
      show match s.promises[index]? with
        | some (.reading port _) => (asError reason).canceled → closed port
        | _ => True
      split
      · exact fun hyes => absurd (hcanceled.symm.trans hyes) Bool.false_ne_true
      · trivial
    | _ => trivial
  | _ => trivial

theorem along_lawful {inputs : List Input} (h : inputs.all Input.mild) (closed : List Input → SerialPortStream → ℕ → Prop)
    (s : SerialPortStream) : stream.Along (fun pre _ s input => s.Lawful (closed pre s) input) s inputs := by
  rintro pre input post rfl s' outputs -
  exact lawful_of_mild (List.all_eq_true.1 h input (List.mem_append_right _ List.mem_cons_self)) s'

/-- Node reads port 0, which is closed while the read is pending; then a port is opened again. -/
def reopened (port : ℕ) : List Input :=
  [.enter (.open none), .proceed, .returns, .settle 0 (.port 0 true), .proceed, .returns, .proceed, .proceed,
    .enter (._read 16), .proceed, .returns, .enter (.close none), .proceed, .isOpen 0 false, .returns, .settle 1 .done,
    .proceed, .returns, .enter (.open none), .proceed, .returns, .settle 1 (.port port true), .proceed, .returns,
    .proceed, .proceed, .returns, .proceed]

/-- Another port is opened: it is read once. -/
theorem read_demand_reopened : ∃ s d outputs,
    (stream.monitor Demand.next).run (.new (fun _ => {}) false 16 none, {}) (reopened 1) = some ((s, d), outputs) ∧
    s.port = some 1 ∧ d.asked ∧ s.reading 0 = 1 ∧ s.reading 1 ≤ 1 := by
  have hdistinct : ((reopened 1).flatMap Input.ports).Nodup := by decide
  refine ⟨_, _, _, rfl, rfl, rfl, by decide, ?_⟩
  exact (read_demand (fun _ => {}) false 16 none hdistinct (along_revives (by decide) _)
    (along_lawful (by decide) (fun _ s => s.Closed) _) rfl).2 1 rfl

/-- A read that is rejected as canceled. -/
def canceledRead : Input := .settle 0 (.rejected (.error { message := "Operation canceled", canceled := true }))

/-- The stream is open, nothing runs, and Node waits for data; the present port is not being read, and was not told to start. -/
def Forgotten (s : SerialPortStream) (d : Demand) : Prop :=
  s.todo = [] ∧ s.isOpen ∧ s.destroyed = false ∧ d.asked ∧ s._readPort ≠ s.port ∧ d.started = false

/-- The run ends as stated; listeners do not throw, and a read is rejected as canceled only after its port said that it was
closed. -/
def EndsIn (inputs : List Input) (P : SerialPortStream → Demand → Prop) : Prop :=
  ∃ s d outputs, stream.Along (fun pre _ s input => s.Lawful (fun port => .isOpen port false ∈ pre) input)
      (.new (fun _ => {}) false 16 none) inputs ∧
    (stream.monitor Demand.next).run (.new (fun _ => {}) false 16 none, {}) inputs = some ((s, d), outputs) ∧ P s d

theorem endsIn_of_mild {inputs : List Input} {P : SerialPortStream → Demand → Prop} (hmild : inputs.all Input.mild)
    (hends : ∃ s d outputs, (stream.monitor Demand.next).run (.new (fun _ => {}) false 16 none, {}) inputs =
      some ((s, d), outputs) ∧ P s d) : EndsIn inputs P := by
  obtain ⟨s, d, outputs, hrun, hP⟩ := hends
  exact ⟨s, d, outputs, along_lawful hmild (fun pre _ port => .isOpen port false ∈ pre) _, hrun, hP⟩

theorem endsIn_canceled {pre : List Input} {P : SerialPortStream → Demand → Prop} {s : SerialPortStream}
    {outputs : List Output} (hmild : pre.all Input.mild)
    (hpre : stream.run (.new (fun _ => {}) false 16 none) pre = some (s, outputs))
    (hlawful : s.Lawful (fun port => .isOpen port false ∈ pre) canceledRead)
    (hends : ∃ s d outputs, (stream.monitor Demand.next).run (.new (fun _ => {}) false 16 none, {})
      (pre ++ [canceledRead]) = some ((s, d), outputs) ∧ P s d) : EndsIn (pre ++ [canceledRead]) P := by
  obtain ⟨s', d, outputs', hrun, hP⟩ := hends
  have halong := along_lawful hmild (fun pre _ port => .isOpen port false ∈ pre) (.new (fun _ => {}) false 16 none)
  refine ⟨s', d, outputs', halong.snoc fun s₁ outputs₁ hrun₁ => ?_, hrun, hP⟩
  obtain ⟨rfl, -⟩ := Prod.mk.inj (Option.some.inj (hpre.symm.trans hrun₁))
  exact hlawful

/-- Port 0 is read, and refuses to close; it says for a moment that it is closed. -/
def refused : List Input :=
  [.enter (.open none), .proceed, .returns, .settle 0 (.port 0 true), .proceed, .returns, .proceed, .proceed,
    .enter (._read 16), .proceed, .returns, .enter (.close none), .proceed, .isOpen 0 false, .isOpen 0 true, .returns]

/-- Port 0 says for a moment that it is closed; Node asks for data meanwhile. -/
def flickering : List Input :=
  [.enter (.open none), .proceed, .returns, .settle 0 (.port 0 true), .proceed, .returns, .proceed, .proceed,
    .isOpen 0 false, .enter (._read 16), .isOpen 0 true]

/-- Where the same port is opened again, two reads of it are in flight, and the first, canceled, clears what is noted of the
second.  Where a port says for a moment that it is closed, Node asks in vain; and where it does so while it refuses to close, a
read that it cancels later is not begun again. -/
theorem demand_forgotten :
    EndsIn (reopened 0) (fun s d => s.todo = [] ∧ s.isOpen ∧ d.asked ∧ s.port = some 0 ∧ s.reading 0 = 2) ∧
    EndsIn (reopened 0 ++ [canceledRead]) Forgotten ∧ EndsIn flickering Forgotten ∧
    EndsIn (refused ++ [.settle 1 (.rejected .other), .proceed, .returns, .proceed] ++ [canceledRead]) Forgotten := by
  refine ⟨?_, ?_, ?_, ?_⟩
  · exact endsIn_of_mild (by decide) ⟨_, _, _, rfl, rfl, rfl, rfl, rfl, by decide⟩
  · exact endsIn_canceled (by decide) rfl (fun _ => by decide) ⟨_, _, _, rfl, rfl, rfl, rfl, rfl, by decide, rfl⟩
  · exact endsIn_of_mild (by decide) ⟨_, _, _, rfl, rfl, rfl, rfl, rfl, by decide, rfl⟩
  · exact endsIn_canceled (by decide) rfl (fun _ => by decide) ⟨_, _, _, rfl, rfl, rfl, rfl, rfl, by decide, rfl⟩

end NodeSerialport.Stream
