import NodeSerialport.Stream.Lifecycle
/-!
# Connections come to an end once

The callbacks of a stream are called as often as they were given, and every port is closed once.  What an old port does
after that has no effect on a later connection.

* `SerialPortStream.Late`, `SerialPortStream.late_ignored` — an event of a port that is not the present one;
* `Lives` — the invariant of a run: what was called and what is owed are what was asked for;
* `completes_once` — every callback is called, and every port is closed, once.
-/

namespace NodeSerialport.Stream

open Parsers (Buffer)
open Binding (SerialError ControlOperation)
open Lib (Machine)
open SerialPortStream

variable {s s' s₁ : SerialPortStream} {k : ℕ} {out : List Output}

/-! ### Late events -/

/-- The port a promise belongs to. -/
def Promise.port? : Promise → Option ℕ
  | .closing port _ | .canceling port _ | .writing port _ | .reading port _ | .operating port _ _ _ => some port
  | .opening _ | .reporting _ => none

def Kind.port? : Kind → Option ℕ
  | .startReading port _ | .canceling port _ => some port
  | .listener | .binding | .opening => none

namespace SerialPortStream

/-- An event of a port: a hook is called, a promise settles, or a call throws. -/
def Late (s : SerialPortStream) (port : ℕ) : Input → Prop
  | .enter (.onClose p _ _) | .enter (.onData p _) => p = port
  | .settle index _ => ∃ promise, s.promises[index]? = some promise ∧ promise.port? = some port
  | .throws _ => ∃ kind rest, s.todo = .outside kind :: rest ∧ kind.port? = some port
  | _ => False

/-- An event was ignored, but for callbacks, and reads of another port. -/
structure Ignored (s s' : SerialPortStream) : Prop where
  port : s'.port = s.port
  opening : s'.opening = s.opening
  closing : s'.closing = s.closing
  baudRate : s'.baudRate = s.baudRate
  pushes : ∀ data kind, .call (.push data) kind ∈ s'.todo → .call (.push data) kind ∈ s.todo

theorem Ignored.refl (s : SerialPortStream) : Ignored s s := ⟨rfl, rfl, rfl, rfl, fun _ _ => id⟩

theorem Ignored.trans (h : Ignored s s₁) (h' : Ignored s₁ s') : Ignored s s' :=
  ⟨h'.port.trans h.port, h'.opening.trans h.opening, h'.closing.trans h.closing, h'.baudRate.trans h.baudRate,
    fun data kind hmem => h.pushes data kind (h'.pushes data kind hmem)⟩

theorem Ignored.first (s : SerialPortStream) {tasks : List Task} (h : ∀ data kind, .call (.push data) kind ∉ tasks) :
    Ignored s (s.first tasks) :=
  ⟨rfl, rfl, rfl, rfl, fun data kind hmem => (List.mem_append.1 hmem).resolve_left (h data kind)⟩

theorem Ignored.one (s : SerialPortStream) {task : Task} (h : ∀ data kind, task ≠ .call (.push data) kind) :
    Ignored s (s.first [task]) :=
  .first s fun data kind hmem => h data kind (List.mem_singleton.1 hmem).symm

theorem callbacks_ignored (s : SerialPortStream) (cbs : List Callback) (error : Option SerialError) :
    Ignored s (s.first (cbs.map (callback error))) := by
  refine .first s fun data kind hmem => ?_
  obtain ⟨cb, -, heq⟩ := List.mem_map.1 hmem
  cases cb <;> cases heq

theorem _report_ignored (s : SerialPortStream) (error : SerialError) (cb : Option Callback) :
    Ignored s (s._report error cb) := by
  cases cb with
  | none => exact .one s nofun
  | some cb => exact callbacks_ignored s [cb] (some error)

theorem _read_ignored (s : SerialPortStream) (length : ℕ) : Ignored s (s._read length) := by
  obtain ⟨-, heq⟩ | ⟨port, -, -, -, heq⟩ | ⟨port, output, -, -, -, -, heq, hasks⟩ := _read_cases s length
  · rw [heq]
    exact ⟨rfl, rfl, rfl, rfl, fun _ _ => id⟩
  · rw [heq]
    refine ⟨rfl, rfl, rfl, rfl, fun data kind hmem => ?_⟩
    rcases List.mem_cons.1 hmem with heq | hmem
    · cases heq
    · exact hmem
  · rw [heq]
    refine ⟨rfl, rfl, rfl, rfl, fun data kind hmem => ?_⟩
    rcases List.mem_cons.1 hmem with heq | hmem
    · cases heq
      cases hasks
    · exact hmem

theorem readSettled_ignored (s : SerialPortStream) (port : ℕ) : Ignored s (s.readSettled port) := by
  unfold readSettled
  split
  · exact ⟨rfl, rfl, rfl, rfl, fun _ _ => id⟩
  · exact .refl s

section

variable {port : ℕ}

theorem onClose_ignored (h : s.port ≠ some port) (error : Option Thrown) : Ignored s (s.onClose port error) := by
  rw [onClose, if_pos h]
  exact .refl s

theorem closed_ignored (h : s.port ≠ some port) (error : Option SerialError) : Ignored s (s.closed port error) := by
  rw [closed, if_neg h]
  exact .refl s

theorem _closeFailed_ignored (h : s.port ≠ some port) (error : Thrown) : Ignored s (s._closeFailed port error) := by
  rw [_closeFailed, if_pos h]
  exact .refl s

theorem canceled_ignored (h : s.port ≠ some port) (cb : Option Callback) (error : Option Thrown) :
    Ignored s (s.canceled port cb error) := by
  have hfirst := callbacks_ignored s cb.toList (some openingCanceled)
  unfold canceled
  cases error with
  | none =>
    simp only
    rw [if_neg (hfirst.port.symm ▸ h)]
    exact hfirst
  | some error => exact hfirst.trans (_closeFailed_ignored (hfirst.port.symm ▸ h) error)

theorem _writeError_ignored (h : s.port ≠ some port) (write : ℕ) (error : Thrown) :
    Ignored s (s._writeError port write error) := by
  have hfirst : Ignored s (s.first [.call (.written write (some (asError error))) .listener]) :=
    .one s nofun
  unfold _writeError
  simp only
  split
  · rename_i hcloses
    simp only [Bool.and_eq_true, decide_eq_true_eq] at hcloses
    exact absurd hcloses.1.2 h
  · exact hfirst

theorem received_ignored (h : s.port ≠ some port) (length : ℕ) (data : Buffer) :
    Ignored s (s.received port length data) := by
  have hsettled := readSettled_ignored s port
  unfold received
  simp only
  split
  · rename_i hpushes
    exact absurd hpushes.1 (hsettled.port.symm ▸ h)
  split
  · exact hsettled.trans (_read_ignored _ length)
  · exact hsettled

theorem _readError_ignored (h : s.port ≠ some port) (error : Thrown) (length : ℕ) :
    Ignored s (s._readError port error length) := by
  have hsettled := readSettled_ignored s port
  unfold _readError
  simp only
  split
  · rename_i hcloses
    simp only [Bool.and_eq_true, decide_eq_true_eq] at hcloses
    exact absurd hcloses.1.2 (hsettled.port.symm ▸ h)
  split
  · exact hsettled.trans (_read_ignored _ length)
  · exact hsettled

theorem operated_ignored (h : s.port ≠ some port) (operation : ControlOperation) (baudRate : Option ℕ)
    (cb : Option Callback) : Ignored s (s.operated port operation baudRate cb) := by
  unfold operated
  rw [if_neg fun hsame => h hsame.1]
  exact callbacks_ignored s cb.toList none

end

theorem settled_ignored {port : ℕ} (h : s.port ≠ some port) {promise : Promise} {result : Result}
    (hport : promise.port? = some port) (hstep : s.settled promise result = some s') : Ignored s s' := by
  have hcatch : Ignored s (s.first [.catchOpen]) := .one s nofun
  have hother : (s.first [.catchOpen]).port ≠ some port := h
  cases settled_settles hstep with
  | opened | rejected | reported => cases hport
  | closed =>
    cases hport
    exact closed_ignored h _
  | closeFailed =>
    cases hport
    exact _closeFailed_ignored h _
  | canceled | cancelFailed =>
    cases hport
    exact hcatch.trans (canceled_ignored hother _ _)
  | written => exact .one s nofun
  | writeFailed =>
    cases hport
    exact _writeError_ignored h _ _
  | data | bytesRead =>
    cases hport
    exact received_ignored h _ _
  | invalid | readFailed =>
    cases hport
    exact _readError_ignored h _ _
  | operated =>
    cases hport
    exact operated_ignored h _ _ _
  | operationFailed => exact _report_ignored s _ _

/-- **A late event of a port that is not the present one is ignored.** -/
theorem late_ignored {port : ℕ} (h : s.port ≠ some port) {input : Input} (hlate : s.Late port input)
    (hstep : s.step input = some (s', out)) : out = [] ∧ Ignored s s' := by
  cases step_runs hstep with
  | @enter entry _ _ hwaits hentry =>
    cases entry with
    | onClose p error closed =>
      obtain rfl : p = port := hlate
      cases hentry
      refine ⟨rfl, ?_⟩
      cases closed with
      | false => exact onClose_ignored h error
      | true =>
        have hset : Ignored s (s.setOpen p false) := ⟨rfl, rfl, rfl, rfl, fun _ _ => id⟩
        have hother : (s.setOpen p false).port ≠ some p := h
        exact hset.trans (onClose_ignored hother error)
    | onData p data =>
      obtain rfl : p = port := hlate
      cases hentry
      refine ⟨rfl, ?_⟩
      rw [onData, if_neg fun hsame => h hsame.1]
      exact .refl s
    | _ => cases hlate
  | @throws kind rest reason htodo =>
    obtain ⟨kind', rest', htodo', hport⟩ := hlate
    obtain ⟨hkind, rfl⟩ := List.cons.inj (htodo'.symm.trans htodo)
    cases hkind
    have hpopped : Ignored s { s with todo := rest' } :=
      ⟨rfl, rfl, rfl, rfl, fun data kind hmem => htodo ▸ List.mem_cons_of_mem _ hmem⟩
    have hother : ({ s with todo := rest' } : SerialPortStream).port ≠ some port := h
    refine ⟨rfl, hpopped.trans ?_⟩
    cases kind with
    | startReading p length =>
      cases hport
      exact _readError_ignored hother reason length
    | canceling p cb =>
      cases hport
      exact canceled_ignored hother cb (some reason)
    | _ => cases hport
  | @settle index promise result _ htodo hpromise hsettled =>
    obtain ⟨promise', hpromise', hport⟩ := hlate
    cases Option.some.inj (hpromise'.symm.trans hpromise)
    have herased : Ignored s { s with promises := s.promises.eraseIdx index } := ⟨rfl, rfl, rfl, rfl, fun _ _ => id⟩
    exact ⟨rfl, herased.trans (settled_ignored h hport hsettled)⟩
  | _ => cases hlate

end SerialPortStream

/-! ### Runs -/

/-- What holds after a run in which the ports are distinct. -/
structure Lives (k : ℕ) (inputs : List Input) (outputs : List Output) (s : SerialPortStream) : Prop where
  sound : Sound false s
  openings : s.openings = if s.opening then 1 else 0
  /-- A callback was called, or is owed, as often as it was given. -/
  load : called k outputs + s.load k = issued k inputs
  /-- A 'close' event was emitted, or is to come, at most as often as the port was handed over. -/
  closes : ∀ port, emitted port outputs + s.closes port ≤ (inputs.flatMap Input.ports).count port
  known : ∀ port, s.port = some port ∨ 0 < s.awaits port → port ∈ inputs.flatMap Input.ports
  sane : Sane (inputs.flatMap Input.shut) s

theorem lives_new (k : ℕ) (features : ℕ → Features) (endOnClose : Bool) (highWaterMark : ℕ) (baudRate : Option ℕ) :
    Lives k [] [] (.new features endOnClose highWaterMark baudRate) where
  sound := new_sound false features endOnClose highWaterMark baudRate
  openings := rfl
  load := rfl
  closes := fun _ => le_rfl
  known := by
    rintro port (hport | hawaits)
    · cases hport
    · exact absurd hawaits (Nat.lt_irrefl 0)
  sane := .none rfl rfl rfl

/-- A port that was closed opens only while its close is outstanding, so that no other is being opened. -/
theorem Sane.revives {shut : List ℕ} (h : Sane shut s) {input : Input} (hhonest : s.Honest input)
    (hrevives : s.Revives input) : s.opening = false := by
  cases input with
  | isOpen port value =>
    have honce := h.once port hrevives.2.1
    have hawaits := hhonest hrevives.2.1
    split at honce
    · rename_i hcloses
      simp only [Bool.and_eq_true, Bool.not_eq_true'] at hcloses
      exact hcloses.2
    · omega
  | _ => cases hrevives

theorem lives_step {inputs : List Input} {outputs : List Output} (h : Lives k inputs outputs s) {input : Input}
    (hnodup : ((inputs ++ [input]).flatMap Input.ports).Nodup) (hhonest : s.Honest input)
    (hstep : s.step input = some (s', out)) : Lives k (inputs ++ [input]) (outputs ++ out) s' := by
  have hadvances := step_advances (k := k) h.sound h.openings hhonest hstep
  refine ⟨(step_apart h.sound (h.sane.revives hhonest) hstep).sound, hadvances.openings h.openings, ?_, fun port => ?_,
    fun port hknown => ?_, ?_⟩
  · rw [called_append, issued_append, ← h.load, Nat.add_assoc, hadvances.load, Nat.add_assoc]
  · rw [emitted_append, List.flatMap_append, List.flatMap_singleton, List.count_append]
    have hclosed := h.closes port
    have hadds := hadvances.closes port
    omega
  · rw [List.flatMap_append, List.flatMap_singleton, List.mem_append]
    exact (hadvances.known port hknown).imp_left (h.known port)
  · rw [List.flatMap_append, List.flatMap_singleton] at hnodup ⊢
    obtain ⟨-, -, hfresh⟩ := List.nodup_append.1 hnodup
    refine hadvances.sane _ (fun port hport => ?_) h.sane
    have hnew : port ∉ inputs.flatMap Input.ports := fun hmem => hfresh port hmem port hport rfl
    refine ⟨fun hpresent => hnew (h.known port (.inl hpresent)), ?_⟩
    by_contra hawaits
    exact hnew (h.known port (.inr (Nat.pos_of_ne_zero hawaits)))

theorem Lives.idle {inputs : List Input} {outputs : List Output} (h : Lives k inputs outputs s) (htodo : s.todo = [])
    (hlight : ∀ promise ∈ s.promises, promise.Light) :
    s.closing = false := by
  by_contra hclosing
  rw [Bool.not_eq_false] at hclosing
  rcases h.sane.awaited hclosing with hopening | hfailing | ⟨port, -, hawaits⟩
  · have hnone : s.openings = 0 := List.countP_eq_zero.2 fun promise hmem => by simp [(hlight promise hmem).opens]
    rw [h.openings, if_pos hopening] at hnone
    cases hnone
  · rw [failing, htodo] at hfailing
    cases hfailing
  · have hnone : s.promises.countP (Promise.closes port) = 0 :=
      List.countP_eq_zero.2 fun promise hmem => by simp [(hlight promise hmem).closes port]
    rw [SerialPortStream.awaits, htodo, hnone] at hawaits
    exact Nat.lt_irrefl 0 hawaits

/-- Nothing is owed where nothing runs, and no promise and no tick is outstanding that has to do with the callback. -/
theorem Lives.paid {inputs : List Input} {outputs : List Output} (h : Lives k inputs outputs s) (htodo : s.todo = [])
    (hticks : s.ticks = [])
    (hsettled : ∀ promise ∈ s.promises, promise.Light ∧ promise.weight k = 0) : called k outputs = issued k inputs := by
  have hclosing := h.idle htodo fun promise hmem => (hsettled promise hmem).1
  have hcallbacks : s._closeCallbacks = [] := by
    by_contra hne
    rw [h.sane.callbacks hne] at hclosing
    cases hclosing
  have hpromises : (s.promises.map (Promise.weight k)).sum = 0 :=
    List.sum_eq_zero_iff_forall_eq_nat.2 fun n hmem => by
      obtain ⟨promise, hpromise, rfl⟩ := List.mem_map.1 hmem
      exact (hsettled promise hpromise).2
  rw [← h.load, SerialPortStream.load, htodo, hticks, hcallbacks, hpromises]
  rfl

/-- **Every connection is completed once.**  In every run in which listeners do not throw, the ports are distinct, and a
port changes its `isOpen` in `close()` or where it calls `onClose`:

* where nothing runs, and no promise is outstanding of an open, a close, or an operation with the callback, a callback was
  called as often as it was given;
* a port has at most one 'close' event;
* `opening` holds exactly while a promise of `open()` is outstanding;
* the present port is replaced by another one only if it had closed when it was handed over;
* once its 'close' event was emitted, no event of a port has an effect. -/
theorem completes_once (features : ℕ → Features) (endOnClose : Bool) (highWaterMark : ℕ) (baudRate : Option ℕ)
    {inputs : List Input} {s : SerialPortStream} {outputs : List Output}
    (hhonest : stream.Along (fun _ _ s input => s.Honest input) (.new features endOnClose highWaterMark baudRate) inputs)
    (hports : (inputs.flatMap Input.ports).Nodup)
    (hrun : stream.run (.new features endOnClose highWaterMark baudRate) inputs = some (s, outputs)) :
    (∀ k, s.todo = [] → s.ticks = [] → (∀ promise ∈ s.promises, promise.Light ∧ promise.weight k = 0) →
      called k outputs = issued k inputs) ∧
    (∀ port, emitted port outputs ≤ 1) ∧
    (s.openings = if s.opening then 1 else 0) ∧
    (∀ port, s.port = some port → ∀ input s' out, s.Honest input → s.step input = some (s', out) →
      s'.port = some port ∨ s'.port = none ∨ port ∈ inputs.flatMap Input.shut) ∧
    ∀ port, 0 < emitted port outputs → ∀ input s' out, s.Late port input → s.step input = some (s', out) →
      out = [] ∧ s.Ignored s' := by
  have hlives (k : ℕ) : Lives k inputs outputs s := by
    refine Machine.run_rule (fun inputs outputs s => (inputs.flatMap Input.ports).Nodup → Lives k inputs outputs s)
      (fun _ => lives_new k features endOnClose highWaterMark baudRate) ?_ hhonest hrun hports
    intro inputs outputs s input s' out h hhonest hstep hnodup
    refine lives_step (h ?_) hnodup hhonest hstep
    rw [List.flatMap_append] at hnodup
    exact (List.nodup_append.1 hnodup).1
  have hclosed (port : ℕ) : emitted port outputs + s.closes port ≤ 1 :=
    ((hlives 0).closes port).trans (List.nodup_iff_count_le_one.1 hports port)
  refine ⟨fun k => (hlives k).paid, fun port => (Nat.le_add_right _ _).trans (hclosed port), (hlives 0).openings,
    fun port hport input s' out hhonest hstep => ?_, fun port hemitted input s' out hlate hstep => ?_⟩
  · have hadvances := step_advances (k := 0) (hlives 0).sound (hlives 0).openings hhonest hstep
    rcases hadvances.port with hnone | hsame | hopening
    · exact .inr (.inl hnone)
    · exact .inl (hsame.trans hport)
    · exact .inr (.inr ((hlives 0).sane.replaced hopening port hport))
  · have hgone : s.port ≠ some port := by
      intro hport
      have hone := hclosed port
      rw [SerialPortStream.closes, if_pos hport] at hone
      omega
    exact late_ignored hgone hlate hstep

/-- An input that is no exception, and changes no `isOpen` by itself. -/
def Input.sincere : Input → Bool
  | .throws _ | .isOpen _ _ => false
  | _ => true

theorem along_honest {inputs : List Input} (h : inputs.all Input.sincere) (s : SerialPortStream) :
    stream.Along (fun _ _ s input => s.Honest input) s inputs := by
  rintro pre input post rfl s' outputs -
  have hsincere : input.sincere := List.all_eq_true.1 h input (List.mem_append_right _ List.mem_cons_self)
  cases input with
  | throws reason => cases hsincere
  | isOpen port value => cases hsincere
  | _ => trivial

/-- A port is opened with the callback 1, and closed with the callback 2; it calls its hook in `close()`. -/
def completed : List Input :=
  [.enter (.open (some 1)), .proceed, .returns, .settle 0 (.port 0 true), .proceed, .returns, .proceed, .returns, .proceed,
    .proceed, .enter (.close (some 2)), .proceed, .enter (.onClose 0 none true), .proceed, .returns, .proceed, .returns,
    .returns, .settle 0 .done]

/-- Both callbacks are called, and the hook of the port that was closed has no effect. -/
theorem completes_once_completed : ∃ s outputs s',
    stream.run (.new (fun _ => {}) false 16 none) completed = some (s, outputs) ∧
    issued 1 completed = 1 ∧ called 1 outputs = issued 1 completed ∧
    issued 2 completed = 1 ∧ called 2 outputs = issued 2 completed ∧
    s.step (.enter (.onClose 0 none false)) = some (s', []) ∧ s.Ignored s' := by
  have hports : (completed.flatMap Input.ports).Nodup := by decide
  obtain ⟨hpaid, -, -, -, hlate⟩ := completes_once (fun _ => {}) false 16 none (along_honest (by decide) _) hports rfl
  refine ⟨_, _, _, rfl, by decide, hpaid 1 rfl rfl fun promise hmem => ?_, by decide,
    hpaid 2 rfl rfl fun promise hmem => ?_, rfl,
    (hlate 0 (by decide) (.enter (.onClose 0 none false)) _ [] rfl rfl).2⟩
  · cases hmem
  · cases hmem

/-- Port 0 is handed over, and has closed; then a port is opened again. -/
def replacing : List Input :=
  [.enter (.open none), .proceed, .returns, .settle 0 (.port 0 false), .proceed, .returns, .proceed, .proceed,
    .enter (.open none), .proceed, .returns]

/-- A port is replaced by another one, and has no 'close' event. -/
theorem replaced_unfinished : ∃ s outputs s',
    stream.Along (fun _ _ s input => s.Honest input) (.new (fun _ => {}) false 16 none) replacing ∧
    ((replacing ++ [Input.settle 0 (.port 1 true)]).flatMap Input.ports).Nodup ∧
    stream.run (.new (fun _ => {}) false 16 none) replacing = some (s, outputs) ∧ s.port = some 0 ∧
    s.step (.settle 0 (.port 1 true)) = some (s', []) ∧ s'.port = some 1 ∧
    emitted 0 outputs = 0 ∧ emitted 0 (due s'.todo) = 0 :=
  ⟨_, _, _, along_honest (by decide) _, by decide, rfl, rfl, rfl, rfl, by decide, by decide⟩

end NodeSerialport.Stream
