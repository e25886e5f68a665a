import NodeSerialport.Binding.Requests
import NodeSerialport.Binding.Writing
/-!
# Methods and their promises

Every `async` method returns a promise, which is settled where the method ends: by the task that is the rest of it, or by
the call of the native handle it is in.

* `Client.methods` — the methods that are not over;
* `Hands` — where they are after a step, with those that are over then;
* `Methodical` — the invariant of a run: a method is in one place, and is over once;
* `step_returned` — how a method ends;
* `step_extends` — tasks wait, and promises stay settled.
-/

namespace NodeSerialport.Binding

open Parsers (Buffer)

/-! ### Where a method is -/

/-- The method a task is the rest of. -/
def Task.method? : Task → Option ℕ
  | .method m | .readChunk m | .write m | .drain m | .close m => some m
  | .batches .. => none

def Site.method? : Site → Option ℕ
  | .write method => some method
  | .request _ task => task.method?
  | .credit .. => none

/-- The methods that return a promise. -/
def Method.async : Method → Bool
  | .startReading _ | .cancelOpen => false
  | _ => true

/-- The method that starts with an input. -/
def Client.starts (c : Client) : Input → List ℕ
  | .invoke method => if method.async then [c.promises] else []
  | _ => []

/-- **The methods that are not over.** -/
def Client.methods (c : Client) : List ℕ := c.tasks.filterMap (·.2.method?) ++ (c.calling.bind (·.2.method?)).toList

def Output.returned? : Output → Option ℕ
  | .returned method _ => some method
  | _ => none

/-- The methods that ended. -/
def returns (outputs : List Output) : List ℕ := outputs.filterMap Output.returned?

@[simp] theorem returns_nil : returns [] = [] := rfl

@[simp] theorem returns_append (out out' : List Output) : returns (out ++ out') = returns out ++ returns out' :=
  List.filterMap_append

theorem mem_returns {method : ℕ} {result : Settlement (Option NativeEvent)} {out : List Output}
    (h : .returned method result ∈ out) : method ∈ returns out :=
  List.mem_filterMap.2 ⟨_, h, rfl⟩

/-- **The methods are handed on**: each is still somewhere, or it ended. -/
def Hands (methods : List ℕ) (r : Client × List Output) : Prop := (r.1.methods ++ returns r.2).Perm methods

namespace Client

variable {c c' : Client}

theorem methods_congr (htasks : c'.tasks = c.tasks) (hcalling : c'.calling = c.calling) : c'.methods = c.methods := by
  unfold methods
  rw [htasks, hcalling]

theorem methods_idle (h : c.calling = none) : c.methods = c.tasks.filterMap (·.2.method?) := by
  unfold methods
  rw [h]
  exact List.append_nil _

theorem await_methods (h : c.calling = none) (awaited : Awaited) (task : Task) :
    (c.await awaited task).methods = c.methods ++ task.method?.toList := by
  have hcalling : (c.await awaited task).calling = none := h
  rw [methods_idle h, methods_idle hcalling]
  show (c.tasks ++ [(awaited, task)]).filterMap _ = _
  rw [List.filterMap_append]
  cases task <;> rfl

end Client

namespace Hands

variable {c c' : Client} {out : List Output}

theorem same (htasks : c'.tasks = c.tasks) (hcalling : c'.calling = c.calling) (hout : returns out = []) :
    Hands c.methods (c', out) := by
  unfold Hands
  rw [Client.methods_congr htasks hcalling, hout, List.append_nil]

theorem await (h : c.calling = none) (awaited : Awaited) (task : Task) (hout : returns out = []) :
    Hands (c.methods ++ task.method?.toList) (c.await awaited task, out) := by
  unfold Hands
  rw [Client.await_methods h, hout, List.append_nil]

theorem returned (htasks : c'.tasks = c.tasks) (hcalling : c'.calling = c.calling) (method : ℕ)
    (result : Settlement (Option NativeEvent)) : Hands (c.methods ++ [method]) (c', [.returned method result]) := by
  unfold Hands
  rw [Client.methods_congr htasks hcalling]
  rfl

end Hands

namespace Client

variable {c c₁ c' : Client}

/-! ### Calls of the native handle -/

theorem answered_hands (h : c.calling = none) (call : NativeCall) (site : Site) (answer : Answer) :
    Hands (c.methods ++ site.method?.toList) (c.answered call site answer) := by
  cases site with
  | request ordered task =>
    obtain ⟨c₁, awaited, -, htasks, hcalling, heq, -⟩ := request_answered c call ordered task answer
    have hmethods : c₁.methods = c.methods := methods_congr htasks hcalling
    have hout : returns (c.answered call (.request ordered task) answer).2 = [] := by
      cases answer <;> rfl
    rw [← hmethods]
    have hhands := Hands.await (hcalling.trans h) awaited task hout
    rw [← heq] at hhands
    exact hhands
  | write method =>
    cases answer with
    | thrown error => exact .returned rfl rfl method (.error error)
    | completed => exact Hands.await (c := { c with port := c.port.release true }) h .RESOLVED (.write method) rfl
    | queued =>
      let c₁ : Client := (c.enqueued call.id true).2
      exact Hands.await (c := { c₁ with port := { c₁.port with writePromise := some (.promise c.promises) } }) h
        (.promise c.promises) (.write method) rfl
  | credit bytes slots =>
    show Hands (c.methods ++ []) _
    rw [List.append_nil]
    cases answer <;> exact Hands.same rfl rfl rfl

theorem native_hands (h : c.calling = none) (call : NativeCall) (site : Site) :
    Hands (c.methods ++ site.method?.toList) (c.native call site) := by
  unfold native
  split
  · rw [methods_idle h]
    show List.Perm (c.tasks.filterMap (·.2.method?) ++ site.method?.toList ++ []) _
    rw [List.append_nil]
  · exact answered_hands h call site _

theorem request_hands (h : c.calling = none) (op : Operation) (task : Task) :
    Hands (c.methods ++ task.method?.toList) (c.request op task) := by
  unfold request
  split
  · exact .await h _ task rfl
  · rename_i call port _
    exact native_hands (c := { c with port := port }) h call (.request op.ordered task)

theorem nextBatch_hands (h : c.calling = none) (rest : List Batch) (promise : ℕ) :
    Hands c.methods (c.nextBatch rest promise) := by
  cases rest with
  | nil => exact Hands.same rfl rfl rfl
  | cons batch rest =>
    have hhands := request_hands h batch.operation (.batches rest promise)
    rwa [show (Task.batches rest promise).method?.toList = [] from rfl, List.append_nil] at hhands

/-! ### Calls of the methods -/

theorem writev_hands (h : c.calling = none) (method : ℕ) (buffers : List JsBuffer) :
    Hands (c.methods ++ [method]) (c.writev method buffers) := by
  unfold writev
  split
  · exact .returned rfl rfl method _
  · split
    · exact .returned rfl rfl method _
    · let c₁ : Client := { c with
        promises := c.promises + 1
        port := { c.port with writing := true, writePromise := some (.promise c.promises) } }
      have hhands := nextBatch_hands (c := c₁.await (.promise c.promises) (.write method)) h (batches buffers) c.promises
      rwa [await_methods (c := c₁) h] at hhands

theorem write_hands (h : c.calling = none) (method : ℕ) (buffer : JsBuffer) :
    Hands (c.methods ++ [method]) (c.write method buffer) := by
  unfold write
  split
  · exact writev_hands h method [buffer]
  · split
    · exact .returned rfl rfl method _
    · split
      · exact .returned rfl rfl method _
      · dsimp only
        split
        · exact Hands.await (c := { c with port := { c.port with writePromise := some .RESOLVED, writing := true } }) h
            .RESOLVED (.write method) rfl
        · split
          · exact .returned rfl rfl method _
          · let reserved := ({ c.port with writePromise := some .RESOLVED, writing := true } : BindingPort).reserve (.write buffer)
            exact native_hands (c := { c with port := reserved.2 }) h reserved.1 (.write method)

theorem readChunk_hands (h : c.calling = none) (method : ℕ) (length : ℤ) :
    Hands (c.methods ++ [method]) (c.readChunk method length) := by
  unfold readChunk
  split
  · exact .returned rfl rfl method _
  · split
    · exact .returned rfl rfl method _
    · exact request_hands (c := { c with port := { c.port with reading := true } }) h _ (.readChunk method)

theorem startReading_hands (h : c.calling = none) (length : ℤ) : Hands c.methods (c.startReading length) := by
  unfold startReading
  split
  · exact Hands.same rfl rfl rfl
  · split
    · exact Hands.same rfl rfl rfl
    · dsimp only
      split
      · exact Hands.same rfl rfl rfl
      · rename_i bytes slots _
        have hhands := native_hands (c := { c with port := { c.port with streaming := true } }) h
          (.readCredit bytes slots) (.credit bytes slots)
        rwa [show (Site.credit bytes slots).method?.toList = [] from rfl, List.append_nil] at hhands

theorem close_hands (h : c.calling = none) (method : ℕ) : Hands (c.methods ++ [method]) (c.close method) := by
  unfold close
  split
  · exact .returned rfl rfl method _
  · dsimp only
    split
    · exact Hands.await (c := { c with port := { c.port with closing := true, isOpen := false } }) h (.promise 0)
        (.close method) rfl
    · exact .returned rfl rfl method _

theorem invoke_hands (h : c.calling = none) (m : Method) :
    Hands (c.methods ++ c.starts (.invoke m)) (c.invoke m) := by
  have hpromise : c.promise.2.calling = none := h
  cases m with
  | write buffer => exact write_hands hpromise c.promises buffer
  | writev buffers => exact writev_hands hpromise c.promises buffers
  | control operation value => exact request_hands hpromise (.control operation value) (.method c.promises)
  | drain => exact .await hpromise (c.port.writePromise.getD .RESOLVED) (.drain c.promises) rfl
  | readChunk length => exact readChunk_hands hpromise c.promises length
  | startReading length =>
    have hhands := startReading_hands hpromise length
    rwa [← List.append_nil c.promise.2.methods] at hhands
  | close => exact close_hands hpromise c.promises
  | cancelOpen =>
    have hhands : Hands c.methods c.promise.2.cancelOpen := by
      unfold cancelOpen
      exact Hands.same rfl rfl (by split <;> rfl)
    rwa [← List.append_nil c.methods] at hhands

/-! ### The rest of a method, and callbacks -/

theorem proceed_hands (h : c.calling = none) (task : Task) (result : Settlement (Option NativeEvent)) :
    Hands (c.methods ++ task.method?.toList) (c.proceed task result) := by
  cases task with
  | method method => exact .returned rfl rfl method result
  | readChunk method => exact .returned rfl rfl method result
  | write method => exact .returned rfl rfl method result
  | close method => exact .returned rfl rfl method _
  | drain method =>
    cases result with
    | error error => exact .returned rfl rfl method _
    | ok event => exact request_hands h _ (.method method)
  | batches rest promise =>
    show Hands (c.methods ++ []) _
    rw [List.append_nil]
    cases result with
    | error error => exact Hands.same rfl rfl rfl
    | ok event => exact nextBatch_hands h rest promise

theorem finishClose_returns (c : Client) (error : Option SerialError) : returns (c._finishClose error).2 = [] := by
  unfold _finishClose
  split
  · rfl
  · rw [returns_append, returns_append]
    have hopened : returns (if c.port.opened = none then [.opened (.error (c.port.closeReason error))] else []) = [] := by
      split <;> rfl
    have hsettled : ∀ promises : List ℕ,
        returns (promises.map (Output.settled · .close (.error (c.port.closeReason error)))) = [] := by
      intro promises
      unfold returns
      rw [List.filterMap_map]
      simp [Function.comp_def, Output.returned?]
    rw [hopened, hsettled]
    rfl

theorem callback_returns (c : Client) (callback : Callback) : returns (c.callback callback).2 = [] := by
  cases callback with
  | failed error lost =>
    unfold Client.callback
    dsimp only
    split <;> rfl
  | read item => rfl
  | event event =>
    show returns (c._event event).2 = []
    unfold _event
    split
    · split
      · rfl
      · dsimp only
        split <;> rfl
    · exact finishClose_returns c _
    · unfold _settle
      split <;> rfl

theorem Passes.returns (h : c.Passes c' out) : returns out = [] := by
  cases h <;> rfl

theorem callback_hands (c : Client) (callback : Callback) : Hands c.methods (c.callback callback) := by
  refine Hands.same ?_ ?_ (callback_returns c callback) <;>
  · cases callback with
    | failed error lost => rfl
    | read item =>
      obtain ⟨pendingRead, queuedReads, heq⟩ := queueRead_queues c item
      dsimp only
      rw [heq]
    | event event =>
      unfold _event
      dsimp only
      split
      · split <;> rfl
      · unfold _finishClose
        split <;> rfl
      · unfold _settle
        split <;> rfl

theorem Passes.hands (h : c.Passes c' out) : Hands c.methods (c', out) := by
  cases h <;> exact Hands.same rfl rfl rfl

/-! ### Steps -/

theorem erase_methods (h : c.calling = none) {index : ℕ} {awaited : Awaited} {task : Task}
    (htask : c.tasks[index]? = some (awaited, task)) :
    (({ c with tasks := c.tasks.eraseIdx index } : Client).methods ++ task.method?.toList).Perm c.methods := by
  obtain ⟨before, after, htasks, herase⟩ := eraseIdx_split htask
  have hcalling : ({ c with tasks := c.tasks.eraseIdx index } : Client).calling = none := h
  rw [methods_idle h, methods_idle hcalling]
  show ((c.tasks.eraseIdx index).filterMap (·.2.method?) ++ task.method?.toList).Perm _
  have hmiddle : (c.tasks.filterMap (·.2.method?)) =
      before.filterMap (·.2.method?) ++ (task.method?.toList ++ after.filterMap (·.2.method?)) := by
    rw [htasks, List.filterMap_append]
    cases task <;> rfl
  rw [herase, hmiddle, List.filterMap_append, List.append_assoc]
  exact List.perm_append_comm.append_left _

/-- **One step hands every method on**, or ends it. -/
theorem step_hands {i : Input} {out : List Output} (hstep : c.step i = some (c', out)) :
    Hands (c.methods ++ c.starts i) (c', out) := by
  have hstays : ∀ {r : Client × List Output}, Hands c.methods r → Hands (c.methods ++ []) r := fun hhands => by
    rwa [List.append_nil]
  cases step_runs hstep with
  | invoke m hcalling => exact invoke_hands hcalling m
  | @answer call site answer hcalling =>
    have hhands := answered_hands (c := { c with calling := none }) rfl call site answer
    have hmethods : c.methods = ({ c with calling := none } : Client).methods ++ site.method?.toList := by
      unfold methods
      rw [hcalling, List.append_assoc]
      rfl
    rw [← hmethods] at hhands
    simpa [starts] using hhands
  | callback callback hidle => exact hstays (callback_hands c callback)
  | microtask => exact hstays (deliverRead_passes { c with microtasks := c.microtasks - 1 }).hands
  | @resume index awaited task result hidle htask =>
    have hcalling := idle_calling hidle
    have hhands := proceed_hands (c := { c with tasks := c.tasks.eraseIdx index }) hcalling task result
    simpa [starts, Hands] using hhands.trans (erase_methods hcalling htask)
  | returns => exact hstays (deliverBatch_passes c _).hands
  | throws =>
    apply hstays
    split <;> exact Hands.same rfl rfl rfl

theorem invoke_promises (hcalling : c.calling = none) (m : Method) : c.promises < (c.invoke m).1.promises := by
  cases m with
  | write buffer => exact (write_submits (c := c.promise.2) hcalling c.promises buffer).frame.promises
  | writev buffers => exact (writev_submits (c := c.promise.2) hcalling c.promises buffers).frame.promises
  | control operation value =>
    have hsub : Submits .nothing c.promise.2 (c.promise.2.request (.control operation value) (.method c.promises)) :=
      request_submits (c := c.promise.2) hcalling (.control operation value) (.method c.promises) fun h => nomatch h
    exact hsub.frame.promises
  | drain => exact Nat.lt_succ_self _
  | readChunk length => exact (readChunk_submits (c := c.promise.2) hcalling c.promises length).frame.promises
  | startReading length => exact (startReading_submits (c := c.promise.2) hcalling length).frame.promises
  | close => exact (close_submits (c := c.promise.2) hcalling c.promises).frame.promises
  | cancelOpen => exact (cancelOpen_submits (c := c.promise.2) hcalling).frame.promises

theorem promises_mono {i : Input} {out : List Output} (hstep : client.step c i = some (c', out)) :
    c.promises ≤ c'.promises := by
  cases step_requestStep hstep with
  | method hi hcalling hsub => exact hsub.frame.promises
  | dropped hcalling hsite ha hmay hc hout => exact hc ▸ (answered_dropped _ hsite ha).2.1.promises
  | queued hcalling hsite ha => exact (Nat.le_succ _).trans ha.promises
  | credited hcalling hnone hsame hout => exact hsame.promises.ge
  | event hidle h hsame hout => exact hsame.promises.ge
  | other hcalling hsame hout hi ha => exact hsame.promises.ge

theorem starts_lt {i : Input} {out : List Output} (hstep : client.step c i = some (c', out)) {method : ℕ}
    (hmem : method ∈ c.starts i) : method = c.promises ∧ method < c'.promises := by
  cases step_runs hstep with
  | invoke m hcalling =>
    have heq : method = c.promises := by
      unfold starts at hmem
      dsimp only at hmem
      split at hmem
      · exact List.mem_singleton.1 hmem
      · exact absurd hmem List.not_mem_nil
    exact ⟨heq, heq ▸ invoke_promises hcalling m⟩
  | _ => cases hmem

end Client

/-- **A method that is not over is in one place.** -/
structure Methodical (c : Client) : Prop where
  nodup : c.methods.Nodup
  made : ∀ method ∈ c.methods, method < c.promises

namespace Methodical

variable {c c' : Client}

theorem start (path : String) (nextId : ℕ) : Methodical (Client.new path nextId) :=
  ⟨List.nodup_nil, fun _ h => absurd h List.not_mem_nil⟩

theorem fresh (h : Methodical c) : c.promises ∉ c.methods := fun hmem => lt_irrefl _ (h.made _ hmem)

theorem append (h : Methodical c) (i : Input) {out : List Output} (hstep : client.step c i = some (c', out)) :
    (c.methods ++ c.starts i).Nodup := by
  rw [List.nodup_append]
  refine ⟨h.nodup, ?_, ?_⟩
  · unfold Client.starts
    split
    · split <;> simp
    · exact List.nodup_nil
  · rintro method hmethod started hstarted rfl
    have := h.made method hmethod
    have := (Client.starts_lt hstep hstarted).1
    omega

/-- **Every step keeps the methods apart**, and those that end were not over before. -/
theorem step (h : Methodical c) {i : Input} {out : List Output} (hstep : client.step c i = some (c', out)) :
    Methodical c' := by
  have hhands := Client.step_hands (i := i) hstep
  refine ⟨(List.nodup_append.1 (hhands.nodup_iff.2 (h.append i hstep))).1, fun method hmem => ?_⟩
  rcases List.mem_append.1 (hhands.subset (List.mem_append_left _ hmem)) with hmem | hmem
  · exact (h.made method hmem).trans_le (Client.promises_mono hstep)
  · exact (Client.starts_lt hstep hmem).2

theorem ended (h : Methodical c) {i : Input} {out : List Output} (hstep : client.step c i = some (c', out)) {method : ℕ}
    (hmem : method ∈ returns out) : method ∉ c'.methods := by
  have hnodup := (Client.step_hands (i := i) hstep).nodup_iff.2 (h.append i hstep)
  exact fun hin => (List.nodup_append.1 hnodup).2.2 method hin method hmem rfl

end Methodical

/-! ### How a method ends -/

/-- **The way a method ends**: it was refused, its task goes on, or the native handle threw. -/
inductive Ending (c : Client) (method : ℕ) (result : Settlement (Option NativeEvent)) : Input → Prop
  | refused {m : Method} {error : SerialError} (hm : method = c.promises) (hresult : result = .error error) :
      Ending c method result (.invoke m)
  | resumed {index : ℕ} {awaited : Awaited} {task : Task} (htask : c.tasks[index]? = some (awaited, task))
      (hmethod : task.method? = some method) (hsettled : c.result awaited = some result)
      (hclose : ∀ m, task ≠ .close m) (hdrain : ∀ m, task = .drain m → ∃ error, result = .error error) :
      Ending c method result (.resume index)
  | closed {index : ℕ} {awaited : Awaited} (htask : c.tasks[index]? = some (awaited, .close method)) :
      Ending c method result (.resume index)
  | thrown {call : NativeCall} {error : SerialError} (hcalling : c.calling = some (call, .write method))
      (hresult : result = .error error) : Ending c method result (.answer (.thrown error))

namespace Client

variable {c c' : Client} {method : ℕ} {result : Settlement (Option NativeEvent)}

theorem native_returned {call : NativeCall} {site : Site} (h : .returned method result ∈ (c.native call site).2) :
    site = .write method ∧ ∃ error, result = .error error := by
  unfold native at h
  split at h
  · simp at h
  · cases site with
    | write m =>
      obtain ⟨rfl, rfl⟩ : method = m ∧ result = _ := by simpa [answered] using h
      exact ⟨rfl, _, rfl⟩
    | _ => simp [answered] at h

theorem request_returned {op : Operation} {task : Task} : .returned method result ∉ (c.request op task).2 := by
  intro h
  unfold request at h
  split at h
  · simp at h
  · cases (native_returned h).1

theorem nextBatch_returned {rest : List Batch} {promise : ℕ} : .returned method result ∉ (c.nextBatch rest promise).2 := by
  cases rest with
  | nil => simp [nextBatch]
  | cons batch rest => exact request_returned

theorem writev_returned {m : ℕ} {buffers : List JsBuffer} (h : .returned method result ∈ (c.writev m buffers).2) :
    method = m ∧ ∃ error, result = .error error := by
  unfold writev at h
  split at h
  · obtain ⟨rfl, rfl⟩ : method = m ∧ result = _ := by simpa using h
    exact ⟨rfl, _, rfl⟩
  · split at h
    · obtain ⟨rfl, rfl⟩ : method = m ∧ result = _ := by simpa using h
      exact ⟨rfl, _, rfl⟩
    · exact absurd h nextBatch_returned

theorem write_returned {m : ℕ} {buffer : JsBuffer} (h : .returned method result ∈ (c.write m buffer).2) :
    method = m ∧ ∃ error, result = .error error := by
  unfold write at h
  split at h
  · exact writev_returned h
  · split at h
    · obtain ⟨rfl, rfl⟩ : method = m ∧ result = _ := by simpa using h
      exact ⟨rfl, _, rfl⟩
    · split at h
      · obtain ⟨rfl, rfl⟩ : method = m ∧ result = _ := by simpa using h
        exact ⟨rfl, _, rfl⟩
      · dsimp only at h
        split at h
        · simp at h
        · split at h
          · obtain ⟨rfl, rfl⟩ : method = m ∧ result = _ := by simpa using h
            exact ⟨rfl, _, rfl⟩
          · obtain ⟨hsite, herror⟩ := native_returned h
            cases hsite
            exact ⟨rfl, herror⟩

theorem invoke_returned {m : Method} (h : .returned method result ∈ (c.invoke m).2) :
    method = c.promises ∧ ∃ error, result = .error error := by
  cases m with
  | write buffer => exact write_returned (c := c.promise.2) h
  | writev buffers => exact writev_returned (c := c.promise.2) h
  | control operation value => exact absurd h (request_returned (c := c.promise.2))
  | drain => simp [invoke] at h
  | readChunk length =>
    change _ ∈ (c.promise.2.readChunk c.promises length).2 at h
    unfold readChunk at h
    split at h
    · obtain ⟨rfl, rfl⟩ : method = c.promises ∧ result = _ := by simpa using h
      exact ⟨rfl, _, rfl⟩
    · split at h
      · obtain ⟨rfl, rfl⟩ : method = c.promises ∧ result = _ := by simpa using h
        exact ⟨rfl, _, rfl⟩
      · exact absurd h request_returned
  | startReading length =>
    change _ ∈ (c.promise.2.startReading length).2 at h
    unfold startReading at h
    split at h
    · simp at h
    · split at h
      · simp at h
      · dsimp only at h
        split at h
        · simp at h
        · cases (native_returned h).1
  | close =>
    change _ ∈ (c.promise.2.close c.promises).2 at h
    unfold close at h
    split at h
    · obtain ⟨rfl, rfl⟩ : method = c.promises ∧ result = _ := by simpa using h
      exact ⟨rfl, _, rfl⟩
    · dsimp only at h
      split at h
      · simp at h
      · obtain ⟨rfl, rfl⟩ : method = c.promises ∧ result = _ := by simpa using h
        exact ⟨rfl, _, rfl⟩
  | cancelOpen =>
    change _ ∈ c.promise.2.cancelOpen.2 at h
    unfold cancelOpen at h
    split at h <;> simp at h

theorem not_returned {out : List Output} (h : returns out = []) : .returned method result ∉ out := by
  intro hmem
  have hin := mem_returns hmem
  rw [h] at hin
  cases hin

theorem proceed_returned {task : Task} {settled : Settlement (Option NativeEvent)}
    (h : .returned method result ∈ (c.proceed task settled).2) :
    task = .close method ∨ task.method? = some method ∧ result = settled ∧ (∀ m, task ≠ .close m) ∧
      ∀ m, task = .drain m → ∃ error, settled = .error error := by
  cases task with
  | close m =>
    obtain ⟨rfl, rfl⟩ : method = m ∧ result = _ := by simpa [proceed] using h
    exact .inl rfl
  | drain m =>
    cases settled with
    | error error =>
      obtain ⟨rfl, rfl⟩ : method = m ∧ result = _ := by simpa [proceed] using h
      exact .inr ⟨rfl, rfl, nofun, fun _ _ => ⟨error, rfl⟩⟩
    | ok event => exact absurd h request_returned
  | batches rest promise =>
    cases settled with
    | error error => simp [proceed] at h
    | ok event => exact absurd h nextBatch_returned
  | _ =>
    obtain ⟨rfl, rfl⟩ : method = _ ∧ result = settled := by simpa [proceed] using h
    exact .inr ⟨rfl, rfl, nofun, nofun⟩

/-- **A method that returns ends in one of these ways.** -/
theorem step_returned {i : Input} {out : List Output} (hstep : c.step i = some (c', out))
    (h : .returned method result ∈ out) : Ending c method result i := by
  cases step_runs hstep with
  | invoke m hcalling =>
    rcases List.mem_cons.1 h with h | h
    · cases h
    · obtain ⟨hm, error, hresult⟩ := invoke_returned h
      exact .refused hm hresult
  | @answer call site answer hcalling =>
    cases site with
    | write m =>
      cases answer with
      | thrown error =>
        obtain ⟨rfl, rfl⟩ : method = m ∧ result = _ := by simpa [answered] using h
        exact .thrown hcalling rfl
      | _ => simp [answered] at h
    | _ => cases answer <;> simp [answered] at h
  | callback callback hidle => exact absurd h (not_returned (callback_returns c callback))
  | microtask => exact absurd h (not_returned (deliverRead_passes _).returns)
  | resume hidle htask hsettled =>
    rcases proceed_returned h with rfl | ⟨hmethod, rfl, hclose, hdrain⟩
    · exact .closed htask
    · exact .resumed htask hmethod hsettled hclose hdrain
  | returns => exact absurd h (not_returned (deliverBatch_passes c _).returns)
  | throws => cases h

end Client

/-! ### A method is in one place -/

namespace Methodical

variable {c : Client} {method : ℕ}

theorem task_unique (h : Methodical c) {index : ℕ} {entry other : Awaited × Task} (hother : other ∈ c.tasks)
    (hentry : c.tasks[index]? = some entry) (hm : other.2.method? = some method) (hm' : entry.2.method? = some method) :
    entry = other := by
  have hnodup : (c.tasks.filterMap (·.2.method?)).Nodup := (List.nodup_append.1 h.nodup).1
  obtain ⟨before, after, htasks, -⟩ := Client.eraseIdx_split hentry
  have hafter : (entry :: after).filterMap (·.2.method?) = method :: after.filterMap (·.2.method?) := by
    rw [List.filterMap_cons, hm']
  rw [htasks, List.filterMap_append, hafter, List.nodup_append] at hnodup
  obtain ⟨-, hafter, hbefore⟩ := hnodup
  rw [htasks] at hother
  rcases List.mem_append.1 hother with hmem | hmem
  · exact absurd rfl (hbefore method (List.mem_filterMap.2 ⟨other, hmem, hm⟩) method List.mem_cons_self)
  · rcases List.mem_cons.1 hmem with rfl | hmem
    · rfl
    · exact absurd (List.mem_filterMap.2 ⟨other, hmem, hm⟩) (List.nodup_cons.1 hafter).1

theorem task_calling (h : Methodical c) {entry : Awaited × Task} (hentry : entry ∈ c.tasks) (hm : entry.2.method? = some method)
    {call : NativeCall} {site : Site} (hcalling : c.calling = some (call, site)) : site.method? ≠ some method := by
  intro hsite
  have hnodup := h.nodup
  unfold Client.methods at hnodup
  refine (List.nodup_append.1 hnodup).2.2 method (List.mem_filterMap.2 ⟨entry, hentry, hm⟩) method ?_ rfl
  rw [hcalling]
  simpa using hsite

theorem task_mem {entry : Awaited × Task} (hentry : entry ∈ c.tasks) (hm : entry.2.method? = some method) :
    method ∈ c.methods :=
  List.mem_append_left _ (List.mem_filterMap.2 ⟨entry, hentry, hm⟩)

end Methodical

/-! ### What is left -/

/-- **Tasks wait, and promises stay settled**: both lists only grow. -/
structure Extends (c c' : Client) : Prop where
  tasks : c.tasks <+: c'.tasks
  results : c.results <+: c'.results

namespace Extends

variable {c c₁ c' : Client}

theorem refl (c : Client) : Extends c c := ⟨List.prefix_rfl, List.prefix_rfl⟩

theorem trans (h : Extends c c₁) (h' : Extends c₁ c') : Extends c c' :=
  ⟨h.tasks.trans h'.tasks, h.results.trans h'.results⟩

theorem of_eq (htasks : c'.tasks = c.tasks) (hresults : c'.results = c.results) : Extends c c' :=
  ⟨htasks ▸ List.prefix_rfl, hresults ▸ List.prefix_rfl⟩

theorem await (c : Client) (awaited : Awaited) (task : Task) : Extends c (c.await awaited task) :=
  ⟨List.prefix_append _ _, List.prefix_rfl⟩

theorem settle (c : Client) (promise : ℕ) (result : Settlement (Option NativeEvent)) :
    Extends c (c.settle promise result) :=
  ⟨List.prefix_rfl, List.prefix_append _ _⟩

end Extends

namespace Client

variable {c c₁ c' : Client}

theorem answered_extends (c : Client) (call : NativeCall) (site : Site) (answer : Answer) :
    Extends c (c.answered call site answer).1 := by
  cases site with
  | credit bytes slots => cases answer <;> exact .of_eq rfl rfl
  | request ordered task => cases answer <;> exact ⟨List.prefix_append _ _, List.prefix_rfl⟩
  | write method =>
    cases answer with
    | thrown error => exact .of_eq rfl rfl
    | completed => exact ⟨List.prefix_append _ _, List.prefix_rfl⟩
    | queued => exact ⟨List.prefix_append _ _, List.prefix_rfl⟩

theorem native_extends (h : Extends c c₁) (call : NativeCall) (site : Site) : Extends c (c₁.native call site).1 := by
  refine h.trans ?_
  unfold native
  split
  · exact .of_eq rfl rfl
  · exact answered_extends c₁ call site _

theorem request_extends (h : Extends c c₁) (op : Operation) (task : Task) : Extends c (c₁.request op task).1 := by
  refine h.trans ?_
  unfold request
  split
  · exact .await c₁ _ task
  · refine native_extends ?_ _ _
    exact .of_eq rfl rfl

theorem nextBatch_extends (h : Extends c c₁) (rest : List Batch) (promise : ℕ) :
    Extends c (c₁.nextBatch rest promise).1 := by
  cases rest with
  | nil => exact h.trans (.settle c₁ promise (.ok none))
  | cons batch rest => exact request_extends h batch.operation (.batches rest promise)

theorem writev_extends (c : Client) (method : ℕ) (buffers : List JsBuffer) : Extends c (c.writev method buffers).1 := by
  unfold writev
  split
  · exact .refl c
  · split
    · exact .refl c
    · refine nextBatch_extends ?_ _ _
      exact ⟨List.prefix_append _ _, List.prefix_rfl⟩

theorem write_extends (c : Client) (method : ℕ) (buffer : JsBuffer) : Extends c (c.write method buffer).1 := by
  unfold write
  split
  · exact writev_extends c method [buffer]
  · split
    · exact .refl c
    · split
      · exact .refl c
      · dsimp only
        split
        · exact ⟨List.prefix_append _ _, List.prefix_rfl⟩
        · split
          · exact .of_eq rfl rfl
          · refine native_extends ?_ _ _
            exact .of_eq rfl rfl

theorem invoke_extends (c : Client) (m : Method) : Extends c (c.invoke m).1 := by
  have hpromise : Extends c c.promise.2 := .of_eq rfl rfl
  refine hpromise.trans ?_
  cases m with
  | write buffer => exact write_extends _ _ _
  | writev buffers => exact writev_extends _ _ _
  | control operation value => exact request_extends (.refl _) _ _
  | drain => exact .await c.promise.2 _ _
  | readChunk length =>
    show Extends _ (c.promise.2.readChunk c.promises length).1
    unfold readChunk
    split
    · exact .refl _
    · split
      · exact .refl _
      · refine request_extends ?_ _ _
        exact .of_eq rfl rfl
  | startReading length =>
    show Extends _ (c.promise.2.startReading length).1
    unfold startReading
    split
    · exact .refl _
    · split
      · exact .refl _
      · dsimp only
        split
        · exact .of_eq rfl rfl
        · refine native_extends ?_ _ _
          exact .of_eq rfl rfl
  | close =>
    show Extends _ (c.promise.2.close c.promises).1
    unfold close
    split
    · exact .refl _
    · dsimp only
      split
      · exact ⟨List.prefix_append _ _, List.prefix_rfl⟩
      · exact .of_eq rfl rfl
  | cancelOpen => exact .of_eq rfl rfl

theorem proceed_extends (c : Client) (task : Task) (result : Settlement (Option NativeEvent)) :
    Extends c (c.proceed task result).1 := by
  cases task with
  | batches rest promise =>
    cases result with
    | error error => exact .settle c _ _
    | ok event => exact nextBatch_extends (.refl c) rest promise
  | drain method =>
    cases result with
    | error error => exact .refl c
    | ok event => exact request_extends (.refl c) _ _
  | _ => exact .of_eq rfl rfl

theorem callback_extends (c : Client) (callback : Callback) : Extends c (c.callback callback).1 := by
  cases callback with
  | failed error lost => exact .of_eq rfl rfl
  | read item =>
    show Extends c (c.queueRead item)
    obtain ⟨pendingRead, queuedReads, heq⟩ := queueRead_queues c item
    rw [heq]
    exact .of_eq rfl rfl
  | event event =>
    show Extends c (c._event event).1
    unfold _event
    split
    · split <;> exact .of_eq rfl rfl
    · unfold _finishClose
      split
      · exact .refl c
      · refine ⟨List.prefix_rfl, ?_⟩
        show c.results <+: c.results ++ _ ++ _
        rw [List.append_assoc]
        exact List.prefix_append _ _
    · unfold _settle
      split
      · exact .refl c
      · exact ⟨List.prefix_rfl, List.prefix_append _ _⟩

theorem Passes.extended (h : c.Passes c' out) : Extends c c' := by
  cases h <;> exact .of_eq rfl rfl

/-- What is left once the input takes its task. -/
def leaves (c : Client) : Input → Client
  | .resume index => { c with tasks := c.tasks.eraseIdx index }
  | _ => c

/-- **One step** takes the task that goes on, and nothing else. -/
theorem step_extends {i : Input} {out : List Output} (hstep : c.step i = some (c', out)) : Extends (c.leaves i) c' := by
  cases step_runs hstep with
  | invoke m => exact invoke_extends c m
  | answer answer =>
    have hleft : Extends c { c with calling := none } := .of_eq rfl rfl
    exact hleft.trans (answered_extends { c with calling := none } _ _ _)
  | callback callback => exact callback_extends c callback
  | microtask =>
    have hleft : Extends c { c with microtasks := c.microtasks - 1 } := .of_eq rfl rfl
    exact hleft.trans (deliverRead_passes { c with microtasks := c.microtasks - 1 }).extended
  | resume => exact proceed_extends (c.leaves (.resume _)) _ _
  | returns => exact (deliverBatch_passes c _).extended
  | throws => split <;> exact .of_eq rfl rfl

/-- **What is settled stays settled.** -/
theorem step_result {i : Input} {out : List Output} (hstep : c.step i = some (c', out)) {awaited : Awaited}
    {result : Settlement (Option NativeEvent)} (h : c.result awaited = some result) : c'.result awaited = some result := by
  cases awaited with
  | settled => exact h
  | promise index =>
    obtain ⟨settled, heq⟩ := (step_extends hstep).results
    have hresults : (c.leaves i).results = c.results := by cases i <;> rfl
    have hlookup : c.results.lookup index = some result := h
    show c'.results.lookup index = some result
    rw [← heq, List.lookup_append, hresults, hlookup]
    rfl

/-- **A task waits** until it goes on. -/
theorem step_task {i : Input} {out : List Output} (hstep : c.step i = some (c', out)) {entry : Awaited × Task}
    (h : entry ∈ c.tasks) : entry ∈ c'.tasks ∨ ∃ index, i = .resume index ∧ c.tasks[index]? = some entry := by
  have hsub := (step_extends hstep).tasks.subset
  cases i with
  | resume index =>
    by_cases hindex : c.tasks[index]? = some entry
    · exact .inr ⟨index, rfl, hindex⟩
    · refine .inl (hsub ?_)
      obtain ⟨j, hj, heq⟩ := List.mem_iff_getElem.1 h
      refine List.mem_eraseIdx_iff_getElem?.2 ⟨j, ?_, ?_⟩
      · rintro rfl
        exact hindex (List.getElem?_eq_some_iff.2 ⟨hj, heq⟩)
      · exact List.getElem?_eq_some_iff.2 ⟨hj, heq⟩
  | _ => exact .inl (hsub h)

end Client

end NodeSerialport.Binding
