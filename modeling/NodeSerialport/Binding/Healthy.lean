import NodeSerialport.Binding.Lifecycle
import NodeSerialport.Binding.Vectored
/-!
# A healthy port

While the native layer reports no failure and nobody closes the port, no promise is rejected and a write fails in one
way only: a part of it finds 64 operations pending.

* `Input.fails` — the native layer reports a failure;
* `Client.asks` — a part of a write is to be admitted;
* `Client.Untroubled` — what a method does that neither throws nor rejects a promise of a write;
* `Client.Healthy`, `Healthy.step` — the invariant;
* `Healthy.returned` — a write that is over ended well.
-/

namespace NodeSerialport.Binding

open Parsers (Buffer)

/-! ### What may happen -/

/-- **The native layer reports a failure**: it throws, its callback gets an error, or an operation or the port ends with
one.  A port that closes by itself has failed. -/
def Input.fails : Input → Bool
  | .answer (.thrown _) | .callback (.failed _ _) => true
  | .callback (.event event) => event.kind = .closed || event.kind = .error
  | _ => false

/-- What a stream calls to read from the port, to write to it and to control it. -/
def Method.serves : Method → Bool
  | .write _ | .writev _ | .control _ _ | .drain | .startReading _ => true
  | .readChunk _ | .close | .cancelOpen => false

/-- **A part of a write is to be admitted**: a write that is not empty, or the next batch of one. -/
def Client.asks (c : Client) : Input → Bool
  | .invoke (.write buffer) => 0 < buffer.length
  | .invoke (.writev buffers) => batches buffers ≠ []
  | .resume index =>
    match c.tasks[index]? with
    | some (_, .batches rest _) => rest ≠ []
    | _ => false
  | _ => false

/-- Not a promise that is rejected already. -/
def Awaited.fine : Awaited → Bool
  | .settled (.error _) => false
  | _ => true

/-- An exception of `startReading`, or the call of `onClose`. -/
def Output.troubles : Output → Bool
  | .threw _ | .onClose _ => true
  | _ => false

namespace Client

variable {c c₁ c' : Client} {w : Writer}

/-! ### What a method does -/

/-- **What a method does that meets with no trouble.**  It may still wait for a refused operation, unless that is part of
a write. -/
structure Untroubled (c : Client) (r : Client × List Output) : Prop where
  reading : c.port.reading = false → r.1.port.reading = false
  opened : r.1.port.opened = c.port.opened
  results : ∀ result ∈ r.1.results, result ∈ c.results ∨ ∃ event, result.2 = .ok event
  tasks : ∀ entry ∈ r.1.tasks, entry ∈ c.tasks ∨ (entry.2.writes → entry.1.fine)
  quiet : ∀ output ∈ r.2, output.troubles = false

namespace Untroubled

theorem of_eq {out : List Output} (hreading : c.port.reading = false → c'.port.reading = false)
    (hopened : c'.port.opened = c.port.opened) (hresults : c'.results = c.results) (htasks : c'.tasks = c.tasks)
    (hquiet : ∀ output ∈ out, output.troubles = false) : Untroubled c (c', out) :=
  ⟨hreading, hopened, fun _ hmem => .inl (hresults ▸ hmem), fun _ hmem => .inl (htasks ▸ hmem), hquiet⟩

theorem of_start {r : Client × List Output} (h : Untroubled c₁ r)
    (hreading : c.port.reading = false → c₁.port.reading = false) (hopened : c₁.port.opened = c.port.opened) (hresults : c₁.results = c.results)
    (htasks : ∀ entry ∈ c₁.tasks, entry ∈ c.tasks ∨ (entry.2.writes → entry.1.fine)) : Untroubled c r where
  reading := h.reading ∘ hreading
  opened := h.opened.trans hopened
  results := hresults ▸ h.results
  tasks := fun entry hmem => (h.tasks entry hmem).elim (htasks entry) .inr
  quiet := h.quiet

theorem await {out : List Output} {awaited : Awaited} {task : Task}
    (hreading : c.port.reading = false → c'.port.reading = false) (hopened : c'.port.opened = c.port.opened) (hresults : c'.results = c.results) (htasks : c'.tasks = c.tasks)
    (hfine : task.writes → awaited.fine) (hquiet : ∀ output ∈ out, output.troubles = false) :
    Untroubled c (c'.await awaited task, out) := by
  refine ⟨hreading, hopened, fun _ hmem => .inl (hresults ▸ hmem), fun entry hmem => ?_, hquiet⟩
  rcases List.mem_append.1 hmem with hold | hnew
  · exact .inl (htasks ▸ hold)
  · rw [List.mem_singleton.1 hnew]
    exact .inr hfine

end Untroubled

theorem quiet_nil : ∀ output ∈ ([] : List Output), output.troubles = false := fun _ hmem => nomatch hmem

theorem quiet_singleton {output : Output} (h : output.troubles = false) : ∀ o ∈ [output], o.troubles = false := by
  intro o hmem
  rw [List.mem_singleton.1 hmem]
  exact h

theorem release_flags (p : BindingPort) (ordered : Bool) :
    (p.release ordered).reading = p.reading ∧ (p.release ordered).opened = p.opened := by
  unfold BindingPort.release
  split <;> exact ⟨rfl, rfl⟩

theorem reserve_flags (p : BindingPort) (op : Operation) :
    (p.reserve op).2.reading = p.reading ∧ (p.reserve op).2.opened = p.opened ∧ (p.reserve op).2.native = p.native := by
  unfold BindingPort.reserve BindingPort.count
  dsimp only
  split <;> exact ⟨rfl, rfl, rfl⟩

theorem answered_untroubled (c : Client) (call : NativeCall) (site : Site) {answer : Answer}
    (hanswer : ∀ error, answer ≠ .thrown error) : Untroubled c (c.answered call site answer) := by
  have hrelease := release_flags c.port true
  have hfirst : c.port.reading = false → (c.port.release true).reading = false := fun h => hrelease.1.trans h
  cases answer with
  | thrown error => exact absurd rfl (hanswer error)
  | completed =>
    cases site with
    | request ordered task => exact .await hfirst hrelease.2 rfl rfl (fun _ => rfl) quiet_nil
    | write method => exact .await hfirst hrelease.2 rfl rfl (fun _ => rfl) quiet_nil
    | credit bytes slots => exact .of_eq id rfl rfl rfl (quiet_singleton rfl)
  | queued =>
    cases site with
    | request ordered task => exact .await id rfl rfl rfl (fun _ => rfl) (quiet_singleton rfl)
    | write method => exact .await id rfl rfl rfl (fun _ => rfl) (quiet_singleton rfl)
    | credit bytes slots => exact .of_eq id rfl rfl rfl (quiet_singleton rfl)

theorem native_called (h : c.port.native = true) (call : NativeCall) (site : Site) :
    c.native call site = ({ c with calling := some (call, site) }, [.called call]) := if_pos h

/-- **A request that is admitted** calls the native handle. -/
theorem request_admitted (hopen : c.port.isOpen = true) (hclosing : c.port.closing = false) (hnative : c.port.native = true)
    (hroom : c.port.pending.length < 64) (op : Operation) (task : Task) :
    ∃ call, c.request op task = ({ c with port := (c.port.reserve op).2, calling := some (call, .request op.ordered task) },
      [.called call]) := by
  have hadmitted : c.port._request op = .ok (c.port.reserve op) := by
    simp only [BindingPort._request, hopen, hclosing, Bool.not_true, Bool.or_self, Bool.false_eq_true, if_false,
      if_neg (Nat.not_le.2 hroom)]
  refine ⟨(c.port.reserve op).1, ?_⟩
  unfold request
  rw [hadmitted]
  exact native_called ((reserve_flags c.port op).2.2.trans hnative) _ _

theorem request_untroubled (hnative : c.port.native = true) (op : Operation) {task : Task} (htask : task.writes = false) :
    Untroubled c (c.request op task) := by
  unfold request BindingPort._request
  split
  · refine .await id rfl rfl rfl (fun hwrites => ?_) quiet_nil
    rw [htask] at hwrites
    cases hwrites
  · rename_i call port hrequest
    split at hrequest
    · cases hrequest
    · split at hrequest
      · cases hrequest
      · obtain ⟨rfl, rfl⟩ := Prod.mk.inj (Except.ok.inj hrequest)
        obtain ⟨hreading, hopened, hsame⟩ := reserve_flags c.port op
        rw [native_called (hsame.trans hnative)]
        exact .of_eq (fun h => hreading.trans h) hopened rfl rfl (quiet_singleton rfl)

/-- A port that admits operations, now. -/
structure Admits (c : Client) : Prop where
  isOpen : c.port.isOpen = true
  closing : c.port.closing = false
  native : c.port.native = true

theorem nextBatch_untroubled (h : c.Admits) {rest : List Batch} (promise : ℕ)
    (hroom : rest ≠ [] → c.port.pending.length < 64) : Untroubled c (c.nextBatch rest promise) := by
  cases rest with
  | nil =>
    refine ⟨id, rfl, fun result hmem => ?_, fun _ hmem => .inl hmem, quiet_nil⟩
    rcases List.mem_append.1 hmem with hold | hnew
    · exact .inl hold
    · rw [List.mem_singleton.1 hnew]
      exact .inr ⟨none, rfl⟩
  | cons batch rest =>
    obtain ⟨call, heq⟩ := request_admitted h.isOpen h.closing h.native (hroom nofun) batch.operation (.batches rest promise)
    obtain ⟨hreading, hopened, -⟩ := reserve_flags c.port batch.operation
    rw [show c.nextBatch (batch :: rest) promise = _ from heq]
    exact .of_eq (fun h => hreading.trans h) hopened rfl rfl (quiet_singleton rfl)

theorem writev_eq (h : c.Admits) (hwriting : c.port.writing = false) (method : ℕ) (buffers : List JsBuffer) :
    c.writev method buffers = (({ c with
      promises := c.promises + 1
      port := { c.port with writing := true, writePromise := some (.promise c.promises) } } : Client).await
        (.promise c.promises) (.write method)).nextBatch (batches buffers) c.promises := by
  unfold writev
  rw [if_neg (by simp [h.isOpen, h.closing]), if_neg (by simp [hwriting])]
  rfl

theorem writev_untroubled (h : c.Admits) (hwriting : c.port.writing = false) (method : ℕ) {buffers : List JsBuffer}
    (hroom : batches buffers ≠ [] → c.port.pending.length < 64) : Untroubled c (c.writev method buffers) := by
  let c₁ : Client := { c with
    promises := c.promises + 1
    port := { c.port with writing := true, writePromise := some (.promise c.promises) } }
  have h₁ : (c₁.await (.promise c.promises) (.write method)).Admits := ⟨h.isOpen, h.closing, h.native⟩
  rw [writev_eq h hwriting]
  refine (nextBatch_untroubled h₁ c.promises hroom).of_start id rfl rfl fun entry hmem => ?_
  rcases List.mem_append.1 hmem with hold | hnew
  · exact .inl hold
  · rw [List.mem_singleton.1 hnew]
    exact .inr fun _ => rfl

theorem write_eq (h : c.Admits) (hwriting : c.port.writing = false) (method : ℕ) {buffer : JsBuffer}
    (hsome : 0 < buffer.length) (hscalar : ¬ chunkSize < buffer.length) (hroom : c.port.pending.length < 64) :
    ∃ call port, c.write method buffer = ({ c with port := port, calling := some (call, .write method) }, [.called call]) ∧
      port.reading = c.port.reading ∧ port.opened = c.port.opened := by
  let port : BindingPort := { c.port with writePromise := some .RESOLVED, writing := true }
  let c₁ : Client := { c with port := (port.reserve (.write buffer)).2 }
  obtain ⟨hreading, hopened, hnative⟩ := reserve_flags port (.write buffer)
  refine ⟨(port.reserve (.write buffer)).1, (port.reserve (.write buffer)).2, ?_, hreading, hopened⟩
  unfold write
  rw [if_neg hscalar, if_neg (by simp [h.isOpen, h.closing]), if_neg (by simp [hwriting])]
  dsimp only
  rw [if_neg hsome.ne', if_neg (Nat.not_le.2 hroom)]
  exact native_called (c := c₁) (hnative.trans h.native) _ _

theorem write_untroubled (h : c.Admits) (hwriting : c.port.writing = false) (method : ℕ) {buffer : JsBuffer}
    (hroom : 0 < buffer.length → c.port.pending.length < 64) : Untroubled c (c.write method buffer) := by
  by_cases hlong : chunkSize < buffer.length
  · rw [write, if_pos hlong]
    exact writev_untroubled h hwriting method fun _ => hroom (Nat.zero_lt_of_lt hlong)
  by_cases hsome : 0 < buffer.length
  · obtain ⟨call, port, heq, hreading, hopened⟩ := write_eq h hwriting method hsome hlong (hroom hsome)
    rw [heq]
    exact .of_eq (fun h => hreading.trans h) hopened rfl rfl (quiet_singleton rfl)
  · rw [write, if_neg hlong, if_neg (by simp [h.isOpen, h.closing]), if_neg (by simp [hwriting])]
    dsimp only
    rw [if_pos (Nat.eq_zero_of_not_pos hsome)]
    exact .await id rfl rfl rfl (fun _ => rfl) quiet_nil

theorem startReading_untroubled (h : c.Admits) (hreading : c.port.reading = false) (length : ℤ) :
    Untroubled c (c.startReading length) := by
  unfold startReading
  rw [if_neg (by simp [h.isOpen, h.closing]), if_neg (by simp [hreading])]
  dsimp only
  split
  · exact .of_eq id rfl rfl rfl quiet_nil
  · rw [native_called (by exact h.native)]
    exact .of_eq id rfl rfl rfl (quiet_singleton rfl)

/-- **A call of a method** by a stream. -/
theorem invoke_untroubled (h : c.Admits) (hreading : c.port.reading = false) {m : Method} (hserves : m.serves = true)
    (hwriting : m.writes = true → c.port.writing = false) (hroom : c.asks (.invoke m) = true → c.port.pending.length < 64) :
    Untroubled c (c.invoke m) := by
  have hstart {r : Client × List Output} (hr : Untroubled c.promise.2 r) : Untroubled c r :=
    hr.of_start id rfl rfl fun _ hmem => .inl hmem
  have h₁ : c.promise.2.Admits := ⟨h.isOpen, h.closing, h.native⟩
  cases m with
  | write buffer =>
    exact hstart (write_untroubled h₁ (hwriting rfl) c.promises fun hsome => hroom (decide_eq_true hsome))
  | writev buffers =>
    exact hstart (writev_untroubled h₁ (hwriting rfl) c.promises fun hsome => hroom (decide_eq_true hsome))
  | control operation value => exact hstart (request_untroubled (c := c.promise.2) h.native _ rfl)
  | drain => exact hstart (.await id rfl rfl rfl nofun quiet_nil)
  | startReading length => exact hstart (startReading_untroubled h₁ hreading length)
  | readChunk length => cases hserves
  | close => cases hserves
  | cancelOpen => cases hserves

/-- **An `await` is over.** -/
theorem proceed_untroubled (hnative : c.port.native = true) {task : Task} {result : Settlement (Option NativeEvent)}
    (hresult : task.writes = true → ∃ event, result = .ok event)
    (hbatches : ∀ rest promise, task = .batches rest promise → c.Admits ∧ (rest ≠ [] → c.port.pending.length < 64)) :
    Untroubled c (c.proceed task result) := by
  cases task with
  | method method => exact .of_eq id rfl rfl rfl (quiet_singleton rfl)
  | readChunk method => exact .of_eq (fun _ => rfl) rfl rfl rfl (quiet_singleton rfl)
  | write method => exact .of_eq id rfl rfl rfl (quiet_singleton rfl)
  | batches rest promise =>
    obtain ⟨event, rfl⟩ := hresult rfl
    obtain ⟨hadmits, hroom⟩ := hbatches rest promise rfl
    exact nextBatch_untroubled hadmits promise hroom
  | drain method =>
    cases result with
    | error error => exact .of_eq id rfl rfl rfl (quiet_singleton rfl)
    | ok event => exact request_untroubled hnative _ rfl
  | close method => exact .of_eq id rfl rfl rfl (quiet_singleton rfl)

/-! ### Reads and events -/

theorem Passes.untroubled (h : c.Passes c' out) : Untroubled c (c', out) := by
  cases h with
  | nothing => exact .of_eq id rfl rfl rfl quiet_nil
  | data => exact .of_eq id rfl rfl rfl (quiet_singleton rfl)

theorem queueRead_untroubled (c : Client) (item : Item) : Untroubled c (c.queueRead item, []) := by
  obtain ⟨pendingRead, queuedReads, heq⟩ := queueRead_queues c item
  rw [heq]
  exact .of_eq id rfl rfl rfl quiet_nil

theorem settle_untroubled (c : Client) (id : ℕ) (result : NativeEvent) : Untroubled c (c._settle id none result) := by
  unfold _settle
  split
  · exact .of_eq (fun h => h) rfl rfl rfl quiet_nil
  · rename_i pending _
    obtain ⟨hreading, hopened⟩ := release_flags { c.port with pending := c.port.pending.eraseP (·.1 == id) } pending.ordered
    refine ⟨fun h => hreading.trans h, hopened, fun other hmem => ?_, fun _ hmem => .inl hmem, quiet_singleton rfl⟩
    rcases List.mem_append.1 hmem with hold | hnew
    · exact .inl hold
    · rw [List.mem_singleton.1 hnew]
      exact .inr ⟨_, rfl⟩

/-! ### The invariant -/

/-- **The port is healthy**: it has its handle, nobody closes it, and no promise was rejected.  A write goes on only while
the port is open. -/
structure Healthy (c : Client) : Prop where
  native : c.port.native = true
  closing : c.port.closing = false
  closers : c.closers = false
  reading : c.port.reading = false
  opened : c.port.opened = none ∨ c.port.opened = some (.ok ()) ∧ c.port.isOpen = true
  writing : c.port.writing = true → c.port.isOpen = true
  results : ∀ result ∈ c.results, ∃ event, result.2 = .ok event
  tasks : ∀ entry ∈ c.tasks, entry.2.writes → entry.1.fine

/-- What happens is no failure: a method is called that serves the open port, and a part of a write finds room. -/
structure Eased (c : Client) (i : Input) : Prop where
  fails : i.fails = false
  invoke : ∀ m, i = .invoke m → m.serves = true ∧ c.port.isOpen = true ∧ (m.writes = true → c.port.writing = false)
  room : c.asks i = true → c.port.pending.length < 64

namespace Healthy

variable {i : Input} {out : List Output}

theorem start (path : String) (nextId : ℕ) : (Client.new path nextId).Healthy :=
  ⟨rfl, rfl, rfl, rfl, .inl rfl, nofun, (fun _ h => nomatch h), fun _ h => nomatch h⟩

theorem admits (h : c.Healthy) (hopen : c.port.isOpen = true) : c.Admits := ⟨hopen, h.closing, h.native⟩

theorem result_ok (h : c.Healthy) {awaited : Awaited} (hfine : awaited.fine) {result : Settlement (Option NativeEvent)}
    (hresult : c.result awaited = some result) : ∃ event, result = .ok event := by
  cases awaited with
  | settled settled =>
    cases hresult
    cases result with
    | ok event => exact ⟨event, rfl⟩
    | error error => cases hfine
  | promise index =>
    obtain ⟨before, after, heq, -⟩ := List.lookup_eq_some_iff.1 (show c.results.lookup index = some result from hresult)
    exact h.results (index, result) (heq ▸ List.mem_append_right _ List.mem_cons_self)

theorem isOpen_of_loop (h : c.Healthy) (hat : c.At w) {entry : Awaited × Task} (hmem : entry ∈ c.tasks)
    (hwrites : entry.2.writes = true) : c.port.isOpen = true := by
  apply h.writing
  have hwriters : entry ∈ w.tasks := by
    rw [← hat.tasks]
    exact List.mem_filter.2 ⟨hmem, hwrites⟩
  rw [hat.busy]
  cases w with
  | idle | submitting => cases hwriters
  | waiting | batching => rfl

/-- **A step without trouble**, or the open event. -/
theorem step_untroubled (h : c.Healthy) (hat : c.At w) (he : c.Eased i) (hstep : c.step i = some (c', out)) :
    Untroubled c (c', out) ∨ ∃ event, i = .callback (.event event) ∧ event.kind = .opened ∧ (c', out) = c._event event := by
  cases step_runs hstep with
  | invoke m =>
    left
    obtain ⟨hserves, hopen, hwriting⟩ := he.invoke m rfl
    have hinvoke := invoke_untroubled (h.admits hopen) h.reading hserves hwriting he.room
    refine ⟨hinvoke.reading, hinvoke.opened, hinvoke.results, hinvoke.tasks, fun output hmem => ?_⟩
    rcases List.mem_cons.1 hmem with rfl | hmem
    · rfl
    · exact hinvoke.quiet output hmem
  | @answer call site answer =>
    left
    have hanswer : ∀ error, answer ≠ .thrown error := by
      rintro error rfl
      cases he.fails
    exact (answered_untroubled { c with calling := none } call site hanswer).of_start id rfl rfl fun _ hmem => .inl hmem
  | callback callback =>
    cases callback with
    | failed error lost => cases he.fails
    | read item => exact .inl (queueRead_untroubled c item)
    | event event =>
      have hkind : event.kind ≠ .closed ∧ event.kind ≠ .error := by
        have hfails := he.fails
        simpa [Input.fails] using hfails
      have hsettle (hkind : event.kind = .ok ∨ event.kind = .read) : Untroubled c (c._event event) := by
        have hevent : c._event event = c._settle event.id none event := by
          rcases hkind with hkind | hkind <;> simp [_event, hkind]
        rw [hevent]
        exact settle_untroubled c event.id event
      cases hcase : event.kind with
      | opened => exact .inr ⟨event, rfl, hcase, rfl⟩
      | closed => exact absurd hcase hkind.1
      | error => exact absurd hcase hkind.2
      | read => exact .inl (hsettle (.inr hcase))
      | ok => exact .inl (hsettle (.inl hcase))
  | microtask =>
    left
    have hpasses := deliverRead_passes { c with microtasks := c.microtasks - 1 }
    exact hpasses.untroubled.of_start id rfl rfl fun _ hmem => .inl hmem
  | @resume index awaited task result hidle htask hresult =>
    left
    have hmem := List.mem_of_getElem? htask
    refine (proceed_untroubled (c := { c with tasks := c.tasks.eraseIdx index }) h.native ?_ ?_).of_start id rfl rfl
      fun _ hmem => .inl (List.mem_of_mem_eraseIdx hmem)
    · exact fun hwrites => h.result_ok (h.tasks _ hmem hwrites) hresult
    · rintro rest promise rfl
      refine ⟨⟨h.isOpen_of_loop hat hmem rfl, h.closing, h.native⟩, fun hrest => he.room ?_⟩
      simpa [asks, htask] using hrest
  | returns => exact .inl (deliverBatch_passes c _).untroubled
  | throws =>
    left
    split <;> exact .of_eq id rfl rfl rfl quiet_nil

theorem life (h : c.Healthy) (he : c.Eased i) (hs : LifeStep c i c') :
    c'.port.native = true ∧ c'.port.closing = false ∧ c'.closers = false ∧
      (c.port.isOpen = true → c'.port.isOpen = true) := by
  have hnone (hclosers : c'.closers = true → c.closers = true) : c'.closers = false := by
    rw [← Bool.not_eq_true]
    intro hno
    have hyes := hclosers hno
    rw [h.closers] at hyes
    cases hyes
  cases hs with
  | kept hk =>
    refine ⟨?_, ?_, hnone hk.closers, fun hopen => ?_⟩
    · exact Eq.trans (congrArg Life.native hk.life) h.native
    · exact Eq.trans (congrArg Life.closing hk.life) h.closing
    · exact Eq.trans (congrArg Life.isOpen hk.life) hopen
  | opened hkind hclosing life closers =>
    refine ⟨?_, ?_, hnone fun hc => closers ▸ hc, fun _ => congrArg Life.isOpen life⟩
    · exact Eq.trans (congrArg Life.native life) h.native
    · exact Eq.trans (congrArg Life.closing life) h.closing
  | finished hkind =>
    have hfails := he.fails
    simp [Input.fails, hkind] at hfails
  | closed => cases (he.invoke _ rfl).1
  | canceled => cases (he.invoke _ rfl).1
  | released hclosers =>
    rw [h.closers] at hclosers
    cases hclosers

/-- **Every step keeps the port healthy**, and open. -/
theorem step (h : c.Healthy) (hat : c.At w) (he : c.Eased i) (hstep : c.step i = some (c', out)) :
    c'.Healthy ∧ (c.port.isOpen = true → c'.port.isOpen = true) := by
  obtain ⟨hnative, hclosing, hclosers, hopen⟩ := h.life he (step_lifeStep hstep)
  obtain ⟨w', hat', hwriter⟩ := step_writer hat hstep
  have hwriting : c'.port.writing = true → c'.port.isOpen = true := by
    intro hbusy
    rw [hat'.busy] at hbusy
    by_cases hidle : w.busy = true
    · exact hopen (h.writing (hat.busy.trans hidle))
    · -- the write has just begun
      cases hwriter with
      | stays | refused => exact absurd hbusy hidle
      | loops hi => exact hopen (he.invoke _ hi).2.1
      | begins hi => exact hopen (he.invoke _ hi).2.1
      | empty hi => exact hopen (he.invoke _ hi).2.1
      | thrown | ends => cases hbusy
      | completed | queued | answered | failed | goes => exact absurd rfl hidle
  refine ⟨?_, hopen⟩
  rcases h.step_untroubled hat he hstep with hu | ⟨event, hi, hkind, heq⟩
  · refine ⟨hnative, hclosing, hclosers, hu.reading h.reading, ?_, hwriting, fun result hmem => ?_, fun entry hmem => ?_⟩
    · rw [show c'.port.opened = c.port.opened from hu.opened]
      exact h.opened.imp_right fun ho => ⟨ho.1, hopen ho.2⟩
    · exact (hu.results result hmem).elim (h.results result) id
    · exact (hu.tasks entry hmem).elim (h.tasks entry) id
  · rw [_event, hkind] at heq
    simp only [h.closing, Bool.false_eq_true, if_false] at heq
    obtain ⟨rfl, rfl⟩ := Prod.mk.inj heq
    refine ⟨hnative, hclosing, hclosers, h.reading, .inr ⟨?_, rfl⟩, hwriting, h.results, h.tasks⟩
    rcases h.opened with hnone | hsome
    · rw [hnone]
      rfl
    · rw [hsome.1]
      rfl

/-- **No step reports a failure.** -/
theorem quiet (h : c.Healthy) (hat : c.At w) (he : c.Eased i) (hstep : c.step i = some (c', out)) :
    ∀ output ∈ out, output.troubles = false := by
  rcases h.step_untroubled hat he hstep with hu | ⟨event, -, hkind, heq⟩
  · exact hu.quiet
  · rw [_event, hkind] at heq
    simp only [h.closing, Bool.false_eq_true, if_false] at heq
    obtain ⟨-, rfl⟩ := Prod.mk.inj heq
    split
    · exact quiet_singleton rfl
    · exact quiet_nil

end Healthy

end Client

/-! ### The write that is in progress -/

/-- The method of the write. -/
def Writer.method? : Writer → Option ℕ
  | .idle => none
  | .submitting method _ | .waiting method _ | .batching method _ _ _ => some method

theorem Writer.busy_eq (w : Writer) : w.busy = w.method?.isSome := by
  cases w <;> rfl

variable {c c' : Client} {w w' : Writer} {i : Input} {out : List Output} {method : ℕ}

theorem Client.Advances.method_eq {promise : ℕ} {rest : List Batch} (h : Client.Advances c' method promise rest w) :
    w.method? = some method := by
  cases h <;> rfl

theorem WriterStep.goes_on (h : WriterStep c i c' out w w') (hw : w.method? = some method) :
    w'.method? = some method ∨ ∃ result, .returned method result ∈ out := by
  cases h with
  | stays | refused => exact .inl hw
  | loops | begins | empty => cases hw
  | thrown hi hout =>
    cases hw
    exact .inr ⟨_, hout ▸ List.mem_singleton_self _⟩
  | completed | queued | answered | failed => exact .inl hw
  | goes hi htask hresult ha => exact .inl (ha.method_eq.trans hw)
  | ends hi hresult hout =>
    cases hw
    exact .inr ⟨_, hout ▸ List.mem_singleton_self _⟩

theorem WriterStep.begun (h : WriterStep c i c' out w w') (hw' : w'.method? = some method) :
    w.method? = some method ∨ method = c.promises ∧ ∃ m, i = .invoke m ∧ m.writes = true := by
  cases h with
  | stays | refused => exact .inl hw'
  | loops hi hbuffers ha =>
    refine .inr ⟨Option.some.inj (hw'.symm.trans ha.method_eq), _, hi, ?_⟩
    rename_i m buffers
    cases m with
    | write | writev => rfl
    | _ => cases hbuffers
  | begins hi | empty hi =>
    cases hw'
    exact .inr ⟨rfl, _, hi, rfl⟩
  | thrown | ends => cases hw'
  | completed | queued | answered | failed => exact .inl hw'
  | goes hi htask hresult ha => exact .inl (ha.method_eq.symm.trans hw')

/-- **A write that is called, and not refused, begins.** -/
theorem WriterStep.invoked (h : WriterStep c i c' out w w') {m : Method} (hi : i = .invoke m) (hwrites : m.writes = true)
    (hout : ∀ result, .returned c.promises result ∉ out) : w'.method? = some c.promises := by
  cases h with
  | stays hmoves =>
    rw [hi, show c.moves (.invoke m) = m.writes from rfl, hwrites] at hmoves
    cases hmoves
  | refused hi' hm hrefused => exact absurd hrefused (hout _)
  | loops _ _ ha => exact ha.method_eq
  | begins | empty => rfl
  | thrown hi' | completed hi' | queued hi' | answered hi' | failed hi' | goes hi' | ends hi' =>
    rw [hi] at hi'
    cases hi'

namespace Client

theorem At.method_place (h : c.At w) (hw : w.method? = some method) :
    (∃ awaited, (awaited, Task.write method) ∈ c.tasks) ∨ ∃ call, c.calling = some (call, .write method) := by
  cases w with
  | idle => cases hw
  | submitting m buffer =>
    cases hw
    obtain ⟨id, inline, hwriting⟩ := h.calls
    exact .inr ⟨_, (Option.filter_eq_some_iff.1 hwriting).1⟩
  | waiting m awaited =>
    cases hw
    exact .inl ⟨awaited, h.task_mem List.mem_cons_self⟩
  | batching m promise rest stage =>
    cases hw
    refine .inl ⟨.promise promise, h.task_mem ?_⟩
    cases stage <;> exact List.mem_cons_self

theorem At.method_mem (h : c.At w) (hw : w.method? = some method) : method ∈ c.methods := by
  rcases h.method_place hw with ⟨awaited, hmem⟩ | ⟨call, hcalling⟩
  · exact Methodical.task_mem hmem rfl
  · unfold methods
    rw [hcalling]
    exact List.mem_append_right _ (List.mem_singleton_self _)

/-- **A write that is over ended well.** -/
theorem Healthy.returned (h : c.Healthy) (hat : c.At w) (hm : Methodical c) (he : c.Eased i)
    (hstep : c.step i = some (c', out)) (hw : w.method? = some method) {result : Settlement (Option NativeEvent)}
    (hout : .returned method result ∈ out) : ∃ event, result = .ok event := by
  -- the task that ends is that of the write
  have hplace {index : ℕ} {awaited : Awaited} {task : Task} (htask : c.tasks[index]? = some (awaited, task))
      (hmethod : task.method? = some method) (hidle : c.calling = none) : task = .write method := by
    rcases hat.method_place hw with ⟨other, hmem⟩ | ⟨call, hcalling⟩
    · have hsame := hm.task_unique hmem htask rfl hmethod
      exact congrArg Prod.snd hsame
    · rw [hidle] at hcalling
      cases hcalling
  have hcalling {index : ℕ} (hi : i = .resume index) : c.calling = none := by
    subst hi
    cases step_runs hstep with
    | resume hidle => exact idle_calling hidle
  cases step_returned hstep hout with
  | refused hfresh hresult => exact absurd (hfresh ▸ hat.method_mem hw) hm.fresh
  | resumed htask hmethod hsettled hclose hdrain =>
    obtain rfl := hplace htask hmethod (hcalling rfl)
    exact h.result_ok (h.tasks _ (List.mem_of_getElem? htask) rfl) hsettled
  | closed htask => cases hplace htask rfl (hcalling rfl)
  | thrown => cases he.fails

theorem invoke_not_returned (h : c.Admits) {m : Method} (hwrites : m.writes = true) (hwriting : c.port.writing = false)
    (hroom : c.asks (.invoke m) = true → c.port.pending.length < 64) {result : Settlement (Option NativeEvent)} :
    .returned method result ∉ (c.invoke m).2 := by
  have h₁ : c.promise.2.Admits := ⟨h.isOpen, h.closing, h.native⟩
  have hwritev (buffers : List JsBuffer) : .returned method result ∉ (c.promise.2.writev c.promises buffers).2 := by
    rw [writev_eq h₁ hwriting]
    exact nextBatch_returned
  cases m with
  | writev buffers => exact hwritev buffers
  | write buffer =>
    show .returned method result ∉ (c.promise.2.write c.promises buffer).2
    by_cases hlong : chunkSize < buffer.length
    · rw [write, if_pos hlong]
      exact hwritev [buffer]
    by_cases hsome : 0 < buffer.length
    · obtain ⟨call, port, heq, -⟩ := write_eq h₁ hwriting c.promises hsome hlong (hroom (decide_eq_true hsome))
      rw [heq]
      simp
    · rw [write, if_neg hlong, if_neg (by simp [h₁.isOpen, h₁.closing]),
        if_neg (by simp [show c.promise.2.port.writing = false from hwriting])]
      dsimp only
      rw [if_pos (Nat.eq_zero_of_not_pos hsome)]
      exact List.not_mem_nil
  | _ => cases hwrites

theorem Passes.passed (h : c.Passes c' out) : passed out = [] ∨ ∃ data, out = [.data data] := by
  cases h with
  | nothing => exact .inl rfl
  | data data => exact .inr ⟨data, rfl⟩

theorem step_listener (hstep : client.step c i = some (c', out)) :
    passed out = [] ∨ (i = .microtask ∨ i = .returns) ∧ ∃ data, out = [.data data] := by
  cases step_stepped hstep with
  | method hi hcalling h => exact .inl h.silent.passed
  | dropped hcalling hsite ha hmay h houtputs =>
    left
    rw [houtputs]
    exact (answered_dropped _ hsite ha).1.passed
  | queued | creditRefused | creditTaken | read | throws => exact .inl rfl
  | failed hidle houtputs => exact .inl houtputs.passed
  | event hidle => exact .inl (event_reads c _).2.1
  | microtask hidle hmicrotasks =>
    exact (deliverRead_passes _).passed.imp_right fun hdata => ⟨.inl rfl, hdata⟩
  | returns hcalling h => exact (deliverBatch_passes c _).passed.imp_right fun hdata => ⟨.inr rfl, hdata⟩

end Client

end NodeSerialport.Binding
