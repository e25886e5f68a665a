import NodeSerialport.Binding.Steps
/-!
# The lifecycle of a port

`isOpen`, `_closing`, `_finished` and the native handle, and what writes them: the open and the close event, `close`,
`cancelOpen`, and `close` once its promise is settled.  Everything else leaves them alone.

* `Life` — the four of them;
* `Client.closers` — a call of `close` is waiting;
* `Client.Keeps`, `LifeStep` — what leaves them alone, and what one step can do.
-/

namespace NodeSerialport.Binding

open Parsers (Buffer)

/-- What the lifecycle of a port is told by. -/
structure Life where
  native : Bool
  isOpen : Bool
  closing : Bool
  finished : Bool
  deriving DecidableEq, Repr

def BindingPort.life (p : BindingPort) : Life := ⟨p.native, p.isOpen, p.closing, p.finished⟩

@[simp] theorem BindingPort.release_life (p : BindingPort) (ordered : Bool) : (p.release ordered).life = p.life := by
  unfold release
  split <;> rfl

@[simp] theorem BindingPort.reserve_life (p : BindingPort) (op : Operation) : (p.reserve op).2.life = p.life := by
  unfold reserve count
  dsimp only
  split <;> rfl

theorem BindingPort.unrecord_life (p : BindingPort) (id : ℕ) (ordered : Bool) :
    (p.unrecord id ordered).life = p.life :=
  release_life _ ordered

def Task.closes : Task → Bool
  | .close _ => true
  | _ => false

def Site.closes : Site → Bool
  | .request _ task => task.closes
  | _ => false

namespace Client

/-- A call of `close` waits for its promise. -/
def closers (c : Client) : Bool := c.tasks.any (·.2.closes) || c.calling.any (·.2.closes)

/-- **The lifecycle is left alone**, and no call of `close` begins to wait. -/
structure Keeps (c c' : Client) : Prop where
  life : c'.port.life = c.port.life
  closers : c'.closers = true → c.closers = true

variable {c c₁ c' : Client}

namespace Keeps

theorem refl (c : Client) : Keeps c c := ⟨rfl, id⟩

theorem trans (h : Keeps c c₁) (h' : Keeps c₁ c') : Keeps c c' := ⟨h'.life.trans h.life, fun hc => h.closers (h'.closers hc)⟩

end Keeps

theorem await_closers (c : Client) (awaited : Awaited) {task : Task} (h : task.closes = false) :
    (c.await awaited task).closers = c.closers := by
  simp [closers, await, h]

theorem await_keeps (c : Client) (awaited : Awaited) {task : Task} (h : task.closes = false) :
    Keeps c (c.await awaited task) :=
  ⟨rfl, fun hc => (await_closers c awaited h).symm.trans hc⟩

theorem calling_keeps (hcalling : c.calling = none) (call : NativeCall) {site : Site} (h : site.closes = false) :
    Keeps c { c with calling := some (call, site) } := by
  refine ⟨rfl, fun hc => ?_⟩
  simpa [closers, hcalling, h] using hc

/-- **The answer of the native handle.** -/
theorem answered_keeps {call : NativeCall} {site : Site} (hcalling : c.calling = some (call, site)) (answer : Answer) :
    Keeps c ({ c with calling := none }.answered call site answer).1 := by
  have hsite : ∀ {c' : Client} {awaited : Awaited} {task : Task}, site.closes = task.closes → c'.calling = none →
      c'.tasks = c.tasks ++ [(awaited, task)] → c'.closers = true → c.closers = true := by
    intro c' awaited task htask hnone htasks hc
    simpa [closers, hcalling, htask, hnone, htasks] using hc
  have hno : ∀ {c' : Client}, c'.calling = none → c'.tasks = c.tasks → c'.closers = true → c.closers = true := by
    intro c' hnone htasks hc
    have htask : c.tasks.any (·.2.closes) = true := by simpa [closers, hnone, htasks] using hc
    rw [closers, htask]
    rfl
  cases site with
  | request ordered task =>
    cases answer with
    | thrown error => exact ⟨BindingPort.release_life _ _, hsite rfl rfl rfl⟩
    | completed => exact ⟨BindingPort.release_life _ _, hsite rfl rfl rfl⟩
    | queued => exact ⟨rfl, hsite rfl rfl rfl⟩
  | write method =>
    cases answer with
    | thrown error => exact ⟨BindingPort.release_life c.port true, hno rfl rfl⟩
    | completed => exact ⟨BindingPort.release_life _ _, hsite rfl rfl rfl⟩
    | queued => exact ⟨rfl, hsite rfl rfl rfl⟩
  | credit bytes slots =>
    cases answer with
    | thrown error => exact ⟨rfl, hno rfl rfl⟩
    | completed => exact ⟨rfl, hno rfl rfl⟩
    | queued => exact ⟨rfl, hno rfl rfl⟩

/-- **A call of the native handle**, from a state `c₁` that differs in what the call reserved. -/
theorem native_keeps (hcalling : c₁.calling = none) (h : Keeps c c₁) (call : NativeCall) {site : Site}
    (hsite : site.closes = false) : Keeps c (c₁.native call site).1 := by
  have hcall := h.trans (calling_keeps hcalling call hsite)
  unfold native
  split
  · exact hcall
  · have hnone : { { c₁ with calling := some (call, site) } with calling := none } = c₁ := by
      rw [← hcalling]
    have hanswered := answered_keeps (c := { c₁ with calling := some (call, site) }) rfl
      (.thrown { message := "Cannot read properties of null" })
    rw [hnone] at hanswered
    exact hcall.trans hanswered

theorem request_keeps (hcalling : c.calling = none) (op : Operation) {task : Task} (h : task.closes = false) :
    Keeps c (c.request op task).1 := by
  unfold request BindingPort._request
  split
  · exact await_keeps c _ h
  · rename_i call port hrequest
    split at hrequest
    · cases hrequest
    · split at hrequest
      · cases hrequest
      · have hport : port = (c.port.reserve op).2 := by
          cases hrequest
          rfl
        refine native_keeps ?_ ?_ _ ?_
        · exact hcalling
        · refine ⟨?_, id⟩
          rw [hport]
          exact BindingPort.reserve_life _ _
        · exact h

theorem nextBatch_keeps (hcalling : c.calling = none) (rest : List Batch) (promise : ℕ) :
    Keeps c (c.nextBatch rest promise).1 := by
  cases rest with
  | nil => exact ⟨rfl, id⟩
  | cons batch rest => exact request_keeps hcalling _ rfl

theorem writev_keeps (hcalling : c.calling = none) (method : ℕ) (buffers : List JsBuffer) :
    Keeps c (c.writev method buffers).1 := by
  unfold writev
  split
  · exact .refl c
  · split
    · exact .refl c
    · let c₁ : Client := { c with
        promises := c.promises + 1
        port := { c.port with writing := true, writePromise := some (.promise c.promises) } }
      have hmade : Keeps c c₁ := ⟨rfl, id⟩
      let c₂ : Client := c₁.await (.promise c.promises) (.write method)
      have hawait : Keeps c₁ c₂ := await_keeps c₁ _ rfl
      have hbatch : Keeps c₂ (c₂.nextBatch (batches buffers) c.promises).1 :=
        nextBatch_keeps (c := c₂) hcalling _ _
      exact (hmade.trans hawait).trans hbatch

theorem write_keeps (hcalling : c.calling = none) (method : ℕ) (buffer : JsBuffer) :
    Keeps c (c.write method buffer).1 := by
  unfold write
  split
  · exact writev_keeps hcalling _ _
  · split
    · exact .refl c
    · split
      · exact .refl c
      · dsimp only
        split
        · have hset : Keeps c { c with port := { c.port with writePromise := some .RESOLVED, writing := true } } :=
            ⟨rfl, id⟩
          exact hset.trans (await_keeps _ _ rfl)
        · split
          · exact ⟨rfl, id⟩
          · refine native_keeps ?_ ?_ _ ?_
            · exact hcalling
            · exact ⟨BindingPort.reserve_life _ _, id⟩
            · rfl

theorem readChunk_keeps (hcalling : c.calling = none) (method : ℕ) (length : ℤ) :
    Keeps c (c.readChunk method length).1 := by
  unfold readChunk
  split
  · exact .refl c
  · split
    · exact .refl c
    · let c₁ : Client := { c with port := { c.port with reading := true } }
      have hset : Keeps c c₁ := ⟨rfl, id⟩
      have hrequest : Keeps c₁ (c₁.request (.read (min length chunkSize)) (.readChunk method)).1 :=
        request_keeps (c := c₁) hcalling _ rfl
      exact hset.trans hrequest

theorem startReading_keeps (hcalling : c.calling = none) (length : ℤ) : Keeps c (c.startReading length).1 := by
  unfold startReading
  split
  · exact .refl c
  · split
    · exact .refl c
    · have hset : Keeps c { c with port := { c.port with streaming := true } } := ⟨rfl, id⟩
      dsimp only
      split
      · exact hset
      · refine native_keeps ?_ hset _ ?_
        · exact hcalling
        · rfl

theorem Passes.keeps {out : List Output} (h : c.Passes c' out) : Keeps c c' := by
  cases h <;> exact ⟨rfl, id⟩

theorem queueRead_keeps (c : Client) (item : Item) : Keeps c (c.queueRead item) := by
  obtain ⟨pendingRead, queuedReads, heq⟩ := queueRead_queues c item
  rw [heq]
  exact ⟨rfl, id⟩

theorem settle_keeps (c : Client) (id : ℕ) (error : Option SerialError) (result : NativeEvent) :
    Keeps c (c._settle id error result).1 := by
  unfold _settle
  split
  · exact .refl c
  · exact ⟨BindingPort.unrecord_life _ _ _, fun hc => hc⟩

/-! ### Steps -/

/-- **What one step does to the lifecycle.** -/
inductive LifeStep (c : Client) : Input → Client → Prop
  | kept {i : Input} {c' : Client} (h : Keeps c c') (hcancel : i ≠ .invoke .cancelOpen)
      (hclose : i = .invoke .close → c.port.isOpen = false ∨ c.port.closing = true)
      (hevent : ∀ event, i = .callback (.event event) → event.kind = .closed → c.port.finished = true) :
      LifeStep c i c'
  | opened {event : NativeEvent} {c' : Client} (hkind : event.kind = .opened) (hclosing : c.port.closing = false)
      (life : c'.port.life = { c.port.life with isOpen := true }) (closers : c'.closers = c.closers) :
      LifeStep c (.callback (.event event)) c'
  | finished {event : NativeEvent} {c' : Client} (hkind : event.kind = .closed)
      (life : c'.port.life = { c.port.life with
        finished := true, native := if !c.port.isOpen || c.port.closing then false else c.port.native })
      (closers : c'.closers = c.closers) : LifeStep c (.callback (.event event)) c'
  | closed {c' : Client} (hopen : c.port.isOpen = true) (hclosing : c.port.closing = false)
      (life : c'.port.life = { c.port.life with closing := true, isOpen := false }) : LifeStep c (.invoke .close) c'
  | canceled {c' : Client} (life : c'.port.life = { c.port.life with closing := true }) :
      LifeStep c (.invoke .cancelOpen) c'
  | released {index : ℕ} {c' : Client} (hclosers : c.closers = true)
      (life : c'.port.life = { c.port.life with native := false }) : LifeStep c (.resume index) c'

theorem invoke_lifeStep (hcalling : c.calling = none) (m : Method) : LifeStep c (.invoke m) (c.invoke m).1 := by
  let c₁ : Client := { c with promises := c.promises + 1 }
  have hmade : Keeps c c₁ := ⟨rfl, id⟩
  have hkept : ∀ {m : Method} {c' : Client}, m ≠ .cancelOpen → m ≠ .close → Keeps c₁ c' → LifeStep c (.invoke m) c' :=
    fun hm hm' h => .kept (hmade.trans h) (fun he => hm (Input.invoke.inj he))
      (fun he => absurd (Input.invoke.inj he) hm') fun _ he => nomatch he
  cases m with
  | write buffer => exact hkept nofun nofun (write_keeps (c := c₁) hcalling _ _)
  | writev buffers => exact hkept nofun nofun (writev_keeps (c := c₁) hcalling _ _)
  | control operation value => exact hkept nofun nofun (request_keeps (c := c₁) hcalling _ rfl)
  | drain => exact hkept nofun nofun (await_keeps c₁ _ rfl)
  | readChunk length => exact hkept nofun nofun (readChunk_keeps (c := c₁) hcalling _ _)
  | startReading length => exact hkept nofun nofun (startReading_keeps (c := c₁) hcalling _)
  | cancelOpen => exact .canceled rfl
  | close =>
    show LifeStep c _ (c₁.close c.promises).1
    unfold close
    split
    · rename_i hrejected
      refine .kept hmade nofun (fun _ => ?_) fun _ he => nomatch he
      simpa [c₁] using hrejected
    · rename_i haccepted
      have hopen : c.port.isOpen = true ∧ c.port.closing = false := by simpa [c₁] using haccepted
      dsimp only
      split <;> exact .closed hopen.1 hopen.2 rfl

theorem eraseIdx_closers (hcalling : c.calling = none) (index : ℕ) :
    ({ c with tasks := c.tasks.eraseIdx index } : Client).closers = true → c.closers = true := by
  unfold closers
  rw [hcalling]
  simp only [Option.any_none, Bool.or_false, List.any_eq_true]
  rintro ⟨task, hmem, hcloses⟩
  exact ⟨task, List.mem_of_mem_eraseIdx hmem, hcloses⟩

theorem resume_lifeStep (hcalling : c.calling = none) {index : ℕ} {awaited : Awaited} {task : Task}
    (htask : c.tasks[index]? = some (awaited, task)) (result : Settlement (Option NativeEvent)) :
    LifeStep c (.resume index) ({ c with tasks := c.tasks.eraseIdx index }.proceed task result).1 := by
  let c₁ : Client := { c with tasks := c.tasks.eraseIdx index }
  have herased : Keeps c c₁ := ⟨rfl, eraseIdx_closers hcalling index⟩
  have hkept : ∀ {c' : Client}, Keeps c₁ c' → LifeStep c (.resume index) c' :=
    fun h => .kept (herased.trans h) nofun (fun he => nomatch he) fun _ he => nomatch he
  cases task with
  | method method => exact hkept (.refl _)
  | readChunk method => exact hkept ⟨rfl, id⟩
  | write method => exact hkept ⟨rfl, id⟩
  | batches rest promise =>
    cases result with
    | error error => exact hkept ⟨rfl, id⟩
    | ok event => exact hkept (nextBatch_keeps (c := c₁) hcalling _ _)
  | drain method =>
    cases result with
    | error error => exact hkept (.refl _)
    | ok event => exact hkept (request_keeps (c := c₁) hcalling _ rfl)
  | close method =>
    refine .released ?_ rfl
    unfold closers
    rw [Bool.or_eq_true, List.any_eq_true]
    exact .inl ⟨_, List.mem_of_getElem? htask, rfl⟩

theorem event_lifeStep (c : Client) (event : NativeEvent) : LifeStep c (.callback (.event event)) (c._event event).1 := by
  have hkept : ∀ {c' : Client}, Keeps c c' → (event.kind = .closed → c.port.finished = true) →
      LifeStep c (.callback (.event event)) c' := by
    intro c' h hclosed
    refine .kept h nofun (fun he => nomatch he) ?_
    intro e he
    cases he
    exact hclosed
  unfold _event
  cases hkind : event.kind with
  | opened =>
    dsimp only
    split
    · exact hkept (.refl c) fun h => nomatch hkind.symm.trans h
    · rename_i hclosing
      exact .opened hkind (by simpa using hclosing) rfl rfl
  | closed =>
    simp only [_finishClose]
    split
    · rename_i hfinished
      exact hkept (.refl c) fun _ => hfinished
    · exact .finished hkind rfl rfl
  | read => exact hkept (settle_keeps c _ _ _) fun h => nomatch hkind.symm.trans h
  | ok => exact hkept (settle_keeps c _ _ _) fun h => nomatch hkind.symm.trans h
  | error => exact hkept (settle_keeps c _ _ _) fun h => nomatch hkind.symm.trans h

theorem step_lifeStep {i : Input} {out : List Output} (hstep : client.step c i = some (c', out)) : LifeStep c i c' := by
  have hkept : ∀ {i : Input} {c' : Client}, i ≠ .invoke .cancelOpen → i ≠ .invoke .close →
      (∀ event, i ≠ .callback (.event event)) → Keeps c c' → LifeStep c i c' :=
    fun hcancel hclose hevent h => .kept h hcancel (fun he => absurd he hclose) fun e he => absurd he (hevent e)
  cases step_runs hstep with
  | invoke m hcalling => exact invoke_lifeStep hcalling m
  | answer answer hcalling => refine hkept ?_ ?_ ?_ (answered_keeps hcalling answer) <;> simp
  | callback callback hidle =>
    cases callback with
    | failed error lost => refine hkept ?_ ?_ ?_ ⟨rfl, id⟩ <;> simp
    | read item =>
      show LifeStep c _ (c.queueRead item)
      refine hkept ?_ ?_ ?_ (queueRead_keeps c item) <;> simp
    | event event =>
      show LifeStep c _ (c._event event).1
      exact event_lifeStep c event
  | microtask hidle =>
    have hkeeps := (deliverRead_passes { c with microtasks := c.microtasks - 1 }).keeps
    refine hkept ?_ ?_ ?_ ⟨hkeeps.life, hkeeps.closers⟩ <;> simp
  | resume hidle htask => exact resume_lifeStep (idle_calling hidle) htask _
  | returns hcalling => refine hkept ?_ ?_ ?_ (deliverBatch_passes c _).keeps <;> simp
  | throws hcalling => split <;> refine hkept ?_ ?_ ?_ ⟨rfl, id⟩ <;> simp

/-! ### What every step keeps -/

/-- **The native handle is there** until a closure is requested, or the port ends without ever having been open. -/
structure Handled (c : Client) : Prop where
  closers : c.closers = true → c.port.closing = true
  native : c.port.closing = false → c.port.native = true ∨ c.port.finished = true ∧ c.port.isOpen = false

theorem Handled.start (path : String) (nextId : ℕ) : (Client.new path nextId).Handled := ⟨nofun, fun _ => .inl rfl⟩

/-- Every step keeps the handle, if no event comes after the close event. -/
theorem Handled.step (h : c.Handled) {i : Input} (hs : LifeStep c i c')
    (hlate : c.port.finished = true → ∀ event, i ≠ .callback (.event event)) : c'.Handled := by
  cases hs with
  | kept hk =>
    have hclosing : c'.port.closing = c.port.closing := congrArg Life.closing hk.life
    have hnative : c'.port.native = c.port.native := congrArg Life.native hk.life
    have hfinished : c'.port.finished = c.port.finished := congrArg Life.finished hk.life
    have hopen : c'.port.isOpen = c.port.isOpen := congrArg Life.isOpen hk.life
    refine ⟨fun hc => hclosing.trans (h.closers (hk.closers hc)), ?_⟩
    rw [hclosing, hnative, hfinished, hopen]
    exact h.native
  | opened hkind hclosing life closers =>
    have hclosing' : c'.port.closing = c.port.closing := congrArg Life.closing life
    have hnative : c'.port.native = c.port.native := congrArg Life.native life
    refine ⟨fun hc => hclosing'.trans (h.closers (closers ▸ hc)), fun _ => ?_⟩
    rcases h.native hclosing with hn | ⟨hfinished, -⟩
    · exact .inl (hnative.trans hn)
    · exact absurd rfl (hlate hfinished _)
  | finished hkind life closers =>
    have hclosing' : c'.port.closing = c.port.closing := congrArg Life.closing life
    have hnative := congrArg Life.native life
    refine ⟨fun hc => hclosing'.trans (h.closers (closers ▸ hc)), fun hclosing => ?_⟩
    rw [hclosing'] at hclosing
    cases hopen : c.port.isOpen with
    | false =>
      have hopen' : c'.port.isOpen = c.port.isOpen := congrArg Life.isOpen life
      exact .inr ⟨congrArg Life.finished life, hopen'.trans hopen⟩
    | true =>
      rcases h.native hclosing with hn | ⟨-, hclosed⟩
      · left
        rw [hopen, hclosing] at hnative
        exact Eq.trans hnative hn
      · rw [hopen] at hclosed
        cases hclosed
  | closed hopen hclosing life =>
    have hclosing' : c'.port.closing = true := congrArg Life.closing life
    exact ⟨fun _ => hclosing', fun hno => absurd (hclosing'.symm.trans hno) nofun⟩
  | canceled life =>
    have hclosing' : c'.port.closing = true := congrArg Life.closing life
    exact ⟨fun _ => hclosing', fun hno => absurd (hclosing'.symm.trans hno) nofun⟩
  | released hclosers life =>
    have hclosing' : c'.port.closing = true := Eq.trans (congrArg Life.closing life) (h.closers hclosers)
    exact ⟨fun _ => hclosing', fun hno => absurd (hclosing'.symm.trans hno) nofun⟩

/-- **A port that shuts down is not open**, and every step but `cancelOpen` on an open port keeps it so. -/
theorem exclusive_step (h : c.port.isOpen = true → c.port.closing = false) {i : Input} (hs : LifeStep c i c')
    (hcancel : i = .invoke .cancelOpen → c.port.isOpen = false) :
    c'.port.isOpen = true → c'.port.closing = false := by
  intro hopen
  cases hs with
  | kept hk => exact Eq.trans (congrArg Life.closing hk.life) (h (Eq.trans (congrArg Life.isOpen hk.life).symm hopen))
  | opened hkind hclosing life => exact Eq.trans (congrArg Life.closing life) hclosing
  | finished hkind life => exact Eq.trans (congrArg Life.closing life) (h (Eq.trans (congrArg Life.isOpen life).symm hopen))
  | closed hopen' hclosing life => exact absurd (Eq.trans (congrArg Life.isOpen life).symm hopen) nofun
  | canceled life =>
    have hopen' : c'.port.isOpen = c.port.isOpen := congrArg Life.isOpen life
    rw [hopen', hcancel rfl] at hopen
    cases hopen
  | released hclosers life => exact Eq.trans (congrArg Life.closing life) (h (Eq.trans (congrArg Life.isOpen life).symm hopen))

theorem cancelOpen_life {out : List Output} (hstep : client.step c (.invoke .cancelOpen) = some (c', out)) :
    c'.port.life = { c.port.life with closing := true } := by
  cases step_lifeStep hstep with
  | kept hk hcancel => exact absurd rfl hcancel
  | canceled life => exact life

/-- **An open port accepts `close`**, if it has its native handle. -/
theorem close_accepted (hopen : c.port.isOpen = true) (hclosing : c.port.closing = false) (hnative : c.port.native = true)
    {out : List Output} (hstep : client.step c (.invoke .close) = some (c', out)) :
    out = [.invoked c.promises, .stopped] := by
  have hinvoke : (c.invoke .close).2 = [.stopped] := by simp [invoke, promise, close, hopen, hclosing, hnative]
  change c.step (.invoke .close) = _ at hstep
  cases step_runs hstep with
  | invoke m hcalling => rw [hinvoke]

end Client

end NodeSerialport.Binding
