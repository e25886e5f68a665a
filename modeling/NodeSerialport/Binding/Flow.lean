import NodeSerialport.Binding.Lifecycle
/-!
# What a port asks for, and what it calls

`startReading` alone asks the native side for data; the promise `opened` settles once; a step calls one hook at most.

* `Output.hooks` — the calls of `onData` and `onClose`;
* `Site.credits`, `crediting` — a call of `readCredit` that has not returned;
* `Firm` — what most functions leave as it is;
* `FlowStep`, `step_flowStep` — what one step does.
-/

namespace NodeSerialport.Binding

open Parsers (Buffer)

/-- `onData(data)`, or `onClose(error)`. -/
def Output.hooks : Output → Bool
  | .data _ | .onClose _ => true
  | _ => false

def Site.credits : Site → Bool
  | .credit _ _ => true
  | _ => false

@[simp] theorem BindingPort.release_streaming (p : BindingPort) (ordered : Bool) :
    (p.release ordered).streaming = p.streaming := by
  unfold release
  split <;> rfl

@[simp] theorem BindingPort.release_opened (p : BindingPort) (ordered : Bool) : (p.release ordered).opened = p.opened := by
  unfold release
  split <;> rfl

theorem BindingPort.reserve_flow (p : BindingPort) (op : Operation) :
    (p.reserve op).2.streaming = p.streaming ∧ (p.reserve op).2.opened = p.opened := by
  unfold reserve count
  dsimp only
  split <;> exact ⟨rfl, rfl⟩

namespace Client

/-- A call of `readCredit` has not returned. -/
def crediting (c : Client) : Bool := c.calling.any (·.2.credits)

/-- **Nothing more is asked for**, no hook is called, and `opened` is not settled. -/
structure Firm (c : Client) (r : Client × List Output) : Prop where
  streaming : r.1.port.streaming = c.port.streaming
  opened : r.1.port.opened = c.port.opened
  crediting : r.1.crediting = true → c.crediting = true
  silent : ∀ output ∈ r.2, output.hooks = false

variable {c c₁ c' : Client} {out : List Output}

theorem hookless : ∀ output ∈ ([] : List Output), output.hooks = false := fun _ hmem => nomatch hmem

theorem hookless_singleton {output : Output} (h : output.hooks = false) : ∀ o ∈ [output], o.hooks = false := by
  intro o hmem
  rw [List.mem_singleton.1 hmem]
  exact h

namespace Firm

theorem refl (c : Client) : Firm c (c, []) := ⟨rfl, rfl, id, hookless⟩

theorem of_eq {r : Client × List Output} (h : Firm c₁ r) (hstreaming : c₁.port.streaming = c.port.streaming)
    (hopened : c₁.port.opened = c.port.opened) (hcalling : c₁.calling = c.calling) : Firm c r := by
  refine ⟨h.streaming.trans hstreaming, h.opened.trans hopened, fun hcrediting => ?_, h.silent⟩
  have hold := h.crediting hcrediting
  rwa [Client.crediting, hcalling] at hold

theorem set (hstreaming : c'.port.streaming = c.port.streaming) (hopened : c'.port.opened = c.port.opened)
    (hcalling : c'.calling = c.calling) (hsilent : ∀ output ∈ out, output.hooks = false) : Firm c (c', out) := by
  refine ⟨hstreaming, hopened, fun hcrediting => ?_, hsilent⟩
  rwa [Client.crediting, hcalling] at hcrediting

end Firm

/-! ### Functions -/

theorem answered_firm (c : Client) (call : NativeCall) (site : Site) (answer : Answer) :
    Firm c (c.answered call site answer) := by
  cases site with
  | request ordered task =>
    cases answer with
    | thrown error => exact .set (BindingPort.release_streaming _ _) (BindingPort.release_opened _ _) rfl hookless
    | completed => exact .set (BindingPort.release_streaming _ _) (BindingPort.release_opened _ _) rfl hookless
    | queued => exact .set rfl rfl rfl (hookless_singleton rfl)
  | write method =>
    cases answer with
    | thrown error => exact .set (BindingPort.release_streaming c.port true) (BindingPort.release_opened c.port true) rfl (hookless_singleton rfl)
    | completed => exact .set (BindingPort.release_streaming _ _) (BindingPort.release_opened _ _) rfl hookless
    | queued => exact .set rfl rfl rfl (hookless_singleton rfl)
  | credit bytes slots =>
    cases answer with
    | thrown error => exact .set rfl rfl rfl (hookless_singleton rfl)
    | completed => exact .set rfl rfl rfl (hookless_singleton rfl)
    | queued => exact .set rfl rfl rfl (hookless_singleton rfl)

theorem native_firm (c : Client) (call : NativeCall) {site : Site} (h : site.credits = false) :
    Firm c (c.native call site) := by
  unfold native
  split
  · refine ⟨rfl, rfl, fun hcrediting => ?_, hookless_singleton rfl⟩
    rw [show ({ c with calling := some (call, site) } : Client).crediting = site.credits from rfl, h] at hcrediting
    cases hcrediting
  · exact answered_firm c call site _

theorem request_firm (c : Client) (op : Operation) (task : Task) : Firm c (c.request op task) := by
  unfold request BindingPort._request
  split
  · exact .set rfl rfl rfl hookless
  · rename_i call port hrequest
    split at hrequest
    · cases hrequest
    · split at hrequest
      · cases hrequest
      · obtain ⟨hstreaming, hopened⟩ := BindingPort.reserve_flow c.port op
        have hport : port = (c.port.reserve op).2 := by
          cases hrequest
          rfl
        subst hport
        exact (native_firm { c with port := (c.port.reserve op).2 } call rfl).of_eq hstreaming hopened rfl

theorem nextBatch_firm (c : Client) (rest : List Batch) (promise : ℕ) : Firm c (c.nextBatch rest promise) := by
  cases rest with
  | nil => exact .set rfl rfl rfl hookless
  | cons batch rest => exact request_firm c _ _

theorem writev_firm (c : Client) (method : ℕ) (buffers : List JsBuffer) : Firm c (c.writev method buffers) := by
  unfold writev
  split
  · exact .set rfl rfl rfl (hookless_singleton rfl)
  split
  · exact .set rfl rfl rfl (hookless_singleton rfl)
  · exact (nextBatch_firm _ _ _).of_eq rfl rfl rfl

theorem write_firm (c : Client) (method : ℕ) (buffer : JsBuffer) : Firm c (c.write method buffer) := by
  unfold write
  split
  · exact writev_firm c method _
  split
  · exact .set rfl rfl rfl (hookless_singleton rfl)
  split
  · exact .set rfl rfl rfl (hookless_singleton rfl)
  · dsimp only
    split
    · exact .set rfl rfl rfl hookless
    split
    · exact .set rfl rfl rfl (hookless_singleton rfl)
    · obtain ⟨hstreaming, hopened⟩ := BindingPort.reserve_flow
        { c.port with writePromise := some .RESOLVED, writing := true } (.write buffer)
      exact (native_firm _ _ rfl).of_eq hstreaming hopened rfl

theorem readChunk_firm (c : Client) (method : ℕ) (length : ℤ) : Firm c (c.readChunk method length) := by
  unfold readChunk
  split
  · exact .set rfl rfl rfl (hookless_singleton rfl)
  split
  · exact .set rfl rfl rfl (hookless_singleton rfl)
  · exact (request_firm { c with port := { c.port with reading := true } } _ _).of_eq rfl rfl rfl

theorem close_firm (c : Client) (method : ℕ) : Firm c (c.close method) := by
  unfold close
  split
  · exact .set rfl rfl rfl (hookless_singleton rfl)
  · dsimp only
    split
    · exact .set rfl rfl rfl (hookless_singleton rfl)
    · exact .set rfl rfl rfl (hookless_singleton rfl)

theorem cancelOpen_firm (c : Client) : Firm c c.cancelOpen := by
  refine .set rfl rfl rfl ?_
  split
  · exact hookless_singleton rfl
  · exact hookless

/-- **`startReading`** asks for data where the port is open. -/
theorem startReading_asks (c : Client) (length : ℤ) :
    (c.startReading length).1.port.opened = c.port.opened ∧ (∀ output ∈ (c.startReading length).2, output.hooks = false) ∧
      (Firm c (c.startReading length) ∨
        c.port.isOpen = true ∧ c.port.closing = false ∧ (c.startReading length).1.port.streaming = true) := by
  have hfirm {r : Client × List Output} (h : Firm c r) : r.1.port.opened = c.port.opened ∧
      (∀ output ∈ r.2, output.hooks = false) ∧
      (Firm c r ∨ c.port.isOpen = true ∧ c.port.closing = false ∧ r.1.port.streaming = true) :=
    ⟨h.opened, h.silent, .inl h⟩
  unfold startReading
  split
  · exact hfirm (.set rfl rfl rfl (hookless_singleton rfl))
  split
  · exact hfirm (.set rfl rfl rfl (hookless_singleton rfl))
  · rename_i hclosed _
    obtain ⟨hopen, hclosing⟩ : c.port.isOpen = true ∧ c.port.closing = false := by simpa using hclosed
    dsimp only
    split
    · exact ⟨rfl, hookless, .inr ⟨hopen, hclosing, rfl⟩⟩
    · rename_i bytes slots hcredit
      unfold native
      split
      · exact ⟨rfl, hookless_singleton rfl, .inr ⟨hopen, hclosing, rfl⟩⟩
      · have hanswered := answered_firm { c with port := { c.port with streaming := true } } (.readCredit bytes slots)
          (.credit bytes slots) (.thrown { message := "Cannot read properties of null" })
        exact ⟨hanswered.opened, hanswered.silent, .inr ⟨hopen, hclosing, hanswered.streaming⟩⟩

theorem proceed_firm (c : Client) (task : Task) (result : Settlement (Option NativeEvent)) :
    Firm c (c.proceed task result) := by
  cases task with
  | method method => exact .set rfl rfl rfl (hookless_singleton rfl)
  | readChunk method => exact .set rfl rfl rfl (hookless_singleton rfl)
  | write method => exact .set rfl rfl rfl (hookless_singleton rfl)
  | batches rest promise =>
    cases result with
    | error error => exact .set rfl rfl rfl hookless
    | ok event => exact nextBatch_firm c rest promise
  | drain method =>
    cases result with
    | error error => exact .set rfl rfl rfl (hookless_singleton rfl)
    | ok event => exact request_firm c _ _
  | close method => exact .set rfl rfl rfl (hookless_singleton rfl)

theorem settle_firm (c : Client) (id : ℕ) (error : Option SerialError) (result : NativeEvent) :
    Firm c (c._settle id error result) := by
  unfold _settle
  split
  · exact .refl c
  · refine .set ?_ ?_ rfl (hookless_singleton rfl)
    · exact BindingPort.release_streaming _ _
    · exact BindingPort.release_opened _ _

/-! ### Steps -/

/-- **What one step asks for and calls.** -/
inductive FlowStep (c : Client) : Input → Client → List Output → Prop
  | firm {i : Input} {c' : Client} {out : List Output} (h : Firm c (c', out)) : FlowStep c i c' out
  | asked {length : ℤ} {c' : Client} {out : List Output} (hopen : c.port.isOpen = true) (hclosing : c.port.closing = false)
      (streaming : c'.port.streaming = true) (opened : c'.port.opened = c.port.opened)
      (silent : ∀ output ∈ out, output.hooks = false) : FlowStep c (.invoke (.startReading length)) c' out
  | opened {event : NativeEvent} {c' : Client} {out : List Output} (hkind : event.kind = .opened)
      (streaming : c'.port.streaming = c.port.streaming) (opened : c'.port.opened = c.port.opened.or (some (.ok ())))
      (calling : c'.calling = c.calling) (silent : ∀ output ∈ out, output.hooks = false) :
      FlowStep c (.callback (.event event)) c' out
  | finished {event : NativeEvent} {c' : Client} {out : List Output} {result : Settlement Unit} (error : Option SerialError)
      (hkind : event.kind = .closed) (streaming : c'.port.streaming = c.port.streaming)
      (opened : c'.port.opened = c.port.opened.or (some result)) (calling : c'.calling = c.calling)
      (silent : ∀ output ∈ out, output.hooks = false) :
      FlowStep c (.callback (.event event)) c' (out ++ [.onClose error])
  | passed {i : Input} {c' : Client} (data : Buffer) (hi : i = .microtask ∨ i = .returns) (hopen : c.port.isOpen = true)
      (streaming : c'.port.streaming = c.port.streaming) (opened : c'.port.opened = c.port.opened)
      (calling : c'.calling = c.calling) : FlowStep c i c' [.data data]

theorem Passes.flowStep {i : Input} (hi : i = .microtask ∨ i = .returns) (h : c₁.Passes c' out) (hport : c₁.port = c.port)
    (hcalling : c₁.calling = c.calling) : FlowStep c i c' out := by
  cases h with
  | nothing => exact .firm (.set (congrArg BindingPort.streaming hport) (congrArg BindingPort.opened hport) hcalling hookless)
  | data data hopen =>
    have hstreaming : c₁.port.streaming = c.port.streaming := by rw [hport]
    have hopened : c₁.port.opened = c.port.opened := by rw [hport]
    exact .passed data hi (hport ▸ hopen) hstreaming hopened hcalling

theorem event_flowStep (c : Client) (event : NativeEvent) :
    FlowStep c (.callback (.event event)) (c._event event).1 (c._event event).2 := by
  unfold _event
  cases hkind : event.kind with
  | opened =>
    dsimp only
    split
    · exact .firm (.refl c)
    · refine .opened hkind rfl rfl rfl ?_
      split
      · exact hookless_singleton rfl
      · exact hookless
  | closed =>
    simp only [_finishClose]
    split
    · exact .firm (.refl c)
    · refine .finished _ hkind rfl rfl rfl fun output hmem => ?_
      rcases List.mem_append.1 hmem with hmem | hmem
      · split at hmem
        · rw [List.mem_singleton.1 hmem]
          rfl
        · cases hmem
      · obtain ⟨promise, -, rfl⟩ := List.mem_map.1 hmem
        rfl
  | read => exact .firm (settle_firm c event.id none event)
  | ok => exact .firm (settle_firm c event.id none event)
  | error => exact .firm (settle_firm c event.id (some (c.port._nativeError event)) event)

/-- **The step lemma.** -/
theorem step_flowStep {i : Input} (hstep : client.step c i = some (c', out)) : FlowStep c i c' out := by
  cases step_runs hstep with
  | invoke m hcalling =>
    have hinvoked {r : Client × List Output} (h : Firm { c with promises := c.promises + 1 } r) :
        FlowStep c (.invoke m) r.1 (.invoked c.promises :: r.2) := by
      refine .firm ⟨h.streaming, h.opened, h.crediting, fun output hmem => ?_⟩
      rcases List.mem_cons.1 hmem with rfl | hmem
      · rfl
      · exact h.silent output hmem
    cases m with
    | write buffer => exact hinvoked (write_firm _ _ _)
    | writev buffers => exact hinvoked (writev_firm _ _ _)
    | control operation value => exact hinvoked (request_firm _ _ _)
    | drain => exact hinvoked (.set rfl rfl rfl hookless)
    | readChunk length => exact hinvoked (readChunk_firm _ _ _)
    | close => exact hinvoked (close_firm _ _)
    | cancelOpen => exact hinvoked (cancelOpen_firm _)
    | startReading length =>
      obtain ⟨hopened, hsilent, hfirm | ⟨hopen, hclosing, hstreaming⟩⟩ :=
        startReading_asks { c with promises := c.promises + 1 } length
      · exact hinvoked hfirm
      · refine .asked hopen hclosing hstreaming hopened fun output hmem => ?_
        rcases List.mem_cons.1 hmem with rfl | hmem
        · rfl
        · exact hsilent output hmem
  | @answer call site answer hcalling =>
    have hanswered := answered_firm { c with calling := none } call site answer
    exact .firm ⟨hanswered.streaming, hanswered.opened, (fun h => nomatch hanswered.crediting h), hanswered.silent⟩
  | callback callback hidle =>
    cases callback with
    | failed error lost =>
      refine .firm (.set rfl rfl rfl ?_)
      dsimp only [callback]
      split
      · exact hookless_singleton rfl
      · exact hookless
    | read item =>
      obtain ⟨pendingRead, queuedReads, heq⟩ := queueRead_queues c item
      show FlowStep c _ (c.queueRead item) []
      rw [heq]
      exact .firm (.set rfl rfl rfl hookless)
    | event event => exact event_flowStep c event
  | microtask hidle => exact (deliverRead_passes _).flowStep (.inl rfl) rfl rfl
  | resume hidle htask => exact .firm ((proceed_firm _ _ _).of_eq rfl rfl rfl)
  | returns hcalling => exact (deliverBatch_passes c _).flowStep (.inr rfl) rfl rfl
  | throws hcalling => split <;> exact .firm (.set rfl rfl rfl hookless)

end Client

end NodeSerialport.Binding
