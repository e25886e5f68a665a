import NodeSerialport.Binding.Client
/-!
# What one step of the JavaScript side can do

Every method, and every rest of a method, does to the shared state of a port one of three things: nothing, one call of
`readCredit`, or one call that carries a reserved operation.

* `passed`, `credits`, `acceptances`, `settlements` — the outputs that `delivery_fifo`, `credit_replenished` and
  `requests_settle_once` count;
* `Submits` — what a call of a method does;
* `invoke_submits`, `proceed_submits`, `answered_queued`, `answered_dropped` — that it does so;
* `Passes` — what the delivery of a read touches;
* `Runs`, `step_runs` — what runs on each input.
-/

namespace NodeSerialport.Binding

open Parsers (Buffer)

/-! ### Outputs -/

def Output.data? : Output → Option Buffer
  | .data bytes => some bytes
  | _ => none

def Output.credited? : Output → Option (ℤ × ℤ)
  | .credited bytes slots => some (bytes, slots)
  | _ => none

def Output.accepted? : Output → Option (ℕ × Pending)
  | .accepted id promise ordered => some (id, ⟨promise, ordered⟩)
  | _ => none

def Output.settled? : Output → Option (ℕ × Cause)
  | .settled promise cause _ => some (promise, cause)
  | _ => none

/-- The buffers passed to `onData`. -/
def passed (outputs : List Output) : List Buffer := outputs.filterMap Output.data?

/-- The credits the native handle took. -/
def credits (outputs : List Output) : List (ℤ × ℤ) := outputs.filterMap Output.credited?

/-- The operations the native handle queued: id, promise, and whether they are ordered. -/
def acceptances (outputs : List Output) : List (ℕ × Pending) := outputs.filterMap Output.accepted?

/-- The promises of queued operations that were settled, each with its cause. -/
def settlements (outputs : List Output) : List (ℕ × Cause) := outputs.filterMap Output.settled?

@[simp] theorem passed_append (a b : List Output) : passed (a ++ b) = passed a ++ passed b :=
  List.filterMap_append

@[simp] theorem credits_append (a b : List Output) : credits (a ++ b) = credits a ++ credits b :=
  List.filterMap_append

@[simp] theorem acceptances_append (a b : List Output) : acceptances (a ++ b) = acceptances a ++ acceptances b :=
  List.filterMap_append

@[simp] theorem settlements_append (a b : List Output) : settlements (a ++ b) = settlements a ++ settlements b :=
  List.filterMap_append

/-- Outputs that none of the four lists shows. -/
structure Silent (outputs : List Output) : Prop where
  passed : passed outputs = []
  credits : credits outputs = []
  acceptances : acceptances outputs = []
  settlements : settlements outputs = []

theorem silent_nil : Silent [] := ⟨rfl, rfl, rfl, rfl⟩

theorem Silent.cons {o : Output} {outputs : List Output} (ho : Silent [o]) (h : Silent outputs) :
    Silent (o :: outputs) := by
  have hcons : o :: outputs = [o] ++ outputs := rfl
  rw [hcons]
  exact ⟨by rw [passed_append, ho.passed, h.passed]; rfl, by rw [credits_append, ho.credits, h.credits]; rfl,
    by rw [acceptances_append, ho.acceptances, h.acceptances]; rfl,
    by rw [settlements_append, ho.settlements, h.settlements]; rfl⟩

/-! ### The shared state -/

/-- The two states differ in flags, scheduled tasks and promises only. -/
structure Alike (c c' : Client) : Prop where
  pending : c'.port.pending = c.port.pending
  failure : c'.port.failure = c.port.failure
  ordered : c'.port.ordered = c.port.ordered
  nextId : c'.port.nextId = c.port.nextId
  isOpen : c'.port.isOpen = c.port.isOpen
  closing : c'.port.closing = c.port.closing
  finished : c'.port.finished = c.port.finished
  readBytes : c'.port.readBytes = c.port.readBytes
  readSlots : c'.port.readSlots = c.port.readSlots
  pendingRead : c'.pendingRead = c.pendingRead
  queuedReads : c'.queuedReads = c.queuedReads
  microtasks : c'.microtasks = c.microtasks
  onData : c'.onData = c.onData
  calling : c'.calling = c.calling
  promises : c.promises ≤ c'.promises

/-- The read queue, the credit and the records are the same; the port may have been closed. -/
structure Frame (c c' : Client) : Prop where
  pending : c'.port.pending = c.port.pending
  failure : c'.port.failure = c.port.failure
  finished : c'.port.finished = c.port.finished
  readBytes : c'.port.readBytes = c.port.readBytes
  readSlots : c'.port.readSlots = c.port.readSlots
  pendingRead : c'.pendingRead = c.pendingRead
  queuedReads : c'.queuedReads = c.queuedReads
  microtasks : c'.microtasks = c.microtasks
  onData : c'.onData = c.onData
  promises : c.promises ≤ c'.promises
  closing : c.port.closing = true → c'.port.closing = true
  isOpen : c'.port.isOpen = c.port.isOpen ∨ c'.port.isOpen = false ∧ c'.port.closing = true
  nextId : BindingPort.InRange c.port.nextId → BindingPort.InRange c'.port.nextId

/-- The operations a site reserves are ordered, except for explicit reads. -/
def Site.ordered : Site → Bool
  | .request ordered _ => ordered
  | .write _ => true
  | .credit _ _ => false

/-- What a method asks the read side for. -/
inductive Ask where
  | nothing
  | window (length : ℤ)
  | chunk
  deriving DecidableEq, Repr

def Method.asked : Method → Ask
  | .startReading length => .window length
  | .readChunk _ => .chunk
  | _ => .nothing

def Input.asked : Input → Ask
  | .invoke m => m.asked
  | _ => .nothing

/-- Which native call, if any, a method has come to; only `startReading` asks for credit, only `readChunk` for a read. -/
inductive Submission (asked : Ask) (c c' : Client) : Prop
  | none (calling : c'.calling = Option.none) (ordered : c'.port.ordered = c.port.ordered)
  | credit (length bytes slots : ℤ) (hasked : asked = .window length) (credit : c.port.credit length = some (bytes, slots))
      (calling : c'.calling = some (.readCredit bytes slots, .credit bytes slots))
      (isOpen : c.port.isOpen = true) (ordered : c'.port.ordered = c.port.ordered)
  | operation (op : Operation) (site : Site) (room : c.port.pending.length < 64) (hsite : site.ordered = op.ordered)
      (hcredit : ∀ bytes slots, site ≠ .credit bytes slots) (hasked : op.ordered = false → asked = .chunk)
      (calling : c'.calling = some (op.call c.port._id.1 (c'.port.ordered == 1), site))
      (isOpen : c.port.isOpen = true) (ordered : c'.port.ordered = c.port.ordered + if op.ordered then 1 else 0)

/-- **What a method does** before it waits or calls the native handle. -/
structure Submits (asked : Ask) (c : Client) (r : Client × List Output) : Prop where
  silent : Silent r.2
  frame : Frame c r.1
  submission : Submission asked c r.1

theorem Alike.refl (c : Client) : Alike c c :=
  ⟨rfl, rfl, rfl, rfl, rfl, rfl, rfl, rfl, rfl, rfl, rfl, rfl, rfl, rfl, le_refl _⟩

theorem Alike.frame {c c' : Client} (h : Alike c c') : Frame c c' :=
  ⟨h.pending, h.failure, h.finished, h.readBytes, h.readSlots, h.pendingRead, h.queuedReads, h.microtasks, h.onData, h.promises,
    fun hc => h.closing.trans hc, .inl h.isOpen, fun hn => h.nextId ▸ hn⟩

theorem Frame.of_alike {c c₁ c' : Client} (ha : Alike c c₁) (h : Frame c₁ c') : Frame c c' :=
  ⟨h.pending.trans ha.pending, h.failure.trans ha.failure, h.finished.trans ha.finished, h.readBytes.trans ha.readBytes,
    h.readSlots.trans ha.readSlots, h.pendingRead.trans ha.pendingRead, h.queuedReads.trans ha.queuedReads,
    h.microtasks.trans ha.microtasks, h.onData.trans ha.onData, ha.promises.trans h.promises,
    fun hc => h.closing (ha.closing.trans hc), by rw [← ha.isOpen]; exact h.isOpen,
    fun hn => h.nextId (ha.nextId.symm ▸ hn)⟩

theorem Frame.set {c c₁ : Client} (h : Frame c c₁) (tasks : List (Awaited × Task))
    (calling : Option (NativeCall × Site)) : Frame c { c₁ with tasks := tasks, calling := calling } :=
  ⟨h.pending, h.failure, h.finished, h.readBytes, h.readSlots, h.pendingRead, h.queuedReads, h.microtasks, h.onData, h.promises,
    h.closing, h.isOpen, h.nextId⟩

theorem Alike.credit {c c₁ : Client} (h : Alike c c₁) (length : ℤ) : c₁.port.credit length = c.port.credit length := by
  unfold BindingPort.credit
  rw [h.readBytes, h.readSlots]

theorem Alike._id {c c₁ : Client} (h : Alike c c₁) : c₁.port._id.1 = c.port._id.1 := by
  show BindingPort.freeId c₁.port.ids c₁.port.nextId c₁.port.ids.length = _
  unfold BindingPort.ids
  rw [h.pending, h.nextId]
  rfl

theorem Submission.of_alike {asked : Ask} {c c₁ c' : Client} (ha : Alike c c₁) (h : Submission asked c₁ c') :
    Submission asked c c' := by
  rcases h with ⟨hc, ho⟩ | ⟨length, bytes, slots, hasked, hcr, hc, hopen, ho⟩ |
    ⟨op, site, room, hsite, hcredit, hasked, hc, hopen, ho⟩
  · exact .none hc (ho.trans ha.ordered)
  · exact .credit length bytes slots hasked (by rw [← ha.credit, hcr]) hc (by rw [← ha.isOpen, hopen]) (ho.trans ha.ordered)
  · exact .operation op site (by rw [← ha.pending]; exact room) hsite hcredit hasked (by rw [← ha._id, hc])
      (by rw [← ha.isOpen, hopen]) (by rw [ho, ha.ordered])

theorem Submits.of_alike {asked : Ask} {c c₁ : Client} {r : Client × List Output} (ha : Alike c c₁)
    (h : Submits asked c₁ r) : Submits asked c r :=
  ⟨h.silent, h.frame.of_alike ha, h.submission.of_alike ha⟩

theorem Submits.of_alike_self {asked : Ask} {c c' : Client} {outputs : List Output} (hidle : c.calling = none)
    (ha : Alike c c') (ho : Silent outputs) : Submits asked c (c', outputs) :=
  ⟨ho, ha.frame, .none (ha.calling.trans hidle) ha.ordered⟩

namespace Client

variable {c : Client}

theorem silent_returned (method : ℕ) (result : Settlement (Option NativeEvent)) : Silent [.returned method result] :=
  ⟨rfl, rfl, rfl, rfl⟩

theorem silent_threw (error : SerialError) : Silent [.threw error] := ⟨rfl, rfl, rfl, rfl⟩

/-- **A reserved operation** is in the hands of the native handle, or was released. -/
theorem native_submits {asked : Ask} (hidle : c.calling = none) (hroom : c.port.pending.length < 64)
    (hopen : c.port.isOpen = true) (op : Operation) (site : Site) (hsite : site.ordered = op.ordered)
    (hcredit : ∀ bytes slots, site ≠ .credit bytes slots) (hasked : op.ordered = false → asked = .chunk) :
    Submits asked c ({ c with port := (c.port.reserve op).2 }.native (c.port.reserve op).1 site) := by
  have hcall : (c.port.reserve op).1 = op.call c.port._id.1 ((c.port.reserve op).2.ordered == 1) := rfl
  have hordered : (c.port.reserve op).2.ordered = c.port.ordered + if op.ordered then 1 else 0 := by
    show (c.port._id.2.count op.ordered).ordered = _
    unfold BindingPort.count
    split
    · rfl
    · exact (Int.add_zero _).symm
  have hframe : Frame c { c with port := (c.port.reserve op).2 } := by
    show Frame c { c with port := c.port._id.2.count op.ordered }
    unfold BindingPort.count
    split <;> exact ⟨rfl, rfl, rfl, rfl, rfl, rfl, rfl, rfl, rfl, le_refl _, id, .inl rfl, BindingPort._id_nextId_inRange⟩
  unfold native
  split
  · refine ⟨⟨rfl, rfl, rfl, rfl⟩, ?_, .operation op site hroom hsite hcredit hasked ?_ hopen hordered⟩
    · exact hframe.set _ _
    · show some ((c.port.reserve op).1, site) = _
      rw [hcall]
  · -- the handle is `null`: the exception releases the operation
    have hrelease : ((c.port.reserve op).2.release op.ordered).ordered = c.port.ordered := by
      unfold BindingPort.release
      split
      · show (c.port.reserve op).2.ordered - 1 = _
        rw [hordered, if_pos ‹_›]
        omega
      · rw [hordered, if_neg ‹_›]
        omega
    have hframe' : ∀ port : BindingPort, port = { (c.port.reserve op).2 with
        ordered := port.ordered, writing := port.writing } → Frame c { c with port := port } := by
      rintro port hport
      rw [hport]
      exact ⟨hframe.1, hframe.2, hframe.3, hframe.4, hframe.5, hframe.6, hframe.7, hframe.8, hframe.9, hframe.10,
        hframe.11, hframe.12, hframe.13⟩
    cases site with
    | request ordered task =>
      obtain rfl : ordered = op.ordered := hsite
      have hf := hframe' ((c.port.reserve op).2.release op.ordered) (by unfold BindingPort.release; split <;> rfl)
      exact ⟨silent_nil, hf.set _ _, .none hidle hrelease⟩
    | write method =>
      have hf := hframe' { (c.port.reserve op).2.release true with writing := false } rfl
      refine ⟨silent_returned _ _, hf.set _ _, .none hidle ?_⟩
      rw [← hrelease, ← hsite]
      rfl
    | credit bytes slots => exact absurd rfl (hcredit bytes slots)

theorem alike_await (c : Client) (awaited : Awaited) (task : Task) : Alike c (c.await awaited task) :=
  ⟨rfl, rfl, rfl, rfl, rfl, rfl, rfl, rfl, rfl, rfl, rfl, rfl, rfl, rfl, le_refl _⟩

theorem alike_settle (c : Client) (promise : ℕ) (result : Settlement (Option NativeEvent)) :
    Alike c (c.settle promise result) :=
  ⟨rfl, rfl, rfl, rfl, rfl, rfl, rfl, rfl, rfl, rfl, rfl, rfl, rfl, rfl, le_refl _⟩

theorem alike_promise (c : Client) : Alike c c.promise.2 :=
  ⟨rfl, rfl, rfl, rfl, rfl, rfl, rfl, rfl, rfl, rfl, rfl, rfl, rfl, rfl, Nat.le_succ _⟩

theorem request_submits {asked : Ask} (hidle : c.calling = none) (op : Operation) (task : Task)
    (hasked : op.ordered = false → asked = .chunk) : Submits asked c (c.request op task) := by
  unfold request BindingPort._request
  split
  · exact .of_alike_self hidle (alike_await c _ task) silent_nil
  · rename_i call port hreq
    split at hreq
    · cases hreq
    · rename_i hopen
      split at hreq
      · cases hreq
      · rename_i hroom
        rw [Bool.or_eq_true, not_or, Bool.not_eq_true', Bool.not_eq_false] at hopen
        obtain ⟨rfl, rfl⟩ : (c.port.reserve op).1 = call ∧ (c.port.reserve op).2 = port := by
          have := Except.ok.inj hreq
          exact ⟨congrArg Prod.fst this, congrArg Prod.snd this⟩
        exact native_submits hidle (by omega) hopen.1 op _ rfl (fun _ _ h => nomatch h) hasked

theorem nextBatch_submits (hidle : c.calling = none) (rest : List Batch) (promise : ℕ) :
    Submits .nothing c (c.nextBatch rest promise) := by
  cases rest with
  | nil => exact .of_alike_self hidle (alike_settle c promise _) silent_nil
  | cons batch rest =>
    refine request_submits hidle _ _ fun hordered => ?_
    unfold Batch.operation at hordered
    split at hordered <;> cases hordered

theorem writev_submits (hidle : c.calling = none) (method : ℕ) (buffers : List JsBuffer) :
    Submits .nothing c (c.writev method buffers) := by
  unfold writev
  split
  · exact .of_alike_self hidle (.refl c) (silent_returned _ _)
  · split
    · exact .of_alike_self hidle (.refl c) (silent_returned _ _)
    · refine Submits.of_alike ?_ (nextBatch_submits (c := (_ : Client)) ?_ _ _)
      · exact ⟨rfl, rfl, rfl, rfl, rfl, rfl, rfl, rfl, rfl, rfl, rfl, rfl, rfl, rfl, Nat.le_succ _⟩
      · exact hidle

theorem write_submits (hidle : c.calling = none) (method : ℕ) (buffer : JsBuffer) :
    Submits .nothing c (c.write method buffer) := by
  unfold write
  split
  · exact writev_submits hidle _ _
  · split
    · exact .of_alike_self hidle (.refl c) (silent_returned _ _)
    · rename_i hopen
      rw [Bool.or_eq_true, not_or, Bool.not_eq_true', Bool.not_eq_false] at hopen
      split
      · exact .of_alike_self hidle (.refl c) (silent_returned _ _)
      · dsimp only
        split
        · refine .of_alike_self hidle ?_ silent_nil
          exact ⟨rfl, rfl, rfl, rfl, rfl, rfl, rfl, rfl, rfl, rfl, rfl, rfl, rfl, rfl, le_refl _⟩
        · split
          · refine .of_alike_self hidle ?_ (silent_returned _ _)
            exact ⟨rfl, rfl, rfl, rfl, rfl, rfl, rfl, rfl, rfl, rfl, rfl, rfl, rfl, rfl, le_refl _⟩
          · rename_i hroom
            set c₁ : Client := { c with port := { c.port with writePromise := some .RESOLVED, writing := true } } with hc₁
            have ha : Alike c c₁ := ⟨rfl, rfl, rfl, rfl, rfl, rfl, rfl, rfl, rfl, rfl, rfl, rfl, rfl, rfl, le_refl _⟩
            exact (native_submits (c := c₁) hidle (Nat.lt_of_not_le hroom) hopen.1 (.write buffer) (.write method) rfl
              (fun _ _ h => nomatch h) (fun h => nomatch h)).of_alike ha

theorem readChunk_submits (hidle : c.calling = none) (method : ℕ) (length : ℤ) :
    Submits .chunk c (c.readChunk method length) := by
  unfold readChunk
  split
  · exact .of_alike_self hidle (.refl c) (silent_returned _ _)
  · split
    · exact .of_alike_self hidle (.refl c) (silent_returned _ _)
    · refine Submits.of_alike ?_ (request_submits (c := (_ : Client)) ?_ _ _ fun _ => rfl)
      · exact ⟨rfl, rfl, rfl, rfl, rfl, rfl, rfl, rfl, rfl, rfl, rfl, rfl, rfl, rfl, le_refl _⟩
      · exact hidle

theorem startReading_submits (hidle : c.calling = none) (length : ℤ) :
    Submits (.window length) c (c.startReading length) := by
  unfold startReading
  split
  · exact .of_alike_self hidle (.refl c) (silent_threw _)
  · rename_i hopen
    rw [Bool.or_eq_true, not_or, Bool.not_eq_true', Bool.not_eq_false] at hopen
    split
    · exact .of_alike_self hidle (.refl c) (silent_threw _)
    · dsimp only
      have ha : Alike c { c with port := { c.port with streaming := true } } :=
        ⟨rfl, rfl, rfl, rfl, rfl, rfl, rfl, rfl, rfl, rfl, rfl, rfl, rfl, rfl, le_refl _⟩
      split
      · exact .of_alike_self hidle ha silent_nil
      · rename_i bytes slots hcredit
        rw [ha.credit] at hcredit
        unfold native
        split
        · exact ⟨⟨rfl, rfl, rfl, rfl⟩, ha.frame.set _ _, .credit length bytes slots rfl hcredit rfl hopen.1 rfl⟩
        · exact .of_alike_self hidle ha (silent_threw _)

theorem close_submits (hidle : c.calling = none) (method : ℕ) : Submits .nothing c (c.close method) := by
  unfold close
  split
  · exact .of_alike_self hidle (.refl c) (silent_returned _ _)
  · dsimp only
    split
    · exact ⟨⟨rfl, rfl, rfl, rfl⟩, ⟨rfl, rfl, rfl, rfl, rfl, rfl, rfl, rfl, rfl, le_refl _, fun _ => rfl, .inr ⟨rfl, rfl⟩, id⟩,
        .none hidle rfl⟩
    · exact ⟨silent_returned _ _, ⟨rfl, rfl, rfl, rfl, rfl, rfl, rfl, rfl, rfl, le_refl _, fun _ => rfl, .inr ⟨rfl, rfl⟩, id⟩,
        .none hidle rfl⟩

theorem cancelOpen_submits (hidle : c.calling = none) : Submits .nothing c c.cancelOpen := by
  refine ⟨?_, ⟨rfl, rfl, rfl, rfl, rfl, rfl, rfl, rfl, rfl, le_refl _, fun _ => rfl, .inl rfl, id⟩, .none hidle rfl⟩
  unfold cancelOpen
  split <;> exact ⟨rfl, rfl, rfl, rfl⟩

/-- **What a call of a method does.** -/
theorem invoke_submits (hidle : c.calling = none) (m : Method) : Submits m.asked c (c.invoke m) := by
  refine Submits.of_alike (alike_promise c) ?_
  have hidle' : c.promise.2.calling = none := hidle
  cases m with
  | write buffer => exact write_submits hidle' _ buffer
  | writev buffers => exact writev_submits hidle' _ buffers
  | control operation value => exact request_submits hidle' _ _ fun h => nomatch h
  | drain => exact .of_alike_self hidle' (alike_await _ _ _) silent_nil
  | readChunk length => exact readChunk_submits hidle' _ length
  | startReading length => exact startReading_submits hidle' length
  | close => exact close_submits hidle' _
  | cancelOpen => exact cancelOpen_submits hidle'

/-- **What the rest of a method does** after its `await`. -/
theorem proceed_submits (hidle : c.calling = none) (task : Task) (result : Settlement (Option NativeEvent)) :
    Submits .nothing c (c.proceed task result) := by
  have hport : ∀ port : BindingPort, port = { c.port with
      reading := port.reading, writing := port.writing, native := port.native } → Alike c { c with port := port } := by
    rintro port hport
    rw [hport]
    exact ⟨rfl, rfl, rfl, rfl, rfl, rfl, rfl, rfl, rfl, rfl, rfl, rfl, rfl, rfl, le_refl _⟩
  cases task with
  | method method => exact .of_alike_self hidle (.refl c) (silent_returned _ _)
  | readChunk method => exact .of_alike_self hidle (hport _ rfl) (silent_returned _ _)
  | write method => exact .of_alike_self hidle (hport _ rfl) (silent_returned _ _)
  | batches rest promise =>
    cases result with
    | error error => exact .of_alike_self hidle (alike_settle c _ _) silent_nil
    | ok event => exact nextBatch_submits hidle rest promise
  | drain method =>
    cases result with
    | error error => exact .of_alike_self hidle (.refl c) (silent_returned _ _)
    | ok event => exact request_submits hidle _ _ fun h => nomatch h
  | close method => exact .of_alike_self hidle (hport _ rfl) (silent_returned _ _)

/-! ### Answers of the native handle -/

/-- The record and the promise of a queued operation. -/
def recorded (c : Client) (id : ℕ) (ordered : Bool) : Client :=
  { c with port := c.port.record id c.promises ordered, promises := c.promises + 1, calling := none }

/-- **An operation that was queued** gets a record and a promise. -/
theorem answered_queued (call : NativeCall) {site : Site} (hsite : ∀ bytes slots, site ≠ .credit bytes slots) :
    Alike (c.recorded call.id site.ordered) ({ c with calling := none }.answered call site .queued).1 ∧
      ({ c with calling := none }.answered call site .queued).2 = [.accepted call.id c.promises site.ordered] := by
  cases site with
  | request ordered task =>
    exact ⟨⟨rfl, rfl, rfl, rfl, rfl, rfl, rfl, rfl, rfl, rfl, rfl, rfl, rfl, rfl, le_refl _⟩, rfl⟩
  | write method => exact ⟨⟨rfl, rfl, rfl, rfl, rfl, rfl, rfl, rfl, rfl, rfl, rfl, rfl, rfl, rfl, le_refl _⟩, rfl⟩
  | credit bytes slots => exact absurd rfl (hsite bytes slots)

theorem frame_release (c : Client) (ordered : Bool) : Frame c { c with port := c.port.release ordered } := by
  unfold BindingPort.release
  split <;> exact ⟨rfl, rfl, rfl, rfl, rfl, rfl, rfl, rfl, rfl, le_refl _, id, .inl rfl, id⟩

/-- **An operation that was refused, or done at once**, leaves no record. -/
theorem answered_dropped (call : NativeCall) {site : Site} {answer : Answer}
    (hsite : ∀ bytes slots, site ≠ .credit bytes slots) (ha : answer ≠ .queued) :
    Silent ({ c with calling := none }.answered call site answer).2 ∧
      Frame c ({ c with calling := none }.answered call site answer).1 ∧
      ({ c with calling := none }.answered call site answer).1.calling = none := by
  cases site with
  | credit bytes slots => exact absurd rfl (hsite bytes slots)
  | request ordered task =>
    cases answer with
    | queued => exact absurd rfl ha
    | thrown error => exact ⟨silent_nil, (frame_release c ordered).set _ _, rfl⟩
    | completed => exact ⟨silent_nil, (frame_release c true).set _ _, rfl⟩
  | write method =>
    cases answer with
    | queued => exact absurd rfl ha
    | thrown error =>
      exact ⟨silent_returned _ _, ⟨rfl, rfl, rfl, rfl, rfl, rfl, rfl, rfl, rfl, le_refl _, id, .inl rfl, id⟩, rfl⟩
    | completed => exact ⟨silent_nil, (frame_release c true).set _ _, rfl⟩

theorem answered_dropped_ordered (call : NativeCall) {site : Site} {answer : Answer}
    (hsite : ∀ bytes slots, site ≠ .credit bytes slots) (ha : answer ≠ .queued)
    (hcompleted : answer = .completed → site.ordered = true) :
    ({ c with calling := none }.answered call site answer).1.port.ordered =
      c.port.ordered - if site.ordered then 1 else 0 := by
  have hrelease : ∀ ordered, (c.port.release ordered).ordered = c.port.ordered - if ordered then 1 else 0 := by
    intro ordered
    unfold BindingPort.release
    cases ordered
    · exact (Int.sub_zero _).symm
    · rfl
  cases site with
  | credit bytes slots => exact absurd rfl (hsite bytes slots)
  | request ordered task =>
    cases answer with
    | queued => exact absurd rfl ha
    | thrown error => exact hrelease ordered
    | completed =>
      rw [hcompleted rfl]
      exact hrelease true
  | write method =>
    cases answer with
    | queued => exact absurd rfl ha
    | thrown error => exact hrelease true
    | completed => exact hrelease true

/-! ### Reads -/

/-- What `_deliverBatch` and `deliverRead` touch: the read queue, and the credit of the one buffer they pass on. -/
inductive Passes (c : Client) : Client → List Output → Prop
  | nothing {pendingRead : Option Item} {queuedReads : Option (List Item)} {onData : Option (List Buffer)} :
      Passes c { c with pendingRead := pendingRead, queuedReads := queuedReads, onData := onData } []
  | data {pendingRead : Option Item} {queuedReads : Option (List Item)} {rest : List Buffer} (data : Buffer)
      (hopen : c.port.isOpen = true) :
      Passes c { c with
        port := c.port.debit data, pendingRead := pendingRead, queuedReads := queuedReads, onData := some rest } [.data data]

theorem deliverBatch_passes (c : Client) (events : List Buffer) :
    Passes c (c._deliverBatch events).1 (c._deliverBatch events).2 := by
  unfold _deliverBatch
  split
  · exact .nothing
  · split
    · rename_i hopen
      exact .data _ hopen
    · exact .nothing

theorem Passes.of_queue {c c' : Client} {pendingRead : Option Item} {queuedReads : Option (List Item)}
    {outputs : List Output} (h : Passes { c with pendingRead := pendingRead, queuedReads := queuedReads } c' outputs) :
    Passes c c' outputs := by
  cases h with
  | nothing => exact .nothing
  | data data hopen => exact .data data hopen

theorem deliverRead_passes (c : Client) : Passes c c.deliverRead.1 c.deliverRead.2 := by
  unfold deliverRead
  cases c.pendingRead with
  | none => exact .nothing
  | some item =>
    cases item with
    | buffer data =>
      dsimp only
      split
      · rename_i hopen
        exact .data data hopen
      · exact .nothing
    | batch events => exact .of_queue (deliverBatch_passes _ events)

theorem queueRead_queues (c : Client) (item : Item) : ∃ pendingRead queuedReads, c.queueRead item = { c with
    microtasks := c.microtasks + 1, pendingRead := pendingRead, queuedReads := queuedReads } := by
  unfold queueRead
  dsimp only
  split <;> exact ⟨_, _, rfl⟩

/-! ### Steps -/

theorem idle_calling (h : c.idle = true) : c.calling = none := by
  rw [idle, Bool.and_eq_true] at h
  exact Option.isNone_iff_eq_none.1 h.2

/-- **What runs on each input**, and when it may. -/
inductive Runs (c : Client) : Input → Client → List Output → Prop
  | invoke (m : Method) (hcalling : c.calling = none) :
      Runs c (.invoke m) (c.invoke m).1 (.invoked c.promises :: (c.invoke m).2)
  | answer {call : NativeCall} {site : Site} (answer : Answer) (hcalling : c.calling = some (call, site))
      (hmay : answer = .completed → call.mayComplete = true) :
      Runs c (.answer answer) ({ c with calling := none }.answered call site answer).1
        ({ c with calling := none }.answered call site answer).2
  | callback (callback : Callback) (hidle : c.idle = true) :
      Runs c (.callback callback) (c.callback callback).1 (c.callback callback).2
  | microtask (hidle : c.idle = true) (hmicrotasks : 0 < c.microtasks) :
      Runs c .microtask ({ c with microtasks := c.microtasks - 1 }.deliverRead).1
        ({ c with microtasks := c.microtasks - 1 }.deliverRead).2
  | resume {index : ℕ} {awaited : Awaited} {task : Task} {result : Settlement (Option NativeEvent)} (hidle : c.idle = true)
      (htask : c.tasks[index]? = some (awaited, task)) (hresult : c.result awaited = some result) :
      Runs c (.resume index) ({ c with tasks := c.tasks.eraseIdx index }.proceed task result).1
        ({ c with tasks := c.tasks.eraseIdx index }.proceed task result).2
  | returns {rest : List Buffer} (hcalling : c.calling = none) (h : c.onData = some rest) :
      Runs c .returns (c._deliverBatch rest).1 (c._deliverBatch rest).2
  | throws {rest : List Buffer} (hcalling : c.calling = none) (h : c.onData = some rest) :
      Runs c .throws (if rest ≠ [] ∧ c.port.isOpen then { c with onData := none }.retainRead rest
        else { c with onData := none }) []

/-- Nothing else runs. -/
theorem step_runs {i : Input} {c' : Client} {outputs : List Output} (h : c.step i = some (c', outputs)) :
    Runs c i c' outputs := by
  cases i with
  | invoke m =>
    rw [step] at h
    split at h
    · rename_i hcalling
      cases h
      exact .invoke m (Option.isNone_iff_eq_none.1 hcalling)
    · cases h
  | answer answer =>
    rw [step] at h
    split at h
    · cases h
    · rename_i call site hcalling
      split at h
      · cases h
      · rename_i hmay
        obtain ⟨rfl, rfl⟩ := Prod.mk.inj (Option.some.inj h)
        refine .answer answer hcalling fun ha => ?_
        by_contra hno
        exact hmay ⟨ha, by simpa using hno⟩
  | callback callback =>
    rw [step] at h
    split at h
    · rename_i hidle
      obtain ⟨rfl, rfl⟩ := Prod.mk.inj (Option.some.inj h)
      exact .callback callback hidle
    · cases h
  | microtask =>
    rw [step] at h
    split at h
    · rename_i hidle
      rw [Bool.and_eq_true, decide_eq_true_eq] at hidle
      obtain ⟨rfl, rfl⟩ := Prod.mk.inj (Option.some.inj h)
      exact .microtask hidle.1 hidle.2
    · cases h
  | resume index =>
    rw [step] at h
    split at h
    · cases h
    · rename_i awaited task htask
      split at h
      · cases h
      · rename_i result hresult
        split at h
        · rename_i hidle
          obtain ⟨rfl, rfl⟩ := Prod.mk.inj (Option.some.inj h)
          exact .resume hidle htask hresult
        · cases h
  | returns =>
    rw [step] at h
    split at h
    · cases h
    · rename_i rest hrest
      split at h
      · rename_i hcalling
        obtain ⟨rfl, rfl⟩ := Prod.mk.inj (Option.some.inj h)
        exact .returns (Option.isNone_iff_eq_none.1 hcalling) hrest
      · cases h
  | throws =>
    rw [step] at h
    split at h
    · cases h
    · rename_i rest hrest
      split at h
      · rename_i hcalling
        cases h
        exact .throws (Option.isNone_iff_eq_none.1 hcalling) hrest
      · cases h

/-- **What a step can do.** -/
inductive Stepped (c : Client) : Input → Client → List Output → Prop
  | method {i : Input} {c' : Client} {outputs : List Output} (hi : (∃ m, i = .invoke m) ∨ ∃ index, i = .resume index)
      (hcalling : c.calling = none) (h : Submits i.asked c (c', outputs)) : Stepped c i c' outputs
  | dropped {answer : Answer} {call : NativeCall} {site : Site} {c' : Client} {outputs : List Output}
      (hcalling : c.calling = some (call, site)) (hsite : ∀ bytes slots, site ≠ .credit bytes slots)
      (ha : answer ≠ .queued) (hmay : answer = .completed → call.mayComplete = true)
      (h : c' = ({ c with calling := none }.answered call site answer).1)
      (houtputs : outputs = ({ c with calling := none }.answered call site answer).2) :
      Stepped c (.answer answer) c' outputs
  | queued {call : NativeCall} {site : Site} {c' : Client} (hcalling : c.calling = some (call, site))
      (hsite : ∀ bytes slots, site ≠ .credit bytes slots) (h : Alike (c.recorded call.id site.ordered) c') :
      Stepped c (.answer .queued) c' [.accepted call.id c.promises site.ordered]
  | creditRefused {error : SerialError} {call : NativeCall} {bytes slots : ℤ}
      (hcalling : c.calling = some (call, .credit bytes slots)) :
      Stepped c (.answer (.thrown error)) { c with calling := none } [.threw error]
  | creditTaken {answer : Answer} {call : NativeCall} {bytes slots : ℤ}
      (hcalling : c.calling = some (call, .credit bytes slots)) (ha : ∀ error, answer ≠ .thrown error) :
      Stepped c (.answer answer) { c with calling := none, port := c.port.topUp bytes slots } [.credited bytes slots]
  | failed {error : SerialError} {lost : List Buffer} {outputs : List Output} (hidle : c.idle = true)
      (houtputs : Silent outputs) :
      Stepped c (.callback (.failed error lost)) { c with port := { c.port with failure := some error } } outputs
  | read {item : Item} (hidle : c.idle = true) : Stepped c (.callback (.read item)) (c.queueRead item) []
  | event {event : NativeEvent} (hidle : c.idle = true) :
      Stepped c (.callback (.event event)) (c._event event).1 (c._event event).2
  | microtask (hidle : c.idle = true) (hmicrotasks : 0 < c.microtasks) :
      Stepped c .microtask ({ c with microtasks := c.microtasks - 1 }.deliverRead).1
        ({ c with microtasks := c.microtasks - 1 }.deliverRead).2
  | returns {rest : List Buffer} (hcalling : c.calling = none) (h : c.onData = some rest) :
      Stepped c .returns (c._deliverBatch rest).1 (c._deliverBatch rest).2
  | throws {rest : List Buffer} (hcalling : c.calling = none) (h : c.onData = some rest) :
      Stepped c .throws (if rest ≠ [] ∧ c.port.isOpen then { c with onData := none }.retainRead rest
        else { c with onData := none }) []

theorem step_stepped {i : Input} {c' : Client} {outputs : List Output} (h : client.step c i = some (c', outputs)) :
    Stepped c i c' outputs := by
  cases step_runs h with
  | invoke m hcalling =>
    have hsub := invoke_submits hcalling m
    exact .method (.inl ⟨m, rfl⟩) hcalling
      ⟨Silent.cons ⟨rfl, rfl, rfl, rfl⟩ hsub.silent, hsub.frame, hsub.submission⟩
  | @answer call site answer hcalling hmay =>
    by_cases hsite : ∀ bytes slots, site ≠ .credit bytes slots
    · by_cases ha : answer = .queued
      · subst ha
        obtain ⟨hrecorded, hout⟩ := answered_queued (c := c) call hsite
        rw [hout]
        exact .queued hcalling hsite hrecorded
      · exact .dropped hcalling hsite ha hmay rfl rfl
    · simp only [not_forall, not_not] at hsite
      obtain ⟨bytes, slots, rfl⟩ := hsite
      cases answer with
      | thrown error => exact .creditRefused hcalling
      | completed => exact .creditTaken hcalling (fun _ h => nomatch h)
      | queued => exact .creditTaken hcalling (fun _ h => nomatch h)
  | callback callback hidle =>
    cases callback with
    | failed error lost =>
      refine .failed hidle ?_
      dsimp only [Client.callback]
      split <;> exact ⟨rfl, rfl, rfl, rfl⟩
    | read item => exact .read hidle
    | event event => exact .event hidle
  | microtask hidle hmicrotasks => exact .microtask hidle hmicrotasks
  | @resume index awaited task result hidle htask hresult =>
    have hcalling := idle_calling hidle
    have ha : Alike c { c with tasks := c.tasks.eraseIdx index } :=
      ⟨rfl, rfl, rfl, rfl, rfl, rfl, rfl, rfl, rfl, rfl, rfl, rfl, rfl, rfl, le_refl _⟩
    exact .method (.inr ⟨index, rfl⟩) hcalling ((proceed_submits (c := { c with tasks := c.tasks.eraseIdx index }) hcalling task result).of_alike ha)
  | returns hcalling hrest => exact .returns hcalling hrest
  | throws hcalling hrest => exact .throws hcalling hrest

end Client

end NodeSerialport.Binding
