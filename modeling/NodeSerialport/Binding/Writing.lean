import NodeSerialport.Binding.Steps
/-!
# Writes

A port has at most one write in progress.  `write` and `writev` are spread over several steps: a call of the native
handle, the loop over the batches, and the wait for `_writePromise`.  An abstract state says where the write is.

* `Writer` — where the write in progress is;
* `Client.At` — the port is in that state;
* `Aside` — what leaves it alone;
* `WriterStep`, `step_writer` — what one step of the port does to it.
-/

namespace NodeSerialport.Binding

open Parsers (Buffer)

/-! ### The abstract state -/

/-- Where the loop of `writev` is: in a call of the native handle, or waiting for a batch. -/
inductive Stage where
  | calling (batch : Batch)
  | awaiting (awaited : Awaited)

/-- **The write in progress**, if there is one. -/
inductive Writer where
  | idle
  /-- `write`, in its call of the native handle. -/
  | submitting (method : ℕ) (buffer : JsBuffer)
  /-- `write` or `writev`, waiting for `_writePromise`. -/
  | waiting (method : ℕ) (awaited : Awaited)
  /-- The loop of `writev`, with the batches it still has to submit. -/
  | batching (method promise : ℕ) (rest : List Batch) (stage : Stage)

namespace Writer

def busy : Writer → Bool
  | idle => false
  | _ => true

/-- The tasks of the write. -/
def tasks : Writer → List (Awaited × Task)
  | idle | submitting .. => []
  | waiting method awaited => [(awaited, .write method)]
  | batching method promise _ (.calling _) => [(.promise promise, .write method)]
  | batching method promise rest (.awaiting awaited) =>
    [(.promise promise, .write method), (awaited, .batches rest promise)]

/-- The call of the native handle the write is in, if it is in one. -/
def calls (w : Writer) (calling : Option (NativeCall × Site)) : Prop :=
  match w with
  | submitting method buffer => ∃ id inline, calling = some (.write id buffer.bytes inline, .write method)
  | batching _ promise rest (.calling batch) =>
    ∃ id inline, calling = some (batch.operation.call id inline, .request true (.batches rest promise))
  | _ => calling = none

/-- What `_writePromise` holds. -/
def promise : Writer → Option Awaited
  | idle => none
  | submitting .. => some .RESOLVED
  | waiting _ awaited => some awaited
  | batching _ promise _ _ => some (.promise promise)

end Writer

/-! ### The port in an abstract state -/

def Task.writes : Task → Bool
  | .write _ | .batches .. => true
  | _ => false

def Site.writes : Site → Bool
  | .write _ => true
  | .request _ task => task.writes
  | .credit .. => false

namespace Client

/-- The tasks of writes. -/
def writers (c : Client) : List (Awaited × Task) := c.tasks.filter (·.2.writes)

/-- A write in a call of the native handle. -/
def writing (c : Client) : Option (NativeCall × Site) := c.calling.filter (·.2.writes)

/-- A promise that was made, and that only its own function can settle. -/
structure Unsettled (c : Client) (p : ℕ) : Prop where
  pos : 0 < p
  made : p < c.promises
  result : c.results.lookup p = none
  fresh : ∀ record ∈ c.port.pending, record.2.promise ≠ p

/-- The promises of the results and of the records were made. -/
structure Made (c : Client) : Prop where
  pos : 0 < c.promises
  results : ∀ result ∈ c.results, result.1 < c.promises
  pending : ∀ record ∈ c.port.pending, record.2.promise < c.promises

/-- **The write of the port is in this state.** -/
structure At (c : Client) (w : Writer) : Prop where
  made : Made c
  busy : c.port.writing = w.busy
  tasks : c.writers = w.tasks
  calls : w.calls c.writing
  promise : w.busy = true → c.port.writePromise = w.promise
  /-- What `_writePromise` holds between two writes is settled. -/
  settled : w.busy = false → ∀ awaited, c.port.writePromise = some awaited → (c.result awaited).isSome = true
  unsettled : ∀ method promise rest stage, w = .batching method promise rest stage → c.Unsettled promise

theorem At.start (path : String) (nextId : ℕ) : At (Client.new path nextId) .idle := by
  refine ⟨⟨Nat.one_pos, fun _ h => ?_, fun _ h => ?_⟩, rfl, rfl, rfl, fun h => ?_, fun _ awaited h => ?_,
    fun method promise rest stage h => ?_⟩
  all_goals cases h

theorem At.of_busy {c : Client} {w : Writer} (made : c.Made) (hw : w.busy = true) (busy : c.port.writing = true)
    (tasks : c.writers = w.tasks) (calls : w.calls c.writing) (promise : c.port.writePromise = w.promise)
    (unsettled : ∀ method promise rest stage, w = .batching method promise rest stage → c.Unsettled promise) : c.At w :=
  ⟨made, busy.trans hw.symm, tasks, calls, fun _ => promise, fun hidle => absurd (hw.symm.trans hidle) nofun, unsettled⟩

theorem At.of_idle {c : Client} (made : c.Made) (busy : c.port.writing = false) (tasks : c.writers = [])
    (calls : c.writing = none) (settled : ∀ awaited, c.port.writePromise = some awaited → (c.result awaited).isSome = true) : c.At .idle :=
  ⟨made, busy, tasks, calls, (fun h => nomatch h), fun _ => settled, (fun _ _ _ _ h => nomatch h)⟩

end Client

/-! ### What leaves the write alone -/

/-- **The write is left alone.** -/
structure Aside (c c' : Client) : Prop where
  made : c.Made → c'.Made
  writing : c'.port.writing = c.port.writing
  writePromise : c'.port.writePromise = c.port.writePromise
  writers : c'.writers = c.writers
  calls : c'.writing = c.writing
  result : ∀ awaited result, c.result awaited = some result → c'.result awaited = some result
  unsettled : ∀ p, c.Unsettled p → c'.Unsettled p

namespace Aside

variable {c c₁ c' : Client}

theorem refl (c : Client) : Aside c c := ⟨id, rfl, rfl, rfl, rfl, fun _ _ h => h, fun _ h => h⟩

theorem trans (h : Aside c c₁) (h' : Aside c₁ c') : Aside c c' :=
  ⟨fun hm => h'.made (h.made hm), h'.writing.trans h.writing, h'.writePromise.trans h.writePromise, h'.writers.trans h.writers,
    h'.calls.trans h.calls, fun a r hr => h'.result a r (h.result a r hr), fun p hp => h'.unsettled p (h.unsettled p hp)⟩

end Aside

theorem Client.At.aside {c c' : Client} {w : Writer} (h : c.At w) (ha : Aside c c') : c'.At w := by
  refine ⟨ha.made h.made, ha.writing.trans h.busy, ha.writers.trans h.tasks, ?_, ?_, ?_, ?_⟩
  · rw [ha.calls]
    exact h.calls
  · rw [ha.writePromise]
    exact h.promise
  · intro hidle awaited hawaited
    rw [ha.writePromise] at hawaited
    obtain ⟨result, hresult⟩ := Option.isSome_iff_exists.1 (h.settled hidle awaited hawaited)
    rw [ha.result _ _ hresult]
    rfl
  · exact fun method promise rest stage hw => ha.unsettled _ (h.unsettled _ _ _ _ hw)

namespace Client

variable {c c₁ c' : Client}

/-! ### Tasks -/

theorem writers_snoc (c : Client) (awaited : Awaited) {task : Task} (h : task.writes = false) :
    (c.await awaited task).writers = c.writers := by
  show (c.tasks ++ [(awaited, task)]).filter _ = _
  rw [List.filter_append, List.filter_cons_of_neg (by simpa using h)]
  exact List.append_nil _

theorem await_aside (c : Client) (awaited : Awaited) {task : Task} (h : task.writes = false) :
    Aside c (c.await awaited task) :=
  ⟨fun h => ⟨h.1, h.2, h.3⟩, rfl, rfl, writers_snoc c awaited h, rfl, fun a r hr => by cases a <;> exact hr,
    fun p hp => ⟨hp.1, hp.2, hp.3, hp.4⟩⟩

theorem eraseIdx_split {α : Type*} {tasks : List α} {index : ℕ} {task : α} (h : tasks[index]? = some task) :
    ∃ before after, tasks = before ++ task :: after ∧ tasks.eraseIdx index = before ++ after := by
  obtain ⟨hlt, heq⟩ := List.getElem?_eq_some_iff.1 h
  refine ⟨tasks.take index, tasks.drop (index + 1), ?_, List.eraseIdx_eq_take_drop_succ tasks index⟩
  rw [← heq, List.getElem_cons_drop, List.take_append_drop]

theorem erase_aside {index : ℕ} {awaited : Awaited} {task : Task} (h : c.tasks[index]? = some (awaited, task))
    (hwrites : task.writes = false) : Aside c { c with tasks := c.tasks.eraseIdx index } := by
  obtain ⟨before, after, htasks, herase⟩ := eraseIdx_split h
  refine ⟨fun h => ⟨h.1, h.2, h.3⟩, rfl, rfl, ?_, rfl, fun a r hr => by cases a <;> exact hr,
    fun p hp => ⟨hp.1, hp.2, hp.3, hp.4⟩⟩
  show (c.tasks.eraseIdx index).filter _ = c.tasks.filter _
  rw [herase, htasks, List.filter_append, List.filter_append, List.filter_cons_of_neg (by simpa using hwrites)]

/-! ### Requests -/

/-- The two ports differ in what a request reserves or releases. -/
structure SamePort (p p' : BindingPort) : Prop where
  pending : p'.pending = p.pending
  writing : p'.writing = p.writing
  writePromise : p'.writePromise = p.writePromise

theorem SamePort.refl (p : BindingPort) : SamePort p p := ⟨rfl, rfl, rfl⟩

theorem reserve_samePort (p : BindingPort) (op : Operation) : SamePort p (p.reserve op).2 := by
  unfold BindingPort.reserve BindingPort.count
  dsimp only
  split <;> exact ⟨rfl, rfl, rfl⟩

theorem release_samePort (p : BindingPort) (ordered : Bool) : SamePort p (p.release ordered) := by
  unfold BindingPort.release
  split <;> exact ⟨rfl, rfl, rfl⟩

theorem SamePort.trans {p p₁ p' : BindingPort} (h : SamePort p p₁) (h' : SamePort p₁ p') : SamePort p p' :=
  ⟨h'.pending.trans h.pending, h'.writing.trans h.writing, h'.writePromise.trans h.writePromise⟩

/-- **A request** calls the native handle, or its task waits for a promise that is rejected already. -/
theorem request_cases (c : Client) (op : Operation) (task : Task) :
    (∃ id inline port, SamePort c.port port ∧ c.request op task =
      ({ c with port := port, calling := some (op.call id inline, .request op.ordered task) }, [.called (op.call id inline)])) ∨
    ∃ error port, SamePort c.port port ∧ c.request op task =
      (({ c with port := port } : Client).await (.settled (.error error)) task, []) := by
  unfold request BindingPort._request
  split
  · exact .inr ⟨_, c.port, .refl _, rfl⟩
  · rename_i call port hrequest
    split at hrequest
    · cases hrequest
    · split at hrequest
      · cases hrequest
      · obtain ⟨rfl, rfl⟩ := Prod.mk.inj (Except.ok.inj hrequest)
        have hsame := reserve_samePort c.port op
        unfold native
        split
        · exact .inl ⟨_, _, _, hsame, rfl⟩
        · exact .inr ⟨_, _, hsame.trans (release_samePort _ op.ordered), rfl⟩

theorem aside_of_samePort (hport : SamePort c.port c'.port) (hwriters : c'.writers = c.writers)
    (hcalls : c'.writing = c.writing) (hresults : c'.results = c.results) (hpromises : c.promises ≤ c'.promises) :
    Aside c c' := by
  refine ⟨?_, hport.writing, hport.writePromise, hwriters, hcalls, ?_, ?_⟩
  · rintro ⟨hpos, hmade, hpending⟩
    refine ⟨hpos.trans_le hpromises, fun result hmem => ?_, fun record hmem => ?_⟩
    · rw [hresults] at hmem
      exact (hmade result hmem).trans_le hpromises
    · rw [hport.pending] at hmem
      exact (hpending record hmem).trans_le hpromises
  · intro awaited result hresult
    cases awaited with
    | settled => exact hresult
    | promise index =>
      show c'.results.lookup index = _
      rw [hresults]
      exact hresult
  · rintro p ⟨hpos, hmade, hnone, hfresh⟩
    refine ⟨hpos, hmade.trans_le hpromises, hresults ▸ hnone, ?_⟩
    rw [hport.pending]
    exact hfresh

theorem writing_none (h : c.calling = none) : c.writing = none := by
  unfold writing
  rw [h]
  rfl

theorem request_aside (hcalling : c.calling = none) (op : Operation) {task : Task} (h : task.writes = false) :
    Aside c (c.request op task).1 := by
  rcases request_cases c op task with ⟨id, inline, port, hport, heq⟩ | ⟨error, port, hport, heq⟩
  · rw [heq]
    refine aside_of_samePort hport rfl ?_ rfl (le_refl _)
    rw [writing_none hcalling]
    show Option.filter _ (some (_, Site.request op.ordered task)) = none
    rw [Option.filter_some, if_neg]
    show ¬task.writes = true
    rw [h]
    nofun
  · rw [heq]
    have hset : Aside c { c with port := port } := aside_of_samePort hport rfl rfl rfl (le_refl _)
    exact hset.trans (await_aside _ _ h)

/-! ### The loop of `writev` -/

theorem operation_ordered_batch (batch : Batch) : batch.operation.ordered = true := by
  unfold Batch.operation
  split <;> rfl

/-- **The loop goes on** with the next batch, or ends. -/
inductive Advances (c' : Client) (method promise : ℕ) : List Batch → Writer → Prop
  | done (h : c'.result (.promise promise) = some (.ok none)) :
      Advances c' method promise [] (.waiting method (.promise promise))
  | called {batch : Batch} {rest : List Batch} :
      Advances c' method promise (batch :: rest) (.batching method promise rest (.calling batch))
  | refused {batch : Batch} {rest : List Batch} {error : SerialError} :
      Advances c' method promise (batch :: rest) (.batching method promise rest (.awaiting (.settled (.error error))))

/-- The loop of `writev` runs. -/
structure Looping (c : Client) (method promise : ℕ) : Prop where
  made : c.Made
  calling : c.calling = none
  busy : c.port.writing = true
  writers : c.writers = [(.promise promise, .write method)]
  writePromise : c.port.writePromise = some (.promise promise)
  unsettled : c.Unsettled promise

theorem Looping.settle {method promise : ℕ} (h : Looping c method promise) (result : Settlement (Option NativeEvent)) :
    (c.settle promise result).At (.waiting method (.promise promise)) ∧
      (c.settle promise result).result (.promise promise) = some result := by
  have hmade : (c.settle promise result).Made := by
    refine ⟨h.made.pos, fun other hmem => ?_, h.made.pending⟩
    rcases List.mem_append.1 hmem with hmem | hmem
    · exact h.made.results other hmem
    · rw [List.mem_singleton.1 hmem]
      exact h.unsettled.made
  refine ⟨.of_busy hmade rfl h.busy h.writers (writing_none h.calling) h.writePromise (fun _ _ _ _ hw => nomatch hw), ?_⟩
  show (c.results ++ [(promise, result)]).lookup promise = some result
  rw [List.lookup_append, h.unsettled.result]
  simp

theorem nextBatch_advances {method promise : ℕ} (h : Looping c method promise) (rest : List Batch) :
    ∃ w, (c.nextBatch rest promise).1.At w ∧ Advances (c.nextBatch rest promise).1 method promise rest w := by
  cases rest with
  | nil =>
    obtain ⟨hat, hresult⟩ := h.settle (.ok none)
    exact ⟨_, hat, .done hresult⟩
  | cons batch rest =>
    show ∃ w, (c.request batch.operation (.batches rest promise)).1.At w ∧ Advances _ _ _ _ w
    obtain ⟨hpos, hmade, hresult, hfresh⟩ := h.unsettled
    rcases request_cases c batch.operation (.batches rest promise) with ⟨id, inline, port, hport, heq⟩ |
      ⟨error, port, hport, heq⟩
    · rw [heq, operation_ordered_batch]
      refine ⟨.batching method promise rest (.calling batch), ?_, .called⟩
      refine .of_busy ⟨h.made.pos, h.made.results, hport.pending ▸ h.made.pending⟩ rfl (hport.writing.trans h.busy)
        h.writers ⟨id, inline, rfl⟩ (hport.writePromise.trans h.writePromise) ?_
      rintro _ _ _ _ ⟨⟩
      exact ⟨hpos, hmade, hresult, hport.pending ▸ hfresh⟩
    · rw [heq]
      refine ⟨.batching method promise rest (.awaiting (.settled (.error error))), ?_, .refused⟩
      refine .of_busy ⟨h.made.pos, h.made.results, hport.pending ▸ h.made.pending⟩ rfl (hport.writing.trans h.busy) ?_
        (writing_none h.calling)
        (hport.writePromise.trans h.writePromise) ?_
      · show (c.tasks ++ [_]).filter _ = _
        rw [List.filter_append]
        show c.writers ++ _ = _
        rw [h.writers]
        rfl
      · rintro _ _ _ _ ⟨⟩
        exact ⟨hpos, hmade, hresult, hport.pending ▸ hfresh⟩

/-! ### Steps -/

end Client

/-- A call of `write` or `writev`. -/
def Method.writes : Method → Bool
  | .write _ | .writev _ => true
  | _ => false

/-- The buffers `writev` is called with, also by `write`. -/
def Method.vectored : Method → Option (List JsBuffer)
  | .write buffer => if chunkSize < buffer.length then some [buffer] else none
  | .writev buffers => some buffers
  | _ => none

/-- The input concerns a write. -/
def Client.moves (c : Client) : Input → Bool
  | .invoke m => m.writes
  | .answer _ => c.calling.any (·.2.writes)
  | .resume index => c.tasks[index]?.any (·.2.writes)
  | _ => false

/-- **What a step does to the write.** -/
inductive WriterStep (c : Client) (i : Input) (c' : Client) (out : List Output) : Writer → Writer → Prop
  | stays {w : Writer} (h : c.moves i = false) : WriterStep c i c' out w w
  | refused {w : Writer} {m : Method} {error : SerialError} (hi : i = .invoke m) (hm : m.writes = true)
      (hout : .returned c.promises (.error error) ∈ out) : WriterStep c i c' out w w
  | loops {m : Method} {buffers : List JsBuffer} {w : Writer} (hi : i = .invoke m) (hbuffers : m.vectored = some buffers)
      (h : Client.Advances c' c.promises (c.promises + 1) (batches buffers) w) : WriterStep c i c' out .idle w
  | begins {buffer : JsBuffer} (hi : i = .invoke (.write buffer)) (hsome : 0 < buffer.length)
      (hscalar : buffer.length ≤ chunkSize) : WriterStep c i c' out .idle (.submitting c.promises buffer)
  | empty {buffer : JsBuffer} (hi : i = .invoke (.write buffer)) (hnone : buffer.length = 0) :
      WriterStep c i c' out .idle (.waiting c.promises .RESOLVED)
  | thrown {method : ℕ} {buffer : JsBuffer} {error : SerialError} (hi : i = .answer (.thrown error))
      (hout : out = [.returned method (.error error)]) : WriterStep c i c' out (.submitting method buffer) .idle
  | completed {method : ℕ} {buffer : JsBuffer} (hi : i = .answer .completed) :
      WriterStep c i c' out (.submitting method buffer) (.waiting method .RESOLVED)
  | queued {method : ℕ} {buffer : JsBuffer} (hi : i = .answer .queued) :
      WriterStep c i c' out (.submitting method buffer) (.waiting method (.promise c.promises))
  | answered {method promise : ℕ} {rest : List Batch} {batch : Batch} {answer : Answer} {awaited : Awaited}
      (hi : i = .answer answer) (ha : ∀ error, answer = .thrown error → awaited = .settled (.error error)) :
      WriterStep c i c' out (.batching method promise rest (.calling batch)) (.batching method promise rest (.awaiting awaited))
  | failed {method promise index : ℕ} {rest : List Batch} {awaited : Awaited} {error : SerialError} (hi : i = .resume index)
      (htask : c.tasks[index]? = some (awaited, .batches rest promise)) (hresult : c.result awaited = some (.error error))
      (h : c'.result (.promise promise) = some (.error error)) :
      WriterStep c i c' out (.batching method promise rest (.awaiting awaited)) (.waiting method (.promise promise))
  | goes {method promise index : ℕ} {rest : List Batch} {awaited : Awaited} {event : Option NativeEvent} {w : Writer}
      (hi : i = .resume index) (htask : c.tasks[index]? = some (awaited, .batches rest promise))
      (hresult : c.result awaited = some (.ok event))
      (h : Client.Advances c' method promise rest w) :
      WriterStep c i c' out (.batching method promise rest (.awaiting awaited)) w
  | ends {method index : ℕ} {awaited : Awaited} {result : Settlement (Option NativeEvent)} (hi : i = .resume index)
      (hresult : c.result awaited = some result) (hout : out = [.returned method result]) :
      WriterStep c i c' out (.waiting method awaited) .idle

namespace Client

variable {c c₁ c' : Client} {w : Writer}

theorem At.idle_of (h : c.At w) (hwriting : c.port.writing = false) : w = .idle := by
  have hbusy := h.busy
  rw [hwriting] at hbusy
  cases w with
  | idle => rfl
  | _ => cases hbusy

theorem writers_write (c : Client) (awaited : Awaited) {task : Task} (h : task.writes = true) :
    (c.await awaited task).writers = c.writers ++ [(awaited, task)] := by
  show (c.tasks ++ [(awaited, task)]).filter _ = _
  rw [List.filter_append, List.filter_cons_of_pos (by simpa using h)]
  rfl

theorem Made.lookup_none (h : c.Made) {p : ℕ} (hp : c.promises ≤ p) : c.results.lookup p = none := by
  rw [List.lookup_eq_none_iff]
  intro result hmem
  rw [bne_iff_ne]
  have := h.results result hmem
  omega

theorem Made.mono (h : c.Made) (hresults : c'.results = c.results) (hpending : c'.port.pending = c.port.pending)
    (hpromises : c.promises ≤ c'.promises) : c'.Made :=
  ⟨h.pos.trans_le hpromises, fun r hr => (h.results r (hresults ▸ hr)).trans_le hpromises,
    fun r hr => (h.pending r (hpending ▸ hr)).trans_le hpromises⟩

theorem Made.waits (hmade : c.Made) (hcalling : c.calling = none) (hbusy : c.port.writing = true) (hwriters : c.writers = [])
    {awaited : Awaited} (hpromise : c.port.writePromise = some awaited) (method : ℕ) :
    (c.await awaited (.write method)).At (.waiting method awaited) := by
  refine .of_busy (hmade.mono rfl rfl (le_refl _)) rfl hbusy ?_ (writing_none hcalling) hpromise
    (fun _ _ _ _ hw => nomatch hw)
  rw [writers_write _ _ rfl, hwriters]
  rfl

theorem writev_writer (h : c.At w) (hcalling : c.calling = none) (method : ℕ) (buffers : List JsBuffer) :
    (∃ error, c.writev method buffers = (c, [.returned method (.error error)])) ∨
      w = .idle ∧ ∃ w', (c.writev method buffers).1.At w' ∧
        Advances (c.writev method buffers).1 method c.promises (batches buffers) w' := by
  unfold writev
  split
  · exact .inl ⟨_, rfl⟩
  · split
    · exact .inl ⟨_, rfl⟩
    · rename_i hwriting
      have hidle := h.idle_of (by simpa using hwriting)
      obtain rfl := hidle
      refine .inr ⟨rfl, ?_⟩
      have hmade := h.made
      let c₁ : Client := { c with
        promises := c.promises + 1
        port := { c.port with writing := true, writePromise := some (.promise c.promises) } }
      refine nextBatch_advances (c := c₁.await (.promise c.promises) (.write method)) ⟨?_, hcalling, rfl, ?_, rfl, ?_⟩ _
      · exact hmade.mono rfl rfl (Nat.le_succ _)
      · rw [writers_write _ _ rfl]
        show c.writers ++ _ = _
        rw [h.tasks]
        rfl
      · refine ⟨hmade.pos, Nat.lt_succ_self _, hmade.lookup_none (le_refl _), fun record hmem => ?_⟩
        exact (hmade.pending record hmem).ne

/-- What `write` does. -/
theorem write_writer (h : c.At w) (hcalling : c.calling = none) (method : ℕ) (buffer : JsBuffer) :
    (∃ error, (c.write method buffer).2 = [.returned method (.error error)]) ∧ (c.write method buffer).1.At w ∨
    w = .idle ∧
      ((chunkSize < buffer.length ∧ ∃ w', (c.write method buffer).1.At w' ∧
          Advances (c.write method buffer).1 method c.promises (batches [buffer]) w') ∨
        (buffer.length = 0 ∧ (c.write method buffer).1.At (.waiting method .RESOLVED)) ∨
        0 < buffer.length ∧ buffer.length ≤ chunkSize ∧ (c.write method buffer).1.At (.submitting method buffer)) := by
  unfold write
  split
  · rename_i hlong
    rcases writev_writer h hcalling method [buffer] with ⟨error, heq⟩ | ⟨hidle, w', hat, hadvances⟩
    · rw [heq]
      exact .inl ⟨⟨error, rfl⟩, h⟩
    · exact .inr ⟨hidle, .inl ⟨hlong, w', hat, hadvances⟩⟩
  · rename_i hlong
    split
    · exact .inl ⟨⟨_, rfl⟩, h⟩
    · split
      · exact .inl ⟨⟨_, rfl⟩, h⟩
      · rename_i hwriting
        have hidle := h.idle_of (by simpa using hwriting)
        obtain rfl := hidle
        have hmade := h.made
        have hwriters : c.writers = [] := h.tasks
        dsimp only
        split
        · rename_i hempty
          let c₁ : Client := { c with port := { c.port with writePromise := some .RESOLVED, writing := true } }
          have hmade₁ : c₁.Made := hmade.mono rfl rfl (le_refl _)
          exact .inr ⟨rfl, .inr (.inl ⟨hempty, hmade₁.waits hcalling rfl hwriters rfl method⟩)⟩
        · rename_i hsome
          split
          · refine .inl ⟨⟨_, rfl⟩, ?_⟩
            refine .of_idle (hmade.mono rfl rfl (le_refl _)) ?_ hwriters (writing_none hcalling) ?_
            · simpa using hwriting
            · rintro awaited ⟨⟩
              rfl
          · have hsame := reserve_samePort { c.port with writePromise := some .RESOLVED, writing := true } (.write buffer)
            unfold native
            split
            · refine .inr ⟨rfl, .inr (.inr ⟨by omega, by omega, ?_⟩)⟩
              exact .of_busy (hmade.mono rfl hsame.pending (le_refl _)) rfl hsame.writing hwriters ⟨_, _, rfl⟩
                hsame.writePromise (fun _ _ _ _ hw => nomatch hw)
            · -- the handle is `null`
              have hport := hsame.trans (release_samePort _ true)
              refine .inl ⟨⟨_, rfl⟩, .of_idle (hmade.mono rfl hport.pending (le_refl _)) rfl hwriters (writing_none hcalling) ?_⟩
              intro awaited hawaited
              have hresolved := hport.writePromise.symm.trans hawaited
              cases hresolved
              rfl

theorem readChunk_aside (hcalling : c.calling = none) (method : ℕ) (length : ℤ) :
    Aside c (c.readChunk method length).1 := by
  unfold readChunk
  split
  · exact .refl c
  · split
    · exact .refl c
    · let c₁ : Client := { c with port := { c.port with reading := true } }
      have hset : Aside c c₁ := aside_of_samePort ⟨rfl, rfl, rfl⟩ rfl rfl rfl (le_refl _)
      exact hset.trans (request_aside (c := c₁) hcalling _ rfl)

theorem startReading_aside (hcalling : c.calling = none) (length : ℤ) : Aside c (c.startReading length).1 := by
  unfold startReading
  split
  · exact .refl c
  · split
    · exact .refl c
    · dsimp only
      split
      · exact aside_of_samePort ⟨rfl, rfl, rfl⟩ rfl rfl rfl (le_refl _)
      · unfold native
        split
        · refine aside_of_samePort ⟨rfl, rfl, rfl⟩ rfl ?_ rfl (le_refl _)
          rw [writing_none hcalling]
          rfl
        · exact aside_of_samePort ⟨rfl, rfl, rfl⟩ rfl rfl rfl (le_refl _)

theorem close_aside (c : Client) (method : ℕ) : Aside c (c.close method).1 := by
  unfold close
  split
  · exact .refl c
  · dsimp only
    have hclosed : Aside c { c with port := { c.port with closing := true, isOpen := false } } :=
      aside_of_samePort ⟨rfl, rfl, rfl⟩ rfl rfl rfl (le_refl _)
    split
    · exact hclosed.trans (await_aside _ _ rfl)
    · exact hclosed

theorem promise_aside (c : Client) : Aside c c.promise.2 :=
  aside_of_samePort ⟨rfl, rfl, rfl⟩ rfl rfl rfl (Nat.le_succ _)

/-- **A call of a method.** -/
theorem invoke_writer (h : c.At w) (hcalling : c.calling = none) (m : Method) :
    ∃ w', (c.invoke m).1.At w' ∧ WriterStep c (.invoke m) (c.invoke m).1 (.invoked c.promises :: (c.invoke m).2) w w' := by
  have h₁ := h.aside (promise_aside c)
  have haside : ∀ {c' : Client} {out : List Output}, m.writes = false → Aside c.promise.2 c' →
      ∃ w', c'.At w' ∧ WriterStep c (.invoke m) c' out w w' :=
    fun hm ha => ⟨w, h₁.aside ha, .stays hm⟩
  have hrefused : ∀ {c' : Client} {out : List Output}, m.writes = true → c'.At w →
      (∃ error, out = [.returned c.promises (.error error)]) →
      ∃ w', c'.At w' ∧ WriterStep c (.invoke m) c' (.invoked c.promises :: out) w w' := by
    rintro c' out hm hat ⟨error, rfl⟩
    exact ⟨w, hat, .refused rfl hm (List.mem_cons_of_mem _ List.mem_cons_self)⟩
  cases m with
  | write buffer =>
    rcases write_writer h₁ hcalling c.promises buffer with ⟨hout, hat⟩ | ⟨rfl, ⟨hlong, w', hat, hadvances⟩ |
      ⟨hempty, hat⟩ | ⟨hsome, hscalar, hat⟩⟩
    · exact hrefused rfl hat hout
    · exact ⟨w', hat, .loops rfl (if_pos hlong) hadvances⟩
    · exact ⟨_, hat, .empty rfl hempty⟩
    · exact ⟨_, hat, .begins rfl hsome hscalar⟩
  | writev buffers =>
    rcases writev_writer h₁ hcalling c.promises buffers with ⟨error, heq⟩ | ⟨rfl, w', hat, hadvances⟩
    · have hsame : c.invoke (.writev buffers) = (c.promise.2, [.returned c.promises (.error error)]) := heq
      rw [hsame]
      exact hrefused rfl h₁ ⟨error, rfl⟩
    · exact ⟨w', hat, .loops rfl rfl hadvances⟩
  | control operation value => exact haside rfl (request_aside (c := c.promise.2) hcalling _ rfl)
  | drain => exact haside rfl (await_aside _ _ rfl)
  | readChunk length => exact haside rfl (readChunk_aside (c := c.promise.2) hcalling _ _)
  | startReading length => exact haside rfl (startReading_aside (c := c.promise.2) hcalling _)
  | close => exact haside rfl (close_aside _ _)
  | cancelOpen => exact haside rfl (aside_of_samePort ⟨rfl, rfl, rfl⟩ rfl rfl rfl (le_refl _))

/-! ### Answers -/

theorem writing_some {call : NativeCall} {site : Site} (h : c.calling = some (call, site)) (hsite : site.writes = true) :
    c.writing = some (call, site) := by
  unfold writing
  rw [h, Option.filter_some, if_pos hsite]

theorem At.site_write (h : c.At w) {call : NativeCall} {method : ℕ} (hcalling : c.calling = some (call, .write method)) :
    ∃ buffer id inline, w = .submitting method buffer ∧ call = .write id buffer.bytes inline := by
  have hcalls := h.calls
  rw [writing_some hcalling rfl] at hcalls
  cases w with
  | submitting method' buffer =>
    obtain ⟨id, inline, heq⟩ := hcalls
    cases heq
    exact ⟨buffer, id, inline, rfl, rfl⟩
  | batching method' promise rest stage =>
    cases stage with
    | calling batch =>
      obtain ⟨id, inline, heq⟩ := hcalls
      cases heq
    | awaiting => cases hcalls
  | _ => cases hcalls

theorem At.site_batches (h : c.At w) {call : NativeCall} {ordered : Bool} {rest : List Batch} {promise : ℕ}
    (hcalling : c.calling = some (call, .request ordered (.batches rest promise))) :
    ∃ method batch id inline, w = .batching method promise rest (.calling batch) ∧
      call = batch.operation.call id inline ∧ ordered = true := by
  have hcalls := h.calls
  rw [writing_some hcalling rfl] at hcalls
  cases w with
  | submitting method' buffer =>
    obtain ⟨id, inline, heq⟩ := hcalls
    cases heq
  | batching method' promise rest stage =>
    cases stage with
    | calling batch =>
      obtain ⟨id, inline, heq⟩ := hcalls
      cases heq
      exact ⟨method', batch, id, inline, rfl, rfl, rfl⟩
    | awaiting => cases hcalls
  | _ => cases hcalls

theorem enqueued_aside (c : Client) (id : ℕ) (ordered : Bool) : Aside c (c.enqueued id ordered).2 := by
  refine ⟨?_, rfl, rfl, rfl, rfl, ?_, ?_⟩
  · rintro ⟨hpos, hresults, hpending⟩
    refine ⟨Nat.succ_pos _, fun result hmem => Nat.lt_succ_of_lt (hresults result hmem), fun record hmem => ?_⟩
    rcases List.mem_append.1 hmem with hmem | hmem
    · exact Nat.lt_succ_of_lt (hpending record hmem)
    · rw [List.mem_singleton.1 hmem]
      exact Nat.lt_succ_self _
  · intro awaited result hresult
    cases awaited <;> exact hresult
  · rintro p ⟨hpos, hmade, hresult, hfresh⟩
    refine ⟨hpos, Nat.lt_succ_of_lt hmade, hresult, fun record hmem => ?_⟩
    rcases List.mem_append.1 hmem with hmem | hmem
    · exact hfresh record hmem
    · rw [List.mem_singleton.1 hmem]
      exact hmade.ne'

theorem uncalled_aside {call : NativeCall} {site : Site} (hcalling : c.calling = some (call, site))
    (hsite : site.writes = false) : Aside c { c with calling := none } := by
  refine aside_of_samePort ⟨rfl, rfl, rfl⟩ rfl ?_ rfl (le_refl _)
  unfold writing
  rw [hcalling, Option.filter_some, if_neg (by simp [hsite])]
  rfl

theorem request_answered (c : Client) (call : NativeCall) (ordered : Bool) (task : Task) (answer : Answer) :
    ∃ c₁ awaited, Aside c c₁ ∧ c₁.tasks = c.tasks ∧ c₁.calling = c.calling ∧
      (c.answered call (.request ordered task) answer).1 = c₁.await awaited task ∧
      ∀ error, answer = .thrown error → awaited = .settled (.error error) := by
  cases answer with
  | thrown error =>
    refine ⟨{ c with port := c.port.release ordered }, _, ?_, rfl, rfl, rfl, ?_⟩
    · exact aside_of_samePort (release_samePort c.port ordered) rfl rfl rfl (le_refl _)
    · rintro _ ⟨⟩
      rfl
  | completed =>
    refine ⟨{ c with port := c.port.release true }, _, ?_, rfl, rfl, rfl, nofun⟩
    exact aside_of_samePort (release_samePort c.port true) rfl rfl rfl (le_refl _)
  | queued => exact ⟨(c.enqueued call.id ordered).2, _, enqueued_aside _ _ _, rfl, rfl, rfl, nofun⟩

/-- **The native handle answers.** -/
theorem answered_writer (h : c.At w) {call : NativeCall} {site : Site} (hcalling : c.calling = some (call, site))
    (answer : Answer) :
    ∃ w', ({ c with calling := none }.answered call site answer).1.At w' ∧
      WriterStep c (.answer answer) ({ c with calling := none }.answered call site answer).1
        ({ c with calling := none }.answered call site answer).2 w w' := by
  have hstays : ∀ {c' : Client} {out : List Output}, site.writes = false → Aside c c' →
      ∃ w', c'.At w' ∧ WriterStep c (.answer answer) c' out w w' := by
    refine fun hsite ha => ⟨w, h.aside ha, .stays ?_⟩
    show c.calling.any _ = false
    rw [hcalling]
    exact hsite
  have hmade : ({ c with calling := none } : Client).Made := h.made.mono rfl rfl (le_refl _)
  cases site with
  | credit bytes slots =>
    have hcredit := uncalled_aside hcalling rfl
    cases answer with
    | thrown error => exact hstays rfl hcredit
    | completed | queued =>
      exact hstays rfl (hcredit.trans (aside_of_samePort ⟨rfl, rfl, rfl⟩ rfl rfl rfl (le_refl _)))
  | write method =>
    obtain ⟨buffer, id, inline, rfl, -⟩ := h.site_write hcalling
    have hbusy : c.port.writing = true := h.busy
    have hwriters : c.writers = [] := h.tasks
    have hpromise : c.port.writePromise = some .RESOLVED := h.promise rfl
    cases answer with
    | thrown error =>
      have hport := release_samePort c.port true
      refine ⟨.idle, .of_idle (hmade.mono rfl hport.pending (le_refl _)) rfl hwriters rfl ?_, .thrown rfl rfl⟩
      intro awaited hawaited
      have hresolved := (hport.writePromise.trans hpromise).symm.trans hawaited
      cases hresolved
      rfl
    | completed =>
      have hport := release_samePort c.port true
      let c₁ : Client := { c with calling := none, port := c.port.release true }
      have hmade₁ : c₁.Made := hmade.mono rfl hport.pending (le_refl _)
      exact ⟨_, hmade₁.waits rfl (hport.writing.trans hbusy) hwriters (hport.writePromise.trans hpromise) method,
        .completed rfl⟩
    | queued =>
      have hqueued := (enqueued_aside { c with calling := none } call.id true).made hmade
      let c₁ : Client := (({ c with calling := none } : Client).enqueued call.id true).2
      let c₂ : Client := { c₁ with port := { c₁.port with writePromise := some (.promise c.promises) } }
      have hmade₂ : c₂.Made := hqueued.mono rfl rfl (le_refl _)
      exact ⟨_, hmade₂.waits rfl hbusy hwriters rfl method, .queued rfl⟩
  | request ordered task =>
    obtain ⟨c₁, awaited, haside, -, hcall, heq, hthrown⟩ := request_answered { c with calling := none } call ordered task answer
    rw [heq]
    by_cases hwrites : task.writes = true
    · cases task with
      | batches rest promise =>
        obtain ⟨method, batch, id, inline, rfl, -, -⟩ := h.site_batches hcalling
        refine ⟨_, ?_, .answered rfl hthrown⟩
        have hunsettled := haside.unsettled promise (by
          obtain ⟨h1, h2, h3, h4⟩ := h.unsettled _ _ _ _ rfl
          exact ⟨h1, h2, h3, h4⟩)
        refine .of_busy ((haside.made hmade).mono rfl rfl (le_refl _)) rfl (haside.writing.trans h.busy) ?_
          (writing_none hcall) (haside.writePromise.trans (h.promise rfl)) ?_
        · rw [writers_write _ _ rfl, haside.writers]
          show c.writers ++ _ = _
          rw [h.tasks]
          rfl
        · rintro _ _ _ _ ⟨⟩
          exact ⟨hunsettled.pos, hunsettled.made, hunsettled.result, hunsettled.fresh⟩
      | write method =>
        have hcalls := h.calls
        rw [writing_some hcalling rfl] at hcalls
        exfalso
        cases w with
        | submitting =>
          obtain ⟨id, inline, hno⟩ := hcalls
          cases hno
        | batching method' promise rest stage =>
          cases stage with
          | calling batch =>
            obtain ⟨id, inline, hno⟩ := hcalls
            cases hno
          | awaiting => cases hcalls
        | _ => cases hcalls
      | _ => cases hwrites
    · have hno : task.writes = false := by simpa using hwrites
      exact hstays hno (((uncalled_aside hcalling hno).trans haside).trans (await_aside _ _ hno))

/-! ### The rest of a method -/

theorem erase_writers {index : ℕ} {task : Awaited × Task} (h : c.tasks[index]? = some task) (hwrites : task.2.writes = true) :
    ∃ before after, c.writers = before ++ task :: after ∧
      ({ c with tasks := c.tasks.eraseIdx index } : Client).writers = before ++ after := by
  obtain ⟨before, after, htasks, herase⟩ := eraseIdx_split h
  refine ⟨before.filter (·.2.writes), after.filter (·.2.writes), ?_, ?_⟩
  · unfold writers
    rw [htasks, List.filter_append, List.filter_cons_of_pos (by simpa using hwrites)]
  · show (c.tasks.eraseIdx index).filter _ = _
    rw [herase, List.filter_append]

theorem At.waits_of (h : c.At w) {before after : List (Awaited × Task)} {awaited : Awaited} {method : ℕ}
    (hwriters : c.writers = before ++ (awaited, .write method) :: after) :
    (w = .waiting method awaited ∧ before = [] ∧ after = []) ∨
      ∃ promise rest stage, w = .batching method promise rest stage ∧ awaited = .promise promise := by
  rw [h.tasks] at hwriters
  cases w with
  | waiting method' awaited' =>
    left
    cases before with
    | nil =>
      cases hwriters
      exact ⟨rfl, rfl, rfl⟩
    | cons => simp [Writer.tasks] at hwriters
  | batching method' promise rest stage =>
    right
    have hmem : (awaited, Task.write method) ∈ (Writer.batching method' promise rest stage).tasks := by
      rw [hwriters]
      simp
    cases stage with
    | calling batch =>
      cases List.mem_singleton.1 hmem
      exact ⟨_, _, _, rfl, rfl⟩
    | awaiting awaited' =>
      rcases List.mem_cons.1 hmem with heq | hmem
      · cases heq
        exact ⟨_, _, _, rfl, rfl⟩
      · cases List.mem_singleton.1 hmem
  | _ => simp [Writer.tasks] at hwriters

theorem At.loops_of (h : c.At w) {before after : List (Awaited × Task)} {awaited : Awaited} {rest : List Batch} {promise : ℕ}
    (hwriters : c.writers = before ++ (awaited, .batches rest promise) :: after) :
    ∃ method, w = .batching method promise rest (.awaiting awaited) ∧ before = [(.promise promise, .write method)] ∧
      after = [] := by
  rw [h.tasks] at hwriters
  cases w with
  | batching method promise' rest' stage =>
    cases stage with
    | calling batch =>
      cases before with
      | nil => cases hwriters
      | cons => simp [Writer.tasks] at hwriters
    | awaiting awaited' =>
      cases before with
      | nil => cases hwriters
      | cons first before =>
        cases before with
        | nil =>
          cases hwriters
          exact ⟨method, rfl, rfl, rfl⟩
        | cons => simp [Writer.tasks] at hwriters
  | waiting =>
    cases before with
    | nil => cases hwriters
    | cons => simp [Writer.tasks] at hwriters
  | _ => simp [Writer.tasks] at hwriters

/-- **An `await` is over.** -/
theorem proceed_writer (h : c.At w) (hcalling : c.calling = none) {index : ℕ} {awaited : Awaited} {task : Task}
    (htask : c.tasks[index]? = some (awaited, task)) {result : Settlement (Option NativeEvent)}
    (hresult : c.result awaited = some result) :
    ∃ w', ({ c with tasks := c.tasks.eraseIdx index }.proceed task result).1.At w' ∧
      WriterStep c (.resume index) ({ c with tasks := c.tasks.eraseIdx index }.proceed task result).1
        ({ c with tasks := c.tasks.eraseIdx index }.proceed task result).2 w w' := by
  let c₁ : Client := { c with tasks := c.tasks.eraseIdx index }
  have hstays : ∀ {c' : Client} {out : List Output}, task.writes = false → Aside c₁ c' →
      ∃ w', c'.At w' ∧ WriterStep c (.resume index) c' out w w' := by
    refine fun hno ha => ⟨w, h.aside ((erase_aside htask hno).trans ha), .stays ?_⟩
    show c.tasks[index]?.any _ = false
    rw [htask]
    exact hno
  have hmade : c₁.Made := h.made.mono rfl rfl (le_refl _)
  cases task with
  | method method => exact hstays rfl (.refl _)
  | readChunk method => exact hstays rfl (aside_of_samePort ⟨rfl, rfl, rfl⟩ rfl rfl rfl (le_refl _))
  | drain method =>
    cases result with
    | error error => exact hstays rfl (.refl _)
    | ok event => exact hstays rfl (request_aside (c := c₁) hcalling _ rfl)
  | close method => exact hstays rfl (aside_of_samePort ⟨rfl, rfl, rfl⟩ rfl rfl rfl (le_refl _))
  | write method =>
    obtain ⟨before, after, hwriters, herased⟩ := erase_writers htask rfl
    rcases h.waits_of hwriters with ⟨rfl, rfl, rfl⟩ | ⟨promise, rest, stage, rfl, rfl⟩
    · refine ⟨.idle, .of_idle (hmade.mono rfl rfl (le_refl _)) rfl herased (writing_none hcalling) ?_,
        .ends rfl hresult rfl⟩
      intro awaited' hawaited'
      obtain rfl := Option.some.inj ((h.promise rfl).symm.trans hawaited')
      show (c.result awaited).isSome = true
      rw [hresult]
      rfl
    · -- the promise of the loop has no result
      have hnone := (h.unsettled _ _ _ _ rfl).result
      cases hnone.symm.trans hresult
  | batches rest promise =>
    obtain ⟨before, after, hwriters, herased⟩ := erase_writers htask rfl
    obtain ⟨method, rfl, rfl, rfl⟩ := h.loops_of hwriters
    have hloop : Looping c₁ method promise := by
      obtain ⟨hpos, hpromises, hnone, hfresh⟩ := h.unsettled _ _ _ _ rfl
      exact ⟨hmade, hcalling, h.busy, herased, h.promise rfl, ⟨hpos, hpromises, hnone, hfresh⟩⟩
    cases result with
    | error error =>
      obtain ⟨hat, hsettled⟩ := hloop.settle (.error error)
      exact ⟨_, hat, .failed rfl htask hresult hsettled⟩
    | ok event =>
      obtain ⟨w', hat, hadvances⟩ := nextBatch_advances hloop rest
      exact ⟨w', hat, .goes rfl htask hresult hadvances⟩

/-! ### Callbacks -/

theorem aside_of_settled {settled : List (ℕ × Settlement (Option NativeEvent))} (hresults : c'.results = c.results ++ settled)
    (hsettled : ∀ result ∈ settled, result.1 = 0 ∨ ∃ record ∈ c.port.pending, record.2.promise = result.1)
    (hpending : ∀ record ∈ c'.port.pending, record ∈ c.port.pending) (hwriting : c'.port.writing = c.port.writing)
    (hpromise : c'.port.writePromise = c.port.writePromise) (htasks : c'.tasks = c.tasks)
    (hcalling : c'.calling = c.calling) (hpromises : c'.promises = c.promises) : Aside c c' := by
  refine ⟨?_, hwriting, hpromise, congrArg (List.filter _) htasks, congrArg (Option.filter _) hcalling, ?_, ?_⟩
  · rintro ⟨hpos, hmade, hrecords⟩
    rw [← hpromises] at hpos hmade hrecords
    refine ⟨hpos, fun result hmem => ?_, fun record hmem => hrecords record (hpending record hmem)⟩
    rw [hresults] at hmem
    rcases List.mem_append.1 hmem with hmem | hmem
    · exact hmade result hmem
    · rcases hsettled result hmem with hzero | ⟨record, hrecord, heq⟩
      · omega
      · rw [← heq]
        exact hrecords record hrecord
  · intro awaited result hresult
    cases awaited with
    | settled => exact hresult
    | promise index =>
      have hlookup : c.results.lookup index = some result := hresult
      show c'.results.lookup index = some result
      rw [hresults, List.lookup_append, hlookup]
      rfl
  · rintro p ⟨hpos, hmade, hnone, hfresh⟩
    refine ⟨hpos, hpromises ▸ hmade, ?_, fun record hmem => hfresh record (hpending record hmem)⟩
    rw [hresults, List.lookup_append, hnone]
    show List.lookup p settled = none
    rw [List.lookup_eq_none_iff]
    intro result hmem
    rw [bne_iff_ne]
    rcases hsettled result hmem with hzero | ⟨record, hrecord, heq⟩
    · omega
    · exact heq ▸ (hfresh record hrecord).symm

theorem finishClose_aside (c : Client) (error : Option SerialError) : Aside c (c._finishClose error).1 := by
  unfold _finishClose
  split
  · exact .refl c
  · refine aside_of_settled (List.append_assoc _ _ _) ?_ (fun _ h => nomatch h) rfl rfl rfl rfl rfl
    intro result hmem
    rcases List.mem_append.1 hmem with hmem | hmem
    · rw [List.map_map] at hmem
      obtain ⟨record, hrecord, rfl⟩ := List.mem_map.1 hmem
      exact .inr ⟨record, hrecord, rfl⟩
    · rw [List.mem_singleton.1 hmem]
      exact .inl rfl

theorem settle_aside (c : Client) (id : ℕ) (error : Option SerialError) (result : NativeEvent) :
    Aside c (c._settle id error result).1 := by
  unfold _settle
  split
  · exact .refl c
  · rename_i pending hlookup
    have hport := release_samePort { c.port with pending := c.port.pending.eraseP (·.1 == id) } pending.ordered
    refine aside_of_settled rfl ?_ ?_ hport.writing hport.writePromise rfl rfl rfl
    · intro settled hmem
      rw [List.mem_singleton.1 hmem]
      obtain ⟨before, after, heq, -⟩ := List.lookup_eq_some_iff.1 hlookup
      exact .inr ⟨(id, pending), heq ▸ List.mem_append_right _ (List.mem_cons_self ..), rfl⟩
    · intro record hmem
      have heq : (c.port.unrecord id pending.ordered).pending = c.port.pending.eraseP (·.1 == id) := hport.pending
      exact List.mem_of_mem_eraseP (heq ▸ hmem)

theorem callback_aside (c : Client) (callback : Callback) : Aside c (c.callback callback).1 := by
  cases callback with
  | failed error lost => exact aside_of_samePort ⟨rfl, rfl, rfl⟩ rfl rfl rfl (le_refl _)
  | read item =>
    show Aside c (c.queueRead item)
    obtain ⟨pendingRead, queuedReads, heq⟩ := queueRead_queues c item
    rw [heq]
    exact aside_of_samePort ⟨rfl, rfl, rfl⟩ rfl rfl rfl (le_refl _)
  | event event =>
    show Aside c (c._event event).1
    unfold _event
    split
    · split
      · exact .refl c
      · exact aside_of_samePort ⟨rfl, rfl, rfl⟩ rfl rfl rfl (le_refl _)
    · exact finishClose_aside c _
    · exact settle_aside c _ _ _

theorem Passes.aside {out : List Output} (h : c.Passes c' out) : Aside c c' := by
  cases h <;> exact aside_of_samePort ⟨rfl, rfl, rfl⟩ rfl rfl rfl (le_refl _)

/-- **One step of the port** moves the write as `WriterStep` says. -/
theorem step_writer (h : c.At w) {i : Input} {out : List Output} (hstep : c.step i = some (c', out)) :
    ∃ w', c'.At w' ∧ WriterStep c i c' out w w' := by
  have hstays : Aside c c' → c.moves i = false → ∃ w', c'.At w' ∧ WriterStep c i c' out w w' :=
    fun ha hi => ⟨w, h.aside ha, .stays hi⟩
  cases step_runs hstep with
  | invoke m hcalling => exact invoke_writer h hcalling m
  | answer answer hcalling => exact answered_writer h hcalling answer
  | callback callback hidle => exact hstays (callback_aside c callback) rfl
  | microtask =>
    have hleft : Aside c { c with microtasks := c.microtasks - 1 } :=
      aside_of_samePort ⟨rfl, rfl, rfl⟩ rfl rfl rfl (le_refl _)
    exact hstays (hleft.trans (deliverRead_passes { c with microtasks := c.microtasks - 1 }).aside) rfl
  | resume hidle htask hresult => exact proceed_writer h (idle_calling hidle) htask hresult
  | returns => exact hstays (deliverBatch_passes c _).aside rfl
  | throws =>
    refine hstays ?_ rfl
    split <;> exact aside_of_samePort ⟨rfl, rfl, rfl⟩ rfl rfl rfl (le_refl _)

end Client

end NodeSerialport.Binding
