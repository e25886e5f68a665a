import NodeSerialport.Binding.Batches
import NodeSerialport.Binding.Methods
/-!
# What a vectored write submits

The loop of `writev` waits for each batch before it submits the next one.  Other methods run in between, and the port may
be closed.

* `Batch.Submits` — the call of the native handle that submits a batch;
* `Client.submitted`, `Client.outcomes` — the calls of a loop, and the results of its batches;
* `Vectored` — how far the loop is;
* `writev_lossless` — if every batch succeeds, the calls carry the contents of all buffers.
-/

namespace NodeSerialport.Binding

open Lib (Machine)

/-- **The call that submits a batch.** -/
def Batch.Submits (batch : Batch) : NativeCall → Prop
  | .write _ data _ => batch.segments.length = 1 ∧ data = batch.bytes
  | .writev _ data length _ =>
    batch.segments.length ≠ 1 ∧ data = batch.segments.map JsBuffer.bytes ∧ length = batch.size
  | _ => False

theorem Batch.submits_call (batch : Batch) (id : ℕ) (inline : Bool) : batch.Submits (batch.operation.call id inline) := by
  unfold Batch.operation
  split
  · rename_i segment hsegments
    refine ⟨by rw [hsegments]; rfl, ?_⟩
    unfold Batch.bytes
    rw [hsegments]
    exact (List.append_nil _).symm
  · rename_i hno
    refine ⟨fun hone => ?_, rfl, rfl⟩
    obtain ⟨segment, hsegments⟩ := List.length_eq_one_iff.1 hone
    exact hno segment hsegments

namespace Client

/-- The call in which the loop of this promise hands a batch to the native handle. -/
def submitted (promise : ℕ) (c : Client) : Input → List NativeCall
  | .answer _ =>
    match c.calling with
    | some (call, .request _ (.batches _ p)) => if p = promise then [call] else []
    | _ => []
  | _ => []

/-- The result of a batch, where the loop of this promise goes on with it. -/
def outcomes (promise : ℕ) (c : Client) : Input → List (Settlement (Option NativeEvent))
  | .resume index =>
    match c.tasks[index]? with
    | some (awaited, .batches _ p) => if p = promise then (c.result awaited).toList else []
    | _ => []
  | _ => []

end Client

/-- The batch in the hands of the native handle. -/
def Stage.inside : Stage → List Batch
  | .calling batch => [batch]
  | .awaiting _ => []

/-- **How far the loop of a vectored write is.** -/
inductive Vectored (method promise : ℕ) (all : List Batch) (calls : List NativeCall)
    (outcomes : List (Settlement (Option NativeEvent))) (c : Client) : Writer → Prop
  | loops {done rest : List Batch} {stage : Stage} (hall : all = done ++ (stage.inside ++ rest))
      (hcalls : List.Forall₂ Batch.Submits done calls) :
      Vectored method promise all calls outcomes c (.batching method promise rest stage)
  | doomed {rest : List Batch} {error : SerialError} :
      Vectored method promise all calls outcomes c (.batching method promise rest (.awaiting (.settled (.error error))))
  | waits {result : Settlement (Option NativeEvent)} (hresult : c.result (.promise promise) = some result)
      (hover : result = .ok none ∧ List.Forall₂ Batch.Submits all calls ∨ ∃ error, .error error ∈ outcomes) :
      Vectored method promise all calls outcomes c (.waiting method (.promise promise))
  | ended {w : Writer} {result : Settlement (Option NativeEvent)} (hresult : c.result (.promise promise) = some result)
      (hover : result = .ok none ∧ List.Forall₂ Batch.Submits all calls ∨ ∃ error, .error error ∈ outcomes)
      (hmethod : method ∉ c.methods) : Vectored method promise all calls outcomes c w

namespace Client

variable {c c' : Client} {w : Writer} {method promise : ℕ}

theorem submitted_eq_nil {i : Input} (h : c.moves i = false) : c.submitted promise i = [] := by
  cases i with
  | answer answer =>
    simp only [submitted]
    split
    · rename_i call ordered rest p hcalling
      have hmoves : c.calling.any (·.2.writes) = false := h
      rw [hcalling] at hmoves
      cases hmoves
    · rfl
  | _ => rfl

theorem outcomes_resume {index : ℕ} {awaited : Awaited} {rest : List Batch}
    (htask : c.tasks[index]? = some (awaited, .batches rest promise)) {result : Settlement (Option NativeEvent)}
    (hresult : c.result awaited = some result) : c.outcomes promise (.resume index) = [result] := by
  simp [outcomes, htask, hresult]

theorem outcomes_eq_nil {i : Input} (h : c.moves i = false) : c.outcomes promise i = [] := by
  cases i with
  | resume index =>
    simp only [outcomes]
    split
    · rename_i awaited rest p htask
      have hmoves : c.tasks[index]?.any (·.2.writes) = false := h
      rw [htask] at hmoves
      cases hmoves
    · rfl
  | _ => rfl

theorem At.submitted_settled (h : c.At w) {result : Settlement (Option NativeEvent)}
    (hresult : c.result (.promise promise) = some result) (i : Input) : c.submitted promise i = [] := by
  cases i with
  | answer answer =>
    simp only [submitted]
    split
    · rename_i call ordered rest p hcalling
      rw [if_neg]
      rintro rfl
      obtain ⟨m, batch, id, inline, rfl, -, -⟩ := h.site_batches hcalling
      cases (h.unsettled _ _ _ _ rfl).result.symm.trans hresult
    · rfl
  | _ => rfl

theorem At.outcomes_settled (h : c.At w) {result : Settlement (Option NativeEvent)}
    (hresult : c.result (.promise promise) = some result) (i : Input) : c.outcomes promise i = [] := by
  cases i with
  | resume index =>
    simp only [outcomes]
    split
    · rename_i awaited rest p htask
      rw [if_neg]
      rintro rfl
      obtain ⟨before, after, hwriters, -⟩ := erase_writers htask rfl
      obtain ⟨m, rfl, -, -⟩ := h.loops_of hwriters
      cases (h.unsettled _ _ _ _ rfl).result.symm.trans hresult
    · rfl
  | _ => rfl

theorem At.task_mem (h : c.At w) {entry : Awaited × Task} (hentry : entry ∈ w.tasks) : entry ∈ c.tasks := by
  rw [← h.tasks] at hentry
  exact List.mem_of_mem_filter hentry

end Client

/-- **A method that waits returns what it waits for.** -/
theorem Methodical.waits_returned {c c' : Client} (h : Methodical c) {awaited : Awaited} {method : ℕ}
    (htask : (awaited, Task.write method) ∈ c.tasks) {i : Input} {out : List Output}
    (hstep : client.step c i = some (c', out)) {result : Settlement (Option NativeEvent)}
    (hreturned : .returned method result ∈ out) : c.result awaited = some result := by
  have hmethod : method < c.promises := h.made method (Methodical.task_mem htask rfl)
  cases Client.step_returned (i := i) hstep hreturned with
  | refused hm => omega
  | resumed hentry hm hsettled =>
    cases h.task_unique htask hentry rfl hm
    exact hsettled
  | closed hentry => cases h.task_unique htask hentry rfl rfl
  | thrown hcalling => exact absurd rfl (h.task_calling htask rfl hcalling)

theorem Client.At.calling_batch {c : Client} {method promise : ℕ} {rest : List Batch} {batch : Batch}
    (h : c.At (.batching method promise rest (.calling batch))) :
    ∃ id inline, c.calling = some (batch.operation.call id inline, .request true (.batches rest promise)) := by
  obtain ⟨id, inline, hwriting⟩ := h.calls
  exact ⟨id, inline, (Option.filter_eq_some_iff.1 hwriting).1⟩

namespace Vectored

variable {c c' : Client} {w w' : Writer} {method promise : ℕ} {all : List Batch} {calls : List NativeCall}
  {outcomes : List (Settlement (Option NativeEvent))}

theorem advances {done rest : List Batch} (hall : all = done ++ rest) (hcalls : List.Forall₂ Batch.Submits done calls)
    (h : Client.Advances c method promise rest w) : Vectored method promise all calls outcomes c w := by
  cases h with
  | done hresult =>
    rw [List.append_nil] at hall
    exact .waits hresult (.inl ⟨rfl, hall ▸ hcalls⟩)
  | called => exact .loops hall hcalls
  | refused => exact .doomed

/-- **One step of the port** takes the loop on. -/
theorem step (hat : c.At w) (hm : Methodical c) (hmade : method < c.promises)
    (h : Vectored method promise all calls outcomes c w) {i : Input} {out : List Output}
    (hstep : client.step c i = some (c', out)) (hw : WriterStep c i c' out w w') :
    Vectored method promise all (calls ++ c.submitted promise i) (outcomes ++ c.outcomes promise i) c' w' := by
  have hinvoke : ∀ m, i = .invoke m → c.submitted promise i = [] ∧ c.outcomes promise i = [] := by
    rintro m rfl
    exact ⟨rfl, rfl⟩
  cases h with
  | loops hall hcalls =>
    rename_i done rest stage
    cases hw with
    | stays hmoves =>
      rw [Client.submitted_eq_nil hmoves, Client.outcomes_eq_nil hmoves, List.append_nil, List.append_nil]
      exact .loops hall hcalls
    | refused hi =>
      rw [(hinvoke _ hi).1, (hinvoke _ hi).2, List.append_nil, List.append_nil]
      exact .loops hall hcalls
    | answered hi ha =>
      rename_i batch answer awaited
      subst hi
      obtain ⟨id, inline, hcalling⟩ := hat.calling_batch
      have hsubmitted : c.submitted promise (.answer answer) = [batch.operation.call id inline] := by
        simp [Client.submitted, hcalling]
      have hall' : all = (done ++ [batch]) ++ ((Stage.awaiting awaited).inside ++ rest) := by
        rw [hall, List.append_assoc]
        rfl
      rw [hsubmitted]
      exact .loops hall' (List.rel_append hcalls (.cons (batch.submits_call id inline) .nil))
    | failed hi htask hresult hsettled =>
      rename_i error
      rw [hi, Client.outcomes_resume htask hresult]
      exact .waits hsettled (.inr ⟨error, by simp⟩)
    | goes hi htask hresult hadvances =>
      subst hi
      exact advances hall (by simpa [Client.submitted] using hcalls) hadvances
  | doomed =>
    rename_i rest error
    cases hw with
    | stays hmoves => exact .doomed
    | refused hi => exact .doomed
    | failed hi htask hresult hsettled =>
      rename_i error
      rw [hi, Client.outcomes_resume htask hresult]
      exact .waits hsettled (.inr ⟨error, by simp⟩)
    | goes hi htask hresult => cases hresult
  | waits hresult hover =>
    rw [hat.submitted_settled hresult, hat.outcomes_settled hresult, List.append_nil, List.append_nil]
    have hresult' := Client.step_result (i := i) hstep hresult
    cases hw with
    | stays => exact .waits hresult' hover
    | refused => exact .waits hresult' hover
    | ends hi hresult hout =>
      refine .ended hresult' hover (hm.ended hstep ?_)
      rw [hout]
      exact List.mem_singleton_self _
  | ended hresult hover hmethod =>
    rw [hat.submitted_settled hresult, hat.outcomes_settled hresult, List.append_nil, List.append_nil]
    refine .ended (Client.step_result (i := i) hstep hresult) hover fun hmem => ?_
    rcases List.mem_append.1 ((Client.step_hands (i := i) hstep).subset (List.mem_append_left _ hmem)) with hmem | hmem
    · exact hmethod hmem
    · have := (Client.starts_lt hstep hmem).1
      omega

/-- **The method returns the result of the loop.** -/
theorem returned (hat : c.At w) (hm : Methodical c) (hmade : method < c.promises)
    (h : Vectored method promise all calls outcomes c w) {i : Input} {out : List Output}
    (hstep : client.step c i = some (c', out)) {result : Settlement (Option NativeEvent)}
    (hreturned : .returned method result ∈ out) : c.result (.promise promise) = some result := by
  cases h with
  | loops hall hcalls =>
    rename_i done rest stage
    refine hm.waits_returned (hat.task_mem ?_) hstep hreturned
    cases stage <;> exact List.mem_cons_self
  | doomed => exact hm.waits_returned (hat.task_mem List.mem_cons_self) hstep hreturned
  | waits hresult hover => exact hm.waits_returned (hat.task_mem List.mem_cons_self) hstep hreturned
  | ended hresult hover hmethod =>
    have hmem := mem_returns hreturned
    rcases List.mem_append.1 ((Client.step_hands (i := i) hstep).subset (List.mem_append_right _ hmem)) with hmem | hmem
    · exact absurd hmem hmethod
    · have := (Client.starts_lt hstep hmem).1
      omega

end Vectored

theorem reachable_at {path : String} {nextId : ℕ} {inputs : List Input} {c : Client} {outputs : List Output}
    (hrun : client.run (Client.new path nextId) inputs = some (c, outputs)) : (∃ w, c.At w) ∧ Methodical c := by
  refine Machine.run_invariant (m := client) (fun c => (∃ w, c.At w) ∧ Methodical c) ?_ ?_ hrun
  · rintro c i c' out ⟨⟨w, hat⟩, hm⟩ hstep
    obtain ⟨w', hat', -⟩ := Client.step_writer (i := i) hat hstep
    exact ⟨⟨w', hat'⟩, hm.step hstep⟩
  · exact ⟨⟨.idle, .start path nextId⟩, .start path nextId⟩

/-- **A vectored write runs**: what was submitted, and what the method returned. -/
structure VectoredRun (method promise : ℕ) (all : List Batch) (c₁ : Client) (inputs : List Input) (outputs : List Output)
    (c : Client) : Prop where
  progress : ∃ w, c.At w ∧ Vectored method promise all (client.collect (Client.submitted promise) c₁ inputs)
    (client.collect (Client.outcomes promise) c₁ inputs) c w
  methodical : Methodical c
  made : method < c.promises
  returned : ∀ result, .returned method result ∈ outputs → c.result (.promise promise) = some result

namespace VectoredRun

variable {c c₁ : Client} {method promise : ℕ} {all : List Batch} {inputs : List Input} {outputs : List Output}

theorem step (h : VectoredRun method promise all c₁ inputs outputs c) (hrun : client.run c₁ inputs = some (c, outputs))
    {i : Input} {c' : Client} {out : List Output} (hstep : client.step c i = some (c', out)) :
    VectoredRun method promise all c₁ (inputs ++ [i]) (outputs ++ out) c' := by
  obtain ⟨w, hat, hvectored⟩ := h.progress
  obtain ⟨w', hat', hw⟩ := Client.step_writer (i := i) hat hstep
  refine ⟨⟨w', hat', ?_⟩, h.methodical.step hstep, h.made.trans_le (Client.promises_mono hstep), fun result hmem => ?_⟩
  · rw [Machine.collect_snoc hrun, Machine.collect_snoc hrun]
    exact hvectored.step hat h.methodical h.made hstep hw
  · apply Client.step_result (i := i) hstep
    rcases List.mem_append.1 hmem with hmem | hmem
    · exact h.returned result hmem
    · exact hvectored.returned hat h.methodical h.made hstep hmem

end VectoredRun

theorem Method.vectored_writes (m : Method) {buffers : List JsBuffer} (h : m.vectored = some buffers) :
    m.writes = true ∧ m.async = true := by
  cases m with
  | write buffer => exact ⟨rfl, rfl⟩
  | writev buffers => exact ⟨rfl, rfl⟩
  | _ => cases h

/-- A vectored write that is not refused at once enters its loop. -/
theorem WriterStep.loops_of {c c₁ : Client} {m : Method} {buffers : List JsBuffer} {out : List Output} {w w₁ : Writer}
    (hw : WriterStep c (.invoke m) c₁ out w w₁) (hm : m.vectored = some buffers)
    (hbegun : ∀ error, .returned c.promises (.error error) ∉ out) :
    Client.Advances c₁ c.promises (c.promises + 1) (batches buffers) w₁ := by
  cases hw with
  | stays hmoves =>
    have hwrites : m.writes = false := hmoves
    rw [(m.vectored_writes hm).1] at hwrites
    cases hwrites
  | refused hi hwrites hout => exact absurd hout (hbegun _)
  | loops hi hbuffers hadvances =>
    cases hi
    rw [hm] at hbuffers
    cases hbuffers
    exact hadvances
  | begins hi hsome hscalar =>
    cases hi
    rw [Method.vectored, if_neg (Nat.not_lt.2 hscalar)] at hm
    cases hm
  | empty hi hnone =>
    cases hi
    rw [Method.vectored, if_neg (by omega)] at hm
    cases hm
  | thrown hi => cases hi
  | completed hi => cases hi
  | queued hi => cases hi
  | answered hi => cases hi
  | failed hi => cases hi
  | goes hi => cases hi
  | ends hi => cases hi

/-- **Vectored writes are split without loss.**  Wherever `writev`, or `write` with more than a chunk, is not refused at
once, and every batch succeeds until the method is over: it resolves, and the calls its loop made submit the batches of
its buffers, which together hold the contents of the buffers in order.  Every batch is within the limits of the native
handle with its size as the length hint, and every one but the last is full. -/
theorem writev_lossless (path : String) (nextId : ℕ) (before : List Input) (c : Client) (outputs : List Output)
    (hrun : client.run (Client.new path nextId) before = some (c, outputs)) (m : Method) (buffers : List JsBuffer)
    (hm : m.vectored = some buffers) (hlength : ∀ buffer ∈ buffers, buffer.length ≤ buffer.bytes.length)
    (c₁ : Client) (out : List Output) (hstep : client.step c (.invoke m) = some (c₁, out))
    (hbegun : ∀ error, .returned c.promises (.error error) ∉ out) (inputs : List Input) (c' : Client)
    (outputs' : List Output) (hrun' : client.run c₁ inputs = some (c', outputs')) (result : Settlement (Option NativeEvent))
    (hreturned : .returned c.promises result ∈ outputs')
    (hok : ∀ error, .error error ∉ client.collect (Client.outcomes (c.promises + 1)) c₁ inputs) :
    result = .ok none ∧
      List.Forall₂ Batch.Submits (batches buffers) (client.collect (Client.submitted (c.promises + 1)) c₁ inputs) ∧
      (batches buffers).flatMap Batch.bytes = buffers.flatMap JsBuffer.content ∧
      (∀ batch ∈ batches buffers, batch.Fits) ∧
      ∀ front batch rest, batches buffers = front ++ batch :: rest → rest ≠ [] → batch.Full := by
  obtain ⟨⟨w, hat⟩, hmethodical⟩ := reachable_at hrun
  obtain ⟨w₁, hat₁, hw⟩ := Client.step_writer (i := .invoke m) hat hstep
  have hloops := hw.loops_of hm hbegun
  have hstarts : c.promises ∈ c.starts (.invoke m) := by
    show c.promises ∈ if m.async then [c.promises] else []
    rw [if_pos (m.vectored_writes hm).2]
    exact List.mem_singleton_self _
  have hstart : VectoredRun c.promises (c.promises + 1) (batches buffers) c₁ [] [] c₁ :=
    ⟨⟨w₁, hat₁, .advances (List.nil_append _).symm .nil hloops⟩, hmethodical.step hstep, (Client.starts_lt hstep hstarts).2,
      fun _ h => absurd h List.not_mem_nil⟩
  have hend : VectoredRun c.promises (c.promises + 1) (batches buffers) c₁ inputs outputs' c' := by
    have hrun'' := hrun'
    refine (Machine.run_rule_all (m := client) (fun inputs outputs c' => client.run c₁ inputs = some (c', outputs) ∧
      VectoredRun c.promises (c.promises + 1) (batches buffers) c₁ inputs outputs c') ⟨rfl, hstart⟩ ?_ hrun'').2
    rintro inputs outputs s i s' out ⟨hrun, h⟩ hstep
    exact ⟨Machine.run_append hrun (Machine.run_singleton hstep), h.step hrun hstep⟩
  obtain ⟨w', hat', hvectored⟩ := hend.progress
  have hresult := hend.returned result hreturned
  have hover : result = .ok none ∧ List.Forall₂ Batch.Submits (batches buffers)
      (client.collect (Client.submitted (c.promises + 1)) c₁ inputs) := by
    have hsettled : ∀ {result' : Settlement (Option NativeEvent)}, c'.result (.promise (c.promises + 1)) = some result' →
        result' = result := fun h => Option.some.inj (h.symm.trans hresult)
    cases hvectored with
    | loops => cases (hat'.unsettled _ _ _ _ rfl).result.symm.trans hresult
    | doomed => cases (hat'.unsettled _ _ _ _ rfl).result.symm.trans hresult
    | waits hresult' hover =>
      rw [← hsettled hresult']
      exact hover.resolve_right fun ⟨error, hmem⟩ => hok error hmem
    | ended hresult' hover =>
      rw [← hsettled hresult']
      exact hover.resolve_right fun ⟨error, hmem⟩ => hok error hmem
  exact ⟨hover.1, hover.2, batches_spec hlength⟩

theorem batches_shadowed : batches [⟨[1, 2, 3], 2⟩, ⟨[], 0⟩, ⟨[4], 1⟩] = [⟨[.ofBytes [1, 2], ⟨[4], 1⟩], 3⟩] := by
  decide +kernel

/-- The port that has just opened. -/
def openPort : Client := { port := { path := "/dev/ttyS0", isOpen := true, opened := some (.ok ()) } }

/-- The port in the call of the native handle for these buffers. -/
def shadowedCall : Client where
  port := { openPort.port with ordered := 1, nextId := 2, writing := true, writePromise := some (.promise 2) }
  calling := some (.writev 1 [[1, 2], [4]] 3 true, .request true (.batches [] 2))
  tasks := [(.promise 2, .write 1)]
  promises := 3

theorem step_shadowed : client.step openPort (.invoke (.writev [⟨[1, 2, 3], 2⟩, ⟨[], 0⟩, ⟨[4], 1⟩])) =
    some (shadowedCall, [.invoked 1, .called (.writev 1 [[1, 2], [4]] 3 true)]) := by
  simp only [client, Client.step, Client.invoke, Client.writev, batches_shadowed]
  rfl

/-- Three buffers in one batch, one of them longer than it says; a byte is read before the batch is done. -/
theorem writev_lossless_shadowed : ∃ c outputs c₁ out c' outputs',
    client.run (Client.new "/dev/ttyS0" 1) [.callback (.event { kind := .opened, id := 0 })] = some (c, outputs) ∧
    client.step c (.invoke (.writev [⟨[1, 2, 3], 2⟩, ⟨[], 0⟩, ⟨[4], 1⟩])) = some (c₁, out) ∧
    client.run c₁ [.answer .queued, .callback (.read (.buffer [9])), .callback (.event { kind := .ok, id := 1 }),
      .resume 1, .resume 0] = some (c', outputs') ∧
    (batches [⟨[1, 2, 3], 2⟩, ⟨[], 0⟩, ⟨[4], 1⟩]).flatMap Batch.bytes = [1, 2, 4] := by
  let inputs : List Input := [.answer .queued, .callback (.read (.buffer [9])), .callback (.event { kind := .ok, id := 1 }),
    .resume 1, .resume 0]
  have houtcomes : client.collect (Client.outcomes 2) shadowedCall inputs = [.ok (some { kind := .ok, id := 1 })] := rfl
  refine ⟨_, _, _, _, _, _, rfl, step_shadowed, rfl, ?_⟩
  have h := writev_lossless "/dev/ttyS0" 1 [.callback (.event { kind := .opened, id := 0 })] _ _ rfl
    (.writev [⟨[1, 2, 3], 2⟩, ⟨[], 0⟩, ⟨[4], 1⟩]) _ rfl (by decide) _ _ step_shadowed (by simp) inputs _ _ rfl (.ok none)
    (by simp [Client.new]) (fun error hmem => by
      change .error error ∈ client.collect (Client.outcomes 2) shadowedCall inputs at hmem
      rw [houtcomes] at hmem
      simp at hmem)
  exact h.2.2.1

end NodeSerialport.Binding
