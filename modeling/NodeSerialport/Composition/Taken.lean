import NodeSerialport.Binding.Drain
import NodeSerialport.Binding.Handing
import NodeSerialport.Composition.Step
import NodeSerialport.Native.Calls
/-!
# What the native handle took of a write

A write hands its bytes over in one call, or in one call for each batch, with other calls in between.

* `Taken`, `taken` — the calls the native handle took, with where they were made;
* `carried` — the bytes among them of one write;
* `begun` — the writes that were called, with what they have to hand over (`Method.data`);
* `Written` — how far a write is; `Written.step` — what one step of the port does to it;
* `Writes` — over a run.
-/

namespace NodeSerialport.Composition

open Parsers (Buffer)
open Binding (Client NativeCall NativeEvent Answer SerialError JsBuffer Batch batches Site Method Stage Writer WriterStep
  Methodical Drainer client)
open Native (payload)

/-! ### The calls that were taken -/

/-- A call the native handle took: where it was made, and the promise of its record, if it has one. -/
structure Taken where
  site : Site
  call : NativeCall
  promise : Option ℕ

/-- The call a step hands over. -/
def taken (c : Client) : Binding.Input → List Taken
  | .answer .queued =>
    match c.calling with
    | some (call, .credit bytes slots) => [⟨.credit bytes slots, call, none⟩]
    | some (call, site) => [⟨site, call, some c.promises⟩]
    | none => []
  | .answer .completed => (c.calling.map fun (call, site) => ⟨site, call, none⟩).toList
  | _ => []

/-- The promise of the write a call was made for; the promise of a loop is the next one. -/
def writer : Site → Option ℕ
  | .write method => some method
  | .request _ (.batches _ promise) => some (promise - 1)
  | _ => none

/-- The bytes that were taken of a write. -/
def carried (method : ℕ) (calls : List Taken) : Buffer :=
  calls.flatMap fun t => if writer t.site = some method then payload t.call else []

@[simp] theorem carried_append (method : ℕ) (calls more : List Taken) :
    carried method (calls ++ more) = carried method calls ++ carried method more := List.flatMap_append

/-! ### The writes that were called -/

/-- The writes a step calls, each with the promise it returns. -/
def begun (c : Client) : Binding.Input → List (ℕ × Method)
  | .invoke m => if m.writes then [(c.promises, m)] else []
  | _ => []

variable {c c' : Client} {w w' : Writer} {method : ℕ} {calls : List Taken} {outputs out : List Binding.Output}

theorem batch_payload (batch : Batch) (id : ℕ) (inline : Bool) : payload (batch.operation.call id inline) = batch.bytes := by
  unfold Batch.operation
  split
  · rename_i segment hsegments
    unfold Batch.bytes
    rw [hsegments, List.flatMap_singleton]
    rfl
  · exact List.flatMap_def.symm

/-- A call that was made elsewhere hands nothing of a write over. -/
theorem carried_elsewhere (h : ∀ call site, c.calling = some (call, site) → writer site ≠ some method) (i : Binding.Input) :
    carried method (taken c i) = [] := by
  have hsite : ∀ {call : NativeCall} {site : Site} (promise : Option ℕ), c.calling = some (call, site) →
      carried method [⟨site, call, promise⟩] = [] := by
    intro call site promise hcalling
    show (if writer site = some method then payload call else []) ++ [] = []
    rw [if_neg (h _ _ hcalling)]
    rfl
  cases i with
  | answer answer =>
    cases hcalling : c.calling with
    | none => cases answer <;> simp [taken, hcalling, carried]
    | some calling =>
      obtain ⟨call, site⟩ := calling
      cases answer with
      | thrown => rfl
      | completed => simpa [taken, hcalling] using hsite none hcalling
      | queued =>
        cases site with
        | credit bytes slots => simpa [taken, hcalling] using hsite none hcalling
        | write m => simpa [taken, hcalling] using hsite (some c.promises) hcalling
        | request ordered task => simpa [taken, hcalling] using hsite (some c.promises) hcalling
  | _ => rfl

theorem carried_taken (hat : c.At w) (hw : w.Numbered) (hmethod : w.submits ≠ some method) (i : Binding.Input) :
    carried method (taken c i) = [] := by
  refine carried_elsewhere (fun call site hcalling heq => hmethod ?_) i
  cases site with
  | write m =>
    cases heq
    obtain ⟨buffer, id, inline, rfl, -⟩ := hat.site_write hcalling
    rfl
  | request ordered task =>
    cases task with
    | batches rest p =>
      cases heq
      obtain ⟨m, batch, id, inline, rfl, -, -⟩ := hat.site_batches hcalling
      obtain rfl := hw _ _ _ _ rfl
      rfl
    | _ => cases heq
  | credit => cases heq

theorem carried_aside {i : Binding.Input} (h : c.moves i = false) : carried method (taken c i) = [] := by
  cases i with
  | answer answer =>
    have hany : c.calling.any (·.2.writes) = false := h
    refine carried_elsewhere (fun call site hcalling heq => ?_) _
    rw [hcalling] at hany
    cases site with
    | write m => cases hany
    | request ordered task =>
      cases task with
      | batches => cases hany
      | _ => cases heq
    | credit => cases heq
  | _ => rfl

theorem taken_carried {call : NativeCall} {site : Site} (hcalling : c.calling = some (call, site))
    (hwriter : writer site = some method) {answer : Answer} (hanswer : ∀ error, answer ≠ .thrown error) :
    carried method (taken c (.answer answer)) = payload call := by
  have hone : ∀ promise, carried method [⟨site, call, promise⟩] = payload call := by
    intro promise
    show (if writer site = some method then payload call else []) ++ [] = _
    rw [if_pos hwriter, List.append_nil]
  cases answer with
  | thrown error => exact absurd rfl (hanswer error)
  | completed => simpa [taken, hcalling] using hone none
  | queued =>
    cases site with
    | credit => cases hwriter
    | write m => simpa [taken, hcalling] using hone (some c.promises)
    | request ordered task => simpa [taken, hcalling] using hone (some c.promises)

/-! ### How far a write is -/

/-- **How far a write is** that has to hand `data` over, or that it was rejected. -/
inductive Written (method : ℕ) (data : Buffer) (calls : List Taken) (outputs : List Binding.Output) (c : Client) :
    Writer → Prop
  | complete {w : Writer} (hdata : carried method calls = data) (hw : w.submits ≠ some method) :
      Written method data calls outputs c w
  | rejected {w : Writer} {error : SerialError} (h : .returned method (.error error) ∈ outputs) :
      Written method data calls outputs c w
  | submitting {buffer : JsBuffer} (hdata : carried method calls = []) (hbuffer : buffer.bytes = data) :
      Written method data calls outputs c (.submitting method buffer)
  | loops {rest : List Batch} {stage : Stage}
      (hdata : carried method calls ++ (stage.inside ++ rest).flatMap Batch.bytes = data) :
      Written method data calls outputs c (.batching method (method + 1) rest stage)
  | doomed {rest : List Batch} {error : SerialError} :
      Written method data calls outputs c (.batching method (method + 1) rest (.awaiting (.settled (.error error))))
  | failed {error : SerialError} (hresult : c.result (.promise (method + 1)) = some (.error error)) :
      Written method data calls outputs c (.waiting method (.promise (method + 1)))

namespace Written

variable {data : Buffer}

theorem advances {rest : List Batch} (hdata : carried method calls ++ rest.flatMap Batch.bytes = data)
    (h : Client.Advances c method (method + 1) rest w) : Written method data calls outputs c w := by
  cases h with
  | done hresult =>
    rw [List.flatMap_nil, List.append_nil] at hdata
    exact .complete hdata nofun
  | called => exact .loops hdata
  | refused => exact .doomed

/-- **A write is called.** -/
theorem start {m : Method} (hw : WriterStep c (.invoke m) c' out w w') (hm : m.writes = true)
    (hnone : carried c.promises calls = []) : Written c.promises m.data calls (outputs ++ out) c' w' := by
  cases hw with
  | stays hmoves =>
    have hwrites : m.writes = false := hmoves
    cases hm.symm.trans hwrites
  | refused hi hwrites hout => exact .rejected (List.mem_append_right _ hout)
  | loops hi hbuffers hadvances =>
    cases hi
    refine advances ?_ hadvances
    rw [hnone, List.nil_append, Method.data_vectored hbuffers]
  | begins hi hsome hscalar =>
    cases hi
    exact .submitting hnone (Method.data_write hsome hscalar).symm
  | empty hi hzero =>
    cases hi
    exact .complete (hnone.trans (Method.data_empty hzero).symm) nofun
  | thrown hi | completed hi | queued hi | answered hi | failed hi | goes hi | ends hi => cases hi

/-- **One step of the port** takes the write on. -/
theorem step (hat : c.At w) (hn : w.Numbered) (hmade : method < c.promises) (h : Written method data calls outputs c w)
    {i : Binding.Input} (hstep : client.step c i = some (c', out)) (hw : WriterStep c i c' out w w') :
    Written method data (calls ++ taken c i) (outputs ++ out) c' w' := by
  have hinvoke : ∀ m, i = .invoke m → taken c i = [] := by
    rintro m rfl
    rfl
  have hresume : ∀ index, i = .resume index → taken c i = [] := by
    rintro index rfl
    rfl
  cases h with
  | complete hdata hsub =>
    refine .complete ?_ fun hsub' => ?_
    · rw [carried_append, carried_taken hat hn hsub, List.append_nil, hdata]
    · rcases hw.submits hsub' with hsub' | rfl
      · exact hsub hsub'
      · exact absurd hmade (lt_irrefl _)
  | rejected h => exact .rejected (List.mem_append_left _ h)
  | submitting hdata hbuffer =>
    rename_i buffer
    cases hw with
    | stays hmoves => exact .submitting (by rw [carried_append, hdata, carried_aside hmoves]; rfl) hbuffer
    | refused hi => exact .submitting (by rw [hinvoke _ hi, List.append_nil, hdata]) hbuffer
    | thrown hi hout => exact .rejected (List.mem_append_right _ (hout ▸ List.mem_singleton_self _))
    | completed hi | queued hi =>
      subst hi
      obtain ⟨id, inline, hwriting⟩ := hat.calls
      have hcalling := (Option.filter_eq_some_iff.1 hwriting).1
      refine .complete ?_ nofun
      rw [carried_append, hdata, taken_carried hcalling rfl (by nofun), ← hbuffer]
      rfl
  | loops hdata =>
    rename_i rest stage
    cases hw with
    | stays hmoves => exact .loops (by rw [carried_append, carried_aside hmoves, List.append_nil, hdata])
    | refused hi => exact .loops (by rw [hinvoke _ hi, List.append_nil, hdata])
    | answered hi ha =>
      rename_i batch answer awaited
      subst hi
      by_cases hthrown : ∃ error, answer = .thrown error
      · obtain ⟨error, rfl⟩ := hthrown
        rw [ha error rfl]
        exact .doomed
      · obtain ⟨id, inline, hcalling⟩ := hat.calling_batch
        refine .loops ?_
        have hwriter : writer (.request true (.batches rest (method + 1))) = some method := rfl
        rw [carried_append, taken_carried hcalling hwriter (fun error heq => hthrown ⟨error, heq⟩), batch_payload, ← hdata,
          List.append_assoc]
        rfl
    | failed hi htask hresult hsettled => exact .failed hsettled
    | goes hi htask hresult hadvances => exact advances (by rw [hresume _ hi, List.append_nil]; exact hdata) hadvances
  | doomed =>
    cases hw with
    | stays hmoves => exact .doomed
    | refused hi => exact .doomed
    | failed hi htask hresult hsettled => exact .failed hsettled
    | goes hi htask hresult => cases hresult
  | failed hresult =>
    cases hw with
    | stays => exact .failed (Client.step_result (i := i) hstep hresult)
    | refused => exact .failed (Client.step_result (i := i) hstep hresult)
    | ends hi hresult' hout =>
      cases hresult'.symm.trans hresult
      exact .rejected (List.mem_append_right _ (hout ▸ List.mem_singleton_self _))

end Written

/-- **The writes of a run**: those that were called are as far as `Written` says. -/
structure Writes (writes : List (ℕ × Method)) (calls : List Taken) (outputs : List Binding.Output) (c : Client) : Prop where
  writer : ∃ w, c.At w ∧ w.Numbered ∧ ∀ write ∈ writes, Written write.1 write.2.data calls outputs c w
  methodical : Methodical c
  made : ∀ write ∈ writes, write.1 < c.promises
  fresh : ∀ method, c.promises ≤ method → carried method calls = []

namespace Writes

variable {writes : List (ℕ × Method)}

theorem start (path : String) (nextId : ℕ) : Writes [] [] [] (Client.new path nextId) := by
  refine ⟨⟨.idle, .start path nextId, ?_, fun _ hmem => absurd hmem List.not_mem_nil⟩, .start path nextId,
    fun _ hmem => absurd hmem List.not_mem_nil, fun _ _ => rfl⟩
  intro _ _ _ _ hw
  cases hw

/-- **Every step of the port keeps it.** -/
theorem step (h : Writes writes calls outputs c) {i : Binding.Input} (hstep : client.step c i = some (c', out)) :
    Writes (writes ++ begun c i) (calls ++ taken c i) (outputs ++ out) c' := by
  obtain ⟨⟨w, hat, hn, hwritten⟩, hm, hmade, hfresh⟩ := h
  obtain ⟨w', hat', hw⟩ := Client.step_writer (i := i) hat hstep
  have hmono := Client.promises_mono hstep
  refine ⟨⟨w', hat', hw.numbered hn, fun write hmem => ?_⟩, hm.step hstep, fun write hmem => ?_, fun method hmethod => ?_⟩
  · rcases List.mem_append.1 hmem with hmem | hmem
    · exact (hwritten write hmem).step hat hn (hmade write hmem) hstep hw
    · cases i with
      | invoke m =>
        simp only [begun] at hmem
        split at hmem
        · rename_i hwrites
          obtain rfl := List.mem_singleton.1 hmem
          show Written c.promises m.data (calls ++ []) (outputs ++ out) c' w'
          rw [List.append_nil]
          exact .start hw hwrites (hfresh _ (le_refl _))
        · cases hmem
      | _ => cases hmem
  · rcases List.mem_append.1 hmem with hmem | hmem
    · exact (hmade write hmem).trans_le hmono
    · cases i with
      | invoke m =>
        simp only [begun] at hmem
        split at hmem
        · rename_i hwrites
          obtain rfl := List.mem_singleton.1 hmem
          refine (Client.starts_lt (i := .invoke m) hstep ?_).2
          have hasync : m.async = true := by
            cases m with
            | write | writev => rfl
            | _ => cases hwrites
          simp [Client.starts, hasync]
        · cases hmem
      | _ => cases hmem
  · have hsub : w.submits ≠ some method := by
      intro heq
      have := hat.submits_lt hm heq
      omega
    rw [carried_append, hfresh method (hmono.trans hmethod), carried_taken hat hn hsub]
    rfl

end Writes

/-! ### `drain` -/

/-- **Nothing more is taken of a write**: it handed all its bytes over, or it was rejected. -/
def Finished (write : ℕ × Method) (calls : List Taken) (outputs : List Binding.Output) (w : Writer) : Prop :=
  (carried write.1 calls = write.2.data ∧ w.submits ≠ some write.1) ∨ ∃ error, .returned write.1 (.error error) ∈ outputs

/-- These writes were taken before, unless they were rejected. -/
def Covered (writes : List (ℕ × Method)) (calls : List Taken) (outputs : List Binding.Output) : Prop :=
  ∀ write ∈ writes, carried write.1 calls = write.2.data ∨ ∃ error, .returned write.1 (.error error) ∈ outputs

/-- **The request of a call of `drain`** was taken after these writes. -/
def Behind (method : ℕ) (writes : List (ℕ × Method)) (calls : List Taken) (outputs : List Binding.Output) (promise : ℕ) :
    Prop :=
  ∃ front id, front ++ [⟨.request true (.method method), .request id .drain 0, some promise⟩] <+: calls ∧
    Covered writes front outputs

/-- **What a call of `drain` waits for.** -/
inductive Draining (method : ℕ) (writes : List (ℕ × Method)) (calls : List Taken) (outputs : List Binding.Output)
    (c : Client) (w : Writer) : Drainer → Prop
  /-- A write that is not finished is the one it waits for. -/
  | waiting {awaited : Binding.Awaited} (h : ∀ write ∈ writes, Finished write calls outputs w ∨
      awaited = .promise (write.1 + 1) ∧ Written write.1 write.2.data calls outputs c w) :
      Draining method writes calls outputs c w (.waiting awaited)
  | submitting {id : ℕ} (h : ∀ write ∈ writes, Finished write calls outputs w) :
      Draining method writes calls outputs c w (.submitting id)
  | refused {error : SerialError} : Draining method writes calls outputs c w (.requested (.settled (.error error)))
  | requested {promise : ℕ} (h : Behind method writes calls outputs promise) :
      Draining method writes calls outputs c w (.requested (.promise promise))
  | ended : Draining method writes calls outputs c w .ended

variable {writes : List (ℕ × Method)}

theorem Finished.step {write : ℕ × Method} (h : Finished write calls outputs w) (hat : c.At w) (hn : w.Numbered)
    (hmade : write.1 < c.promises) {i : Binding.Input} (hw : WriterStep c i c' out w w') :
    Finished write (calls ++ taken c i) (outputs ++ out) w' := by
  rcases h with ⟨hdata, hsub⟩ | ⟨error, hmem⟩
  · refine .inl ⟨?_, fun hsub' => ?_⟩
    · rw [carried_append, carried_taken hat hn hsub, List.append_nil, hdata]
    · rcases hw.submits hsub' with hsub' | heq
      · exact hsub hsub'
      · omega
  · exact .inr ⟨error, List.mem_append_left _ hmem⟩

theorem Covered.mono (h : Covered writes calls outputs) (out : List Binding.Output) : Covered writes calls (outputs ++ out) :=
  fun write hmem => (h write hmem).imp_right fun ⟨error, herror⟩ => ⟨error, List.mem_append_left _ herror⟩

theorem Behind.mono {promise : ℕ} (h : Behind method writes calls outputs promise) (more : List Taken)
    (out : List Binding.Output) : Behind method writes (calls ++ more) (outputs ++ out) promise := by
  obtain ⟨front, id, hfront, hcovered⟩ := h
  exact ⟨front, id, hfront.trans (List.prefix_append _ _), hcovered.mono out⟩

theorem Written.finished {m : Method} (h : Written method m.data calls outputs c w) (hat : c.At w)
    (hcalling : c.calling = none) {event : Option NativeEvent}
    (hresult : c.result (.promise (method + 1)) = some (.ok event)) : Finished (method, m) calls outputs w := by
  cases h with
  | complete hdata hsub => exact .inl ⟨hdata, hsub⟩
  | rejected h => exact .inr ⟨_, h⟩
  | submitting hdata hbuffer =>
    obtain ⟨id, inline, hwriting⟩ := hat.calls
    rw [Client.writing_none hcalling] at hwriting
    cases hwriting
  | loops | doomed => cases (hat.unsettled _ _ _ _ rfl).result.symm.trans hresult
  | failed herror => cases herror.symm.trans hresult

/-- **A call of `drain` runs**, after these writes. -/
structure DrainRun (method : ℕ) (writes : List (ℕ × Method)) (calls : List Taken) (outputs after : List Binding.Output)
    (c : Client) : Prop where
  writer : ∃ w d, c.At w ∧ w.Numbered ∧ c.DrainAt method d ∧ Draining method writes calls outputs c w d
  methodical : Methodical c
  made : method < c.promises
  begun : ∀ write ∈ writes, write.1 < c.promises
  returned : ∀ result, .returned method (.ok result) ∈ after → ∃ promise, Behind method writes calls outputs promise ∧
    c.result (.promise promise) = some (.ok result)

/-- **`drain` is called.** -/
theorem Writes.drain (h : Writes writes calls outputs c) (hstep : client.step c (.invoke .drain) = some (c', out)) :
    DrainRun c.promises writes calls (outputs ++ out) [] c' := by
  have h' := h.step hstep
  have hwrites : writes ++ begun c (.invoke .drain) = writes := List.append_nil _
  have hcalls : calls ++ taken c (.invoke .drain) = calls := List.append_nil _
  rw [hwrites, hcalls] at h'
  obtain ⟨⟨w, hat, hn, hwritten⟩, hm, hmade, -⟩ := h'
  obtain ⟨hcalling, heq⟩ := Binding.step_drain hstep
  have hcalling' : c'.calling = none := heq ▸ hcalling
  have hport : c'.port = c.port := heq ▸ rfl
  refine ⟨⟨w, .waiting (c.port.writePromise.getD .RESOLVED), hat, hn, ?_, .waiting fun write hmem => ?_⟩, hm,
    heq ▸ Nat.lt_succ_self _, hmade, fun _ hmem => absurd hmem List.not_mem_nil⟩
  · show _ ∈ c'.tasks
    rw [heq]
    exact List.mem_append_right _ (List.mem_singleton_self _)
  · have hpromise : ∀ {awaited : Binding.Awaited}, w.busy = true → w.promise = some awaited →
        c.port.writePromise.getD .RESOLVED = awaited := by
      intro awaited hbusy hw
      rw [← hport, hat.promise hbusy, hw]
      rfl
    have hwrite := hwritten write hmem
    obtain ⟨m, write⟩ := write
    cases hwrite with
    | complete hdata hsub => exact .inl (.inl ⟨hdata, hsub⟩)
    | rejected h => exact .inl (.inr ⟨_, h⟩)
    | submitting hdata hbuffer =>
      obtain ⟨id, inline, hwriting⟩ := hat.calls
      rw [Client.writing_none hcalling'] at hwriting
      cases hwriting
    | loops hdata => exact .inr ⟨hpromise rfl rfl, .loops hdata⟩
    | doomed => exact .inr ⟨hpromise rfl rfl, .doomed⟩
    | failed hresult => exact .inr ⟨hpromise rfl rfl, .failed hresult⟩

namespace DrainRun

variable {after : List Binding.Output}

/-- **Every step of the port keeps it.** -/
theorem step (h : DrainRun method writes calls outputs after c) {i : Binding.Input}
    (hstep : client.step c i = some (c', out)) :
    DrainRun method writes (calls ++ taken c i) (outputs ++ out) (after ++ out) c' := by
  obtain ⟨⟨w, d, hat, hn, hd, hdraining⟩, hm, hmade, hwrites, hreturned⟩ := h
  obtain ⟨w', hat', hw⟩ := Client.step_writer (i := i) hat hstep
  obtain ⟨d', hd', hdrain⟩ := Binding.step_drainer hm hmade hd hstep
  have hmono := Client.promises_mono hstep
  have hfinished : ∀ write ∈ writes, Finished write calls outputs w →
      Finished write (calls ++ taken c i) (outputs ++ out) w' :=
    fun write hmem hf => hf.step hat hn (hwrites write hmem) hw
  have hold : ∀ result, .returned method (.ok result) ∈ after → ∃ promise,
      Behind method writes (calls ++ taken c i) (outputs ++ out) promise ∧
        c'.result (.promise promise) = some (.ok result) := by
    intro result hmem
    obtain ⟨promise, hbehind, hresult⟩ := hreturned result hmem
    exact ⟨promise, hbehind.mono _ _, Client.step_result (i := i) hstep hresult⟩
  have hrun : Draining method writes (calls ++ taken c i) (outputs ++ out) c' w' d' →
      (∀ result, .returned method (.ok result) ∈ out → ∃ promise,
        Behind method writes (calls ++ taken c i) (outputs ++ out) promise ∧
          c'.result (.promise promise) = some (.ok result)) →
      DrainRun method writes (calls ++ taken c i) (outputs ++ out) (after ++ out) c' := by
    intro hdraining' hnew
    refine ⟨⟨w', d', hat', hw.numbered hn, hd', hdraining'⟩, hm.step hstep, hmade.trans_le hmono,
      fun write hmem => (hwrites write hmem).trans_le hmono, fun result hmem => ?_⟩
    exact (List.mem_append.1 hmem).elim (hold result) (hnew result)
  cases hdrain with
  | stays hout =>
    refine hrun ?_ fun result hmem => absurd (Binding.mem_returns hmem) hout
    cases hdraining with
    | waiting h =>
      refine .waiting fun write hmem => ?_
      rcases h write hmem with hf | ⟨hawaited, hwritten⟩
      · exact .inl (hfinished write hmem hf)
      · exact .inr ⟨hawaited, hwritten.step hat hn (hwrites write hmem) hstep hw⟩
    | submitting h => exact .submitting fun write hmem => hfinished write hmem (h write hmem)
    | refused => exact .refused
    | requested h => exact .requested (h.mono _ _)
    | ended => exact .ended
  | asks hi htask hresult hout =>
    refine hrun (.submitting fun write hmem => hfinished write hmem ?_) (by simp [hout])
    cases hdraining with
    | waiting h =>
      rcases h write hmem with hf | ⟨rfl, hwritten⟩
      · exact hf
      · subst hi
        obtain ⟨-, -, hidle, -⟩ := Client.step_resume hstep htask
        exact hwritten.finished hat (Client.idle_calling hidle) hresult
  | refused hi htask hresult hout => exact hrun .refused (by simp [hout])
  | failed hi htask hresult hout => exact hrun .ended (by simp [hout])
  | queued hi hout =>
    rename_i id
    subst hi
    refine hrun (.requested ⟨calls, id, ?_, ?_⟩) (by simp [hout])
    · have hcalling : c.calling = some (.request id .drain 0, .request true (.method method)) := hd
      have htaken : taken c (.answer .queued) =
          [⟨.request true (.method method), .request id .drain 0, some c.promises⟩] := by simp [taken, hcalling]
      rw [htaken]
    · cases hdraining with
      | submitting h =>
        have hcovered : Covered writes calls outputs := fun write hmem => (h write hmem).imp_left And.left
        exact hcovered.mono out
  | thrown hi hout => exact hrun .refused (by simp [hout])
  | ends hi htask hresult hout =>
    rename_i index awaited result
    refine hrun .ended fun result' hmem => ?_
    rw [hout, List.mem_singleton] at hmem
    cases hmem
    cases hdraining with
    | refused => cases hresult
    | requested h => exact ⟨_, h.mono _ _, Client.step_result (i := i) hstep hresult⟩

end DrainRun

end NodeSerialport.Composition
