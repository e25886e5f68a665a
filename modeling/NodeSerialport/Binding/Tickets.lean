import NodeSerialport.Binding.Methods
import NodeSerialport.Binding.Writing
/-!
# The promise of a request

A request that was queued has a record with a promise.  The promise is settled by the event with the id of the record, or
by the close event, which rejects it.

* `Gains` — which promises a step settles, besides those of records;
* `step_gains` — only loops of `writev`;
* `Ticket`, `step_ticket` — what one step does to the promise of a request.
-/

namespace NodeSerialport.Binding

open Parsers (Buffer)

/-! ### Promises that are settled without an event -/

/-- Results are added, all of them for promises in `S`. -/
def Gains (S : ℕ → Prop) (c c' : Client) : Prop :=
  ∃ settled, c'.results = c.results ++ settled ∧ ∀ result ∈ settled, S result.1

namespace Gains

variable {S : ℕ → Prop} {c c₁ c' : Client}

theorem of_eq (h : c'.results = c.results) : Gains S c c' :=
  ⟨[], h.trans (List.append_nil _).symm, fun _ hmem => absurd hmem List.not_mem_nil⟩

theorem settle (c : Client) {promise : ℕ} (h : S promise) (result : Settlement (Option NativeEvent)) :
    Gains S c (c.settle promise result) := by
  refine ⟨[(promise, result)], rfl, fun entry hmem => ?_⟩
  rw [List.mem_singleton.1 hmem]
  exact h

theorem mono {S' : ℕ → Prop} (h : Gains S c c') (hS : ∀ p, S p → S' p) : Gains S' c c' := by
  obtain ⟨settled, heq, hmem⟩ := h
  exact ⟨settled, heq, fun result hr => hS _ (hmem result hr)⟩

theorem after (h : Gains S c₁ c') (hsame : c₁.results = c.results) : Gains S c c' := by
  obtain ⟨settled, heq, hmem⟩ := h
  exact ⟨settled, hsame ▸ heq, hmem⟩

theorem lookup_none (h : Gains S c c') {p : ℕ} (hp : ¬S p) (hnone : c.results.lookup p = none) :
    c'.results.lookup p = none := by
  obtain ⟨settled, heq, hmem⟩ := h
  rw [heq, List.lookup_append, hnone]
  simp only [Option.none_or]
  rw [List.lookup_eq_none_iff]
  intro result hr
  rw [bne_iff_ne]
  rintro rfl
  exact hp (hmem result hr)

end Gains

namespace Client

variable {c c' : Client}

theorem answered_results (c : Client) (call : NativeCall) (site : Site) (answer : Answer) :
    (c.answered call site answer).1.results = c.results := by
  cases site <;> cases answer <;> rfl

theorem native_results (c : Client) (call : NativeCall) (site : Site) : (c.native call site).1.results = c.results := by
  unfold native
  split
  · rfl
  · exact answered_results c call site _

theorem request_results (c : Client) (op : Operation) (task : Task) : (c.request op task).1.results = c.results := by
  unfold request
  split
  · rfl
  · exact native_results _ _ _

theorem nextBatch_gains (c : Client) (rest : List Batch) (promise : ℕ) :
    Gains (· = promise) c (c.nextBatch rest promise).1 := by
  cases rest with
  | nil => exact Gains.settle (S := (· = promise)) c rfl _
  | cons batch rest => exact .of_eq (request_results c _ _)

theorem writev_gains (c : Client) (method : ℕ) (buffers : List JsBuffer) :
    Gains (c.promises ≤ ·) c (c.writev method buffers).1 := by
  unfold writev
  split
  · exact .of_eq rfl
  · split
    · exact .of_eq rfl
    · refine ((nextBatch_gains _ _ _).mono fun p hp => ?_).after ?_
      · exact (show p = c.promises from hp).ge
      · rfl

theorem write_gains (c : Client) (method : ℕ) (buffer : JsBuffer) :
    Gains (c.promises ≤ ·) c (c.write method buffer).1 := by
  unfold write
  split
  · exact writev_gains c method [buffer]
  · split
    · exact .of_eq rfl
    · split
      · exact .of_eq rfl
      · dsimp only
        split
        · exact .of_eq rfl
        · split
          · exact .of_eq rfl
          · exact .of_eq (native_results _ _ _)

theorem invoke_gains (c : Client) (m : Method) : Gains (c.promises ≤ ·) c (c.invoke m).1 := by
  have hmono : ∀ p, c.promise.2.promises ≤ p → c.promises ≤ p := fun p hp => (Nat.le_succ _).trans hp
  cases m with
  | write buffer => exact ((write_gains c.promise.2 _ buffer).mono hmono).after rfl
  | writev buffers => exact ((writev_gains c.promise.2 _ buffers).mono hmono).after rfl
  | control operation value => exact .of_eq (request_results c.promise.2 _ _)
  | drain => exact .of_eq rfl
  | readChunk length =>
    apply Gains.of_eq
    show (c.promise.2.readChunk c.promises length).1.results = c.results
    unfold readChunk
    split
    · rfl
    · split
      · rfl
      · exact request_results _ _ _
  | startReading length =>
    apply Gains.of_eq
    show (c.promise.2.startReading length).1.results = c.results
    unfold startReading
    split
    · rfl
    · split
      · rfl
      · dsimp only
        split
        · rfl
        · exact native_results _ _ _
  | close =>
    apply Gains.of_eq
    show (c.promise.2.close c.promises).1.results = c.results
    unfold close
    split
    · rfl
    · dsimp only
      split <;> rfl
  | cancelOpen => exact .of_eq rfl

theorem proceed_gains (c : Client) (task : Task) (result : Settlement (Option NativeEvent)) :
    Gains (fun p => ∃ rest, task = .batches rest p) c (c.proceed task result).1 := by
  cases task with
  | batches rest promise =>
    cases result with
    | error error => exact .settle c ⟨rest, rfl⟩ _
    | ok event =>
      refine (nextBatch_gains c rest promise).mono ?_
      rintro p rfl
      exact ⟨rest, rfl⟩
  | drain method =>
    cases result with
    | error error => exact .of_eq rfl
    | ok event => exact .of_eq (request_results c _ _)
  | _ => exact .of_eq rfl

theorem Passes.results {out : List Output} (h : c.Passes c' out) : c'.results = c.results := by
  cases h <;> rfl

/-- **Without an event**, a step settles promises it makes, and promises of loops. -/
theorem step_gains {i : Input} {out : List Output} (hstep : c.step i = some (c', out))
    (hi : ∀ event, i ≠ .callback (.event event)) :
    Gains (fun p => c.promises ≤ p ∨ ∃ awaited rest, (awaited, .batches rest p) ∈ c.tasks) c c' := by
  cases step_runs hstep with
  | invoke m => exact (invoke_gains c m).mono fun p hp => .inl hp
  | answer answer => exact .of_eq (answered_results { c with calling := none } _ _ _)
  | callback callback =>
    cases callback with
    | failed error lost => exact .of_eq rfl
    | read item =>
      obtain ⟨pendingRead, queuedReads, heq⟩ := queueRead_queues c item
      refine .of_eq ?_
      show (c.queueRead item).results = c.results
      rw [heq]
    | event event => exact absurd rfl (hi event)
  | microtask => exact .of_eq (deliverRead_passes { c with microtasks := c.microtasks - 1 }).results
  | @resume index awaited task result hidle htask =>
    have hgains := proceed_gains { c with tasks := c.tasks.eraseIdx index } task result
    refine (hgains.mono ?_).after rfl
    rintro p ⟨rest, rfl⟩
    exact .inr ⟨awaited, rest, List.mem_of_getElem? htask⟩
  | returns => exact .of_eq (deliverBatch_passes c _).results
  | throws =>
    refine .of_eq ?_
    split <;> rfl

/-! ### The promise of a request -/

/-- **The promise of a request**: it waits for the event with this id, or it is settled. -/
inductive Ticket (c : Client) (id promise : ℕ) : Prop
  | waiting (hnone : c.results.lookup promise = none) (hrecord : (id, ⟨promise, true⟩) ∈ c.port.pending)
      (hunique : ∀ record ∈ c.port.pending, record.2.promise = promise → record = (id, ⟨promise, true⟩))
  | settled (result : Settlement (Option NativeEvent)) (hresult : c.results.lookup promise = some result)

theorem lookup_map_const {promises : List ℕ} {promise : ℕ} (h : promise ∈ promises)
    (result : Settlement (Option NativeEvent)) : (promises.map (·, result)).lookup promise = some result := by
  induction promises with
  | nil => cases h
  | cons other promises ih =>
    rw [List.map_cons, List.lookup_cons]
    by_cases heq : promise = other
    · simp [heq]
    · rcases List.mem_cons.1 h with h | h
      · exact absurd h heq
      · rw [beq_false_of_ne heq]
        exact ih h

theorem unrecord_split {p : BindingPort} {id : ℕ} {pending : Pending} (h : p.pending.lookup id = some pending)
    (ordered : Bool) : ∃ before after, p.pending = before ++ (id, pending) :: after ∧
      (p.unrecord id ordered).pending = before ++ after := by
  obtain ⟨before, after, hsplit, hbefore⟩ := List.lookup_eq_some_iff.1 h
  refine ⟨before, after, hsplit, ?_⟩
  have herase : (p.unrecord id ordered).pending = p.pending.eraseP (·.1 == id) := (release_samePort _ _).pending
  rw [herase, hsplit, List.eraseP_append_right, List.eraseP_cons_of_pos (by simp)]
  intro record hrecord
  have hne := hbefore record hrecord
  rw [bne_iff_ne] at hne
  exact fun h => hne (beq_iff_eq.1 h).symm

/-- The event that settles the operation with this id. -/
def Resolves (id : ℕ) (i : Input) : Prop :=
  ∃ event, i = .callback (.event event) ∧ event.id = id ∧ event.kind ≠ .opened ∧ event.kind ≠ .closed

namespace Ticket

variable {id promise : ℕ}

/-- The record of an event is taken away, and its promise settled. -/
theorem unrecord (h : Ticket c id promise) {other : ℕ} {pending : Pending}
    (hlookup : c.port.pending.lookup other = some pending) (settlement : Settlement (Option NativeEvent)) :
    Ticket ({ c with port := c.port.unrecord other pending.ordered }.settle pending.promise settlement) id promise ∧
      ∀ result, (c.results ++ [(pending.promise, settlement)]).lookup promise = some result →
        c.results.lookup promise = some result ∨ other = id := by
  obtain ⟨before, after, hsplit, herase⟩ := unrecord_split hlookup pending.ordered
  cases h with
  | waiting hnone hrecord hunique =>
    by_cases heq : pending.promise = promise
    · -- its own event
      have hself := hunique (other, pending) (by simp [hsplit]) heq
      refine ⟨.settled settlement ?_, fun result _ => .inr (congrArg Prod.fst hself)⟩
      show (c.results ++ [(pending.promise, settlement)]).lookup promise = _
      rw [List.lookup_append, hnone, heq]
      simp
    · have hnone' : (c.results ++ [(pending.promise, settlement)]).lookup promise = none := by
        rw [List.lookup_append, hnone, List.lookup_cons, beq_false_of_ne (Ne.symm heq)]
        rfl
      refine ⟨.waiting hnone' ?_ fun record hr => hunique record ?_, fun result hresult => ?_⟩
      · show _ ∈ (c.port.unrecord other pending.ordered).pending
        rw [hsplit, List.mem_append, List.mem_cons] at hrecord
        rw [herase, List.mem_append]
        rcases hrecord with hr | hr | hr
        · exact .inl hr
        · exact absurd (congrArg (fun record => record.2.promise) hr).symm heq
        · exact .inr hr
      · change record ∈ (c.port.unrecord other pending.ordered).pending at hr
        rw [herase, List.mem_append] at hr
        rw [hsplit, List.mem_append, List.mem_cons]
        rcases hr with hr | hr
        · exact .inl hr
        · exact .inr (.inr hr)
      · cases hnone'.symm.trans hresult
  | settled result hresult =>
    have hresult' : (c.results ++ [(pending.promise, settlement)]).lookup promise = some result := by
      rw [List.lookup_append, hresult]
      rfl
    exact ⟨.settled result hresult', fun result' h => .inl (by rwa [← hresult'.symm.trans h])⟩

/-- The close event rejects the promises of all records, and resolves `_closed`. -/
theorem reject (h : Ticket c id promise) (port : BindingPort) (reason : SerialError) :
    let results := c.results ++ (c.port.pending.map fun record => record.2.promise).map (·, .error reason) ++ [(0, .ok none)]
    Ticket { c with port := port, results := results } id promise ∧
      ∀ event, results.lookup promise = some (.ok event) → c.results.lookup promise = some (.ok event) := by
  intro results
  cases h with
  | waiting hnone hrecord hunique =>
    have hmem : promise ∈ c.port.pending.map fun record => record.2.promise := List.mem_map.2 ⟨_, hrecord, rfl⟩
    have hrejected : results.lookup promise = some (.error reason) := by
      rw [List.lookup_append, List.lookup_append, hnone, lookup_map_const hmem]
      rfl
    refine ⟨.settled _ hrejected, fun event hevent => ?_⟩
    cases hrejected.symm.trans hevent
  | settled result hresult =>
    have hresult' : results.lookup promise = some result := by
      rw [List.lookup_append, List.lookup_append, hresult]
      rfl
    exact ⟨.settled result hresult', fun event hevent => by rwa [← hresult'.symm.trans hevent]⟩

theorem settle (h : Ticket c id promise) (other : ℕ) (error : Option SerialError) (event : NativeEvent) :
    Ticket (c._settle other error event).1 id promise ∧ ∀ result,
      (c._settle other error event).1.results.lookup promise = some result →
      c.results.lookup promise = some result ∨ other = id := by
  unfold _settle
  cases hlookup : c.port.pending.lookup other with
  | none => exact ⟨h, fun result hresult => .inl hresult⟩
  | some pending => exact h.unrecord hlookup _

theorem finishClose (h : Ticket c id promise) (error : Option SerialError) :
    Ticket (c._finishClose error).1 id promise ∧ ∀ event,
      (c._finishClose error).1.results.lookup promise = some (.ok event) → c.results.lookup promise = some (.ok event) := by
  unfold _finishClose
  split
  · exact ⟨h, fun _ hevent => hevent⟩
  · exact h.reject _ _

end Ticket

/-- **One step of the port** resolves the promise of a request only with its event. -/
theorem step_ticket {w : Writer} (hat : c.At w) {id promise : ℕ} (hmade : promise < c.promises)
    (h : Ticket c id promise) {i : Input} {out : List Output} (hstep : client.step c i = some (c', out)) :
    Ticket c' id promise ∧ ∀ event, c'.results.lookup promise = some (.ok event) →
      c.results.lookup promise = some (.ok event) ∨ Resolves id i := by
  by_cases hi : ∃ event, i = .callback (.event event)
  · obtain ⟨event, rfl⟩ := hi
    change c.step (.callback (.event event)) = some (c', out) at hstep
    cases step_runs hstep with
    | callback =>
      show Ticket (c._event event).1 id promise ∧ ∀ event', (c._event event).1.results.lookup promise = some (.ok event') → _
      unfold _event
      cases hkind : event.kind with
      | opened =>
        dsimp only
        split
        · exact ⟨h, fun _ => .inl⟩
        · refine ⟨?_, fun _ => .inl⟩
          cases h with
          | waiting hnone hrecord hunique => exact .waiting hnone hrecord hunique
          | settled result hresult => exact .settled result hresult
      | closed =>
        obtain ⟨hticket, hresults⟩ := h.finishClose (c.port.failure.or
          (if event.message.getD "" = "" then none else some (c.port._nativeError event)))
        exact ⟨hticket, fun event' hevent => .inl (hresults event' hevent)⟩
      | _ =>
        obtain ⟨hticket, hresults⟩ := h.settle event.id
          (if event.kind = .error then some (c.port._nativeError event) else none) event
        rw [hkind] at hticket hresults
        refine ⟨hticket, fun event' hevent => (hresults _ hevent).imp_right fun hid => ?_⟩
        exact ⟨event, rfl, hid, by rw [hkind]; decide, by rw [hkind]; decide⟩
  · -- without an event, the records stay, and no promise of a record is settled
    have hi' : ∀ event, i ≠ .callback (.event event) := fun event heq => hi ⟨event, heq⟩
    obtain ⟨hkept, hnew⟩ : (∀ record ∈ c.port.pending, record ∈ c'.port.pending) ∧
        ∀ record ∈ c'.port.pending, record ∈ c.port.pending ∨ record.2.promise = c.promises := by
      have hsame : c'.port.pending = c.port.pending → (∀ record ∈ c.port.pending, record ∈ c'.port.pending) ∧
          ∀ record ∈ c'.port.pending, record ∈ c.port.pending ∨ record.2.promise = c.promises := by
        intro heq
        exact ⟨fun _ hmem => heq ▸ hmem, fun _ hmem => .inl (heq ▸ hmem)⟩
      cases step_requestStep hstep with
      | method hi hcalling hsub => exact hsame hsub.frame.pending
      | dropped hcalling hsite ha hmay hc hout => exact hsame (hc ▸ (answered_dropped _ hsite ha).2.1.pending)
      | queued hcalling hsite ha =>
        have hpending := ha.pending
        rw [hpending]
        refine ⟨fun record hmem => List.mem_append_left _ hmem, fun record hmem => ?_⟩
        rcases List.mem_append.1 hmem with hmem | hmem
        · exact .inl hmem
        · rw [List.mem_singleton.1 hmem]
          exact .inr rfl
      | credited hcalling hnone hsame' hout => exact hsame hsame'.pending
      | event => exact absurd rfl (hi' _)
      | other hcalling hsame' hout => exact hsame hsame'.pending
    have hstable : ∀ {result}, c.results.lookup promise = some result → c'.results.lookup promise = some result :=
      fun {result} hresult =>
        have hsettled : c.result (.promise promise) = some result := hresult
        Client.step_result hstep hsettled
    cases h with
    | settled result hresult =>
      refine ⟨.settled result (hstable hresult), fun event hevent => .inl ?_⟩
      rwa [← (hstable hresult).symm.trans hevent]
    | waiting hnone hrecord hunique =>
      have hnone' : c'.results.lookup promise = none := by
        refine (step_gains (i := i) hstep hi').lookup_none ?_ hnone
        rintro (hnew | ⟨awaited, rest, htask⟩)
        · omega
        · -- a loop has a promise of its own
          obtain ⟨index, hindex⟩ := List.getElem?_of_mem htask
          obtain ⟨before, after, hwriters, -⟩ := erase_writers hindex rfl
          obtain ⟨method, rfl, -, -⟩ := hat.loops_of hwriters
          exact (hat.unsettled _ _ _ _ rfl).fresh _ hrecord rfl
      refine ⟨.waiting hnone' (hkept _ hrecord) fun record hmem heq => ?_, fun event hevent => ?_⟩
      · rcases hnew record hmem with hmem | hpromise
        · exact hunique record hmem heq
        · omega
      · cases hnone'.symm.trans hevent

end Client

end NodeSerialport.Binding
