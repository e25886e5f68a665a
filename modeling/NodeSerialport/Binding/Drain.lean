import NodeSerialport.Binding.Vectored
/-!
# `drain`

`drain` waits for `_writePromise`, which holds the last write also when that write is over, and then makes a request of its
own.

* `Drainer`, `Client.DrainAt` — where a call of `drain` is;
* `DrainStep`, `step_drainer` — what one step of the port does to it;
* `drain_unaffected_iff` — when an earlier write makes it fail.
-/

namespace NodeSerialport.Binding

open Lib (Machine)

/-- **Where a call of `drain` is.** -/
inductive Drainer where
  /-- It waits for `_writePromise`. -/
  | waiting (awaited : Awaited)
  /-- Its request is in the hands of the native handle. -/
  | submitting (id : ℕ)
  /-- It waits for its request. -/
  | requested (awaited : Awaited)
  | ended

/-- The call of `drain` with this promise is there. -/
def Client.DrainAt (c : Client) (method : ℕ) : Drainer → Prop
  | .waiting awaited => (awaited, .drain method) ∈ c.tasks
  | .submitting id => c.calling = some (.request id .drain 0, .request true (.method method))
  | .requested awaited => (awaited, .method method) ∈ c.tasks
  | .ended => method ∉ c.methods

/-- **What a step does to a call of `drain`.** -/
inductive DrainStep (c : Client) (i : Input) (out : List Output) (method : ℕ) : Drainer → Drainer → Prop
  | stays {d : Drainer} (hout : method ∉ returns out) : DrainStep c i out method d d
  | asks {index id : ℕ} {awaited : Awaited} {event : Option NativeEvent} (hi : i = .resume index)
      (htask : c.tasks[index]? = some (awaited, .drain method)) (hresult : c.result awaited = some (.ok event))
      (hout : out = [.called (.request id .drain 0)]) : DrainStep c i out method (.waiting awaited) (.submitting id)
  | refused {index : ℕ} {awaited : Awaited} {event : Option NativeEvent} {error : SerialError} (hi : i = .resume index)
      (htask : c.tasks[index]? = some (awaited, .drain method)) (hresult : c.result awaited = some (.ok event))
      (hout : out = []) : DrainStep c i out method (.waiting awaited) (.requested (.settled (.error error)))
  | failed {index : ℕ} {awaited : Awaited} {error : SerialError} (hi : i = .resume index)
      (htask : c.tasks[index]? = some (awaited, .drain method)) (hresult : c.result awaited = some (.error error))
      (hout : out = [.returned method (.error error)]) : DrainStep c i out method (.waiting awaited) .ended
  | queued {id : ℕ} (hi : i = .answer .queued) (hout : out = [.accepted id c.promises true]) :
      DrainStep c i out method (.submitting id) (.requested (.promise c.promises))
  | thrown {id : ℕ} {error : SerialError} (hi : i = .answer (.thrown error)) (hout : out = []) :
      DrainStep c i out method (.submitting id) (.requested (.settled (.error error)))
  | ends {index : ℕ} {awaited : Awaited} {result : Settlement (Option NativeEvent)} (hi : i = .resume index)
      (htask : c.tasks[index]? = some (awaited, .method method)) (hresult : c.result awaited = some result)
      (hout : out = [.returned method result]) : DrainStep c i out method (.requested awaited) .ended

namespace Client

variable {c c' : Client} {method : ℕ} {out : List Output}

theorem step_calling {i : Input} (hstep : c.step i = some (c', out)) {call : NativeCall} {site : Site}
    (hcalling : c.calling = some (call, site)) : ∃ answer, i = .answer answer ∧
      ({ c with calling := none }.answered call site answer) = (c', out) ∧
        (answer = .completed → call.mayComplete = true) := by
  have hbusy : c.calling ≠ none := by
    rw [hcalling]
    nofun
  cases step_runs hstep with
  | answer answer hcalling' hmay =>
    obtain ⟨rfl, rfl⟩ := Prod.mk.inj (Option.some.inj (hcalling'.symm.trans hcalling))
    exact ⟨answer, rfl, rfl, hmay⟩
  | invoke m hnone => exact absurd hnone hbusy
  | callback callback hidle => exact absurd (idle_calling hidle) hbusy
  | microtask hidle => exact absurd (idle_calling hidle) hbusy
  | resume hidle => exact absurd (idle_calling hidle) hbusy
  | returns hnone => exact absurd hnone hbusy
  | throws hnone => exact absurd hnone hbusy

theorem step_resume {index : ℕ} (hstep : c.step (.resume index) = some (c', out)) {awaited : Awaited} {task : Task}
    (htask : c.tasks[index]? = some (awaited, task)) : ∃ result, c.result awaited = some result ∧ c.idle = true ∧
      ({ c with tasks := c.tasks.eraseIdx index }.proceed task result) = (c', out) := by
  cases step_runs hstep with
  | resume hidle htask' hresult =>
    obtain ⟨rfl, rfl⟩ := Prod.mk.inj (Option.some.inj (htask'.symm.trans htask))
    exact ⟨_, hresult, hidle, rfl⟩

end Client

theorem Methodical.not_returns {c c' : Client} (h : Methodical c) {i : Input} {out : List Output}
    (hstep : client.step c i = some (c', out)) {method : ℕ} (hmem : method ∈ c'.methods) : method ∉ returns out :=
  fun hreturns => h.ended hstep hreturns hmem

/-- **One step of the port** moves a call of `drain` as `DrainStep` says. -/
theorem step_drainer {c c' : Client} {method : ℕ} (hm : Methodical c) (hmade : method < c.promises) {d : Drainer}
    (h : c.DrainAt method d) {i : Input} {out : List Output} (hstep : client.step c i = some (c', out)) :
    ∃ d', c'.DrainAt method d' ∧ DrainStep c i out method d d' := by
  cases d with
  | waiting awaited =>
    rcases Client.step_task (i := i) hstep h with hmem | ⟨index, rfl, htask⟩
    · exact ⟨.waiting awaited, hmem, .stays (hm.not_returns hstep (Methodical.task_mem hmem rfl))⟩
    · obtain ⟨result, hresult, hidle, hproceed⟩ := Client.step_resume hstep htask
      cases result with
      | error error =>
        obtain ⟨rfl, rfl⟩ := Prod.mk.inj hproceed
        refine ⟨.ended, ?_, .failed rfl htask hresult rfl⟩
        exact hm.ended hstep (List.mem_singleton_self _)
      | ok event =>
        let c₁ : Client := { c with tasks := c.tasks.eraseIdx index }
        have hrequest : c₁.request (.control .drain 0) (.method method) = (c', out) := hproceed
        rcases Client.request_cases c₁ (.control .drain 0) (.method method) with ⟨id, inline, port, -, heq⟩ |
          ⟨error, port, -, heq⟩
        · obtain ⟨rfl, rfl⟩ := Prod.mk.inj (hrequest.symm.trans heq)
          exact ⟨.submitting id, rfl, .asks rfl htask hresult rfl⟩
        · obtain ⟨rfl, rfl⟩ := Prod.mk.inj (hrequest.symm.trans heq)
          refine ⟨.requested (.settled (.error error)), ?_, .refused rfl htask hresult rfl⟩
          exact List.mem_append_right _ (List.mem_singleton_self _)
  | submitting id =>
    obtain ⟨answer, rfl, hanswered, hmay⟩ := Client.step_calling (i := i) hstep h
    cases answer with
    | completed => cases hmay rfl
    | queued =>
      obtain ⟨rfl, rfl⟩ := Prod.mk.inj hanswered
      refine ⟨.requested (.promise c.promises), ?_, .queued rfl rfl⟩
      exact List.mem_append_right _ (List.mem_singleton_self _)
    | thrown error =>
      obtain ⟨rfl, rfl⟩ := Prod.mk.inj hanswered
      refine ⟨.requested (.settled (.error error)), ?_, .thrown rfl rfl⟩
      exact List.mem_append_right _ (List.mem_singleton_self _)
  | requested awaited =>
    rcases Client.step_task (i := i) hstep h with hmem | ⟨index, rfl, htask⟩
    · exact ⟨.requested awaited, hmem, .stays (hm.not_returns hstep (Methodical.task_mem hmem rfl))⟩
    · obtain ⟨result, hresult, hidle, hproceed⟩ := Client.step_resume hstep htask
      obtain ⟨rfl, rfl⟩ := Prod.mk.inj hproceed
      refine ⟨.ended, ?_, .ends rfl htask hresult rfl⟩
      exact hm.ended hstep (List.mem_singleton_self _)
  | ended =>
    have hhands := Client.step_hands (i := i) hstep
    have hnot : ∀ {methods : List ℕ}, methods ⊆ c.methods ++ c.starts i → method ∉ methods := by
      intro methods hsub hmem
      rcases List.mem_append.1 (hsub hmem) with hmem | hmem
      · exact h hmem
      · have := (Client.starts_lt hstep hmem).1
        omega
    refine ⟨.ended, hnot ?_, .stays (hnot ?_)⟩
    · exact fun _ hmem => hhands.subset (List.mem_append_left _ hmem)
    · exact fun _ hmem => hhands.subset (List.mem_append_right _ hmem)

/-! ### Earlier writes -/

/-- The input settles the call of `drain` with what became of its own request. -/
def Client.OwnRequest (c : Client) (method : ℕ) (i : Input) : Prop :=
  ∃ index awaited, i = .resume index ∧ c.tasks[index]? = some (awaited, .method method)

/-- **A call of `drain` rejects only on its own account**: as long as the port stays open, only through its own request. -/
def Unaffected (c₁ : Client) (method : ℕ) : Prop :=
  ∀ inputs c outputs i c' out error, client.run c₁ inputs = some (c, outputs) → client.step c i = some (c', out) →
    c.port.isOpen = true → c.port.closing = false → .returned method (.error error) ∈ out → c.OwnRequest method i

/-- What `_writePromise` holds is no rejected promise. -/
def Client.Unrejected (c : Client) : Prop :=
  ∀ awaited error, c.port.writePromise = some awaited → c.result awaited ≠ some (.error error)

/-- A call of `drain` that waits for nothing, or for a write that succeeded. -/
structure Hopeful (method : ℕ) (c : Client) : Prop where
  methodical : Methodical c
  made : method < c.promises
  drain : ∃ d, c.DrainAt method d ∧ ∀ awaited, d = .waiting awaited → ∃ event, c.result awaited = some (.ok event)

namespace Hopeful

variable {c c' : Client} {method : ℕ} {i : Input} {out : List Output}

theorem step (h : Hopeful method c) (hstep : client.step c i = some (c', out)) : Hopeful method c' := by
  obtain ⟨hm, hmade, d, hd, hresult⟩ := h
  obtain ⟨d', hd', hstep'⟩ := step_drainer hm hmade hd hstep
  refine ⟨hm.step hstep, hmade.trans_le (Client.promises_mono hstep), d', hd', ?_⟩
  rintro awaited rfl
  cases hstep' with
  | stays =>
    obtain ⟨event, hevent⟩ := hresult awaited rfl
    exact ⟨event, Client.step_result (i := i) hstep hevent⟩

theorem own (h : Hopeful method c) (hstep : client.step c i = some (c', out)) {error : SerialError}
    (hreturned : .returned method (.error error) ∈ out) : c.OwnRequest method i := by
  obtain ⟨hm, hmade, d, hd, hresult⟩ := h
  obtain ⟨d', hd', hstep'⟩ := step_drainer hm hmade hd hstep
  cases hstep' with
  | stays hout => exact absurd (mem_returns hreturned) hout
  | asks hi htask hr hout => simp [hout] at hreturned
  | refused hi htask hr hout => simp [hout] at hreturned
  | failed hi htask hr hout =>
    obtain ⟨event, hevent⟩ := hresult _ rfl
    cases hevent.symm.trans hr
  | queued hi hout => simp [hout] at hreturned
  | thrown hi hout => simp [hout] at hreturned
  | ends hi htask hr hout => exact ⟨_, _, hi, htask⟩

end Hopeful

theorem step_drain {c c₁ : Client} {out : List Output} (hstep : client.step c (.invoke .drain) = some (c₁, out)) :
    c.calling = none ∧ c₁ = c.promise.2.await (c.port.writePromise.getD .RESOLVED) (.drain c.promises) := by
  change c.step (.invoke .drain) = some (c₁, out) at hstep
  cases Client.step_runs hstep with
  | invoke m hcalling => exact ⟨hcalling, rfl⟩

theorem drain_rejected {c : Client} (hidle : c.idle = true) {index method : ℕ} {awaited : Awaited} {error : SerialError}
    (htask : c.tasks[index]? = some (awaited, .drain method)) (hresult : c.result awaited = some (.error error)) :
    ∃ c', client.step c (.resume index) = some (c', [.returned method (.error error)]) := by
  refine ⟨{ c with tasks := c.tasks.eraseIdx index }, ?_⟩
  show c.step (.resume index) = _
  simp only [Client.step, htask, hresult, hidle]
  rfl

/-- **An earlier failed write poisons `drain`** exactly where `_writePromise` still holds its rejected promise: of every
call of `drain` while no write is in progress, in every run of the port. -/
theorem drain_unaffected_iff (path : String) (nextId : ℕ) (before : List Input) (c : Client) (outputs : List Output)
    (hrun : client.run (Client.new path nextId) before = some (c, outputs)) (hopen : c.port.isOpen = true)
    (hclosing : c.port.closing = false) (hwriting : c.port.writing = false) (c₁ : Client) (out : List Output)
    (hstep : client.step c (.invoke .drain) = some (c₁, out)) : Unaffected c₁ c.promises ↔ c.Unrejected := by
  obtain ⟨⟨w, hat⟩, hm⟩ := reachable_at hrun
  obtain ⟨hcalling, heq⟩ := step_drain hstep
  have hidle := hat.idle_of hwriting
  subst hidle
  constructor
  · intro hunaffected awaited error hpromise hresult
    have htask : c₁.tasks[c.tasks.length]? = some (awaited, .drain c.promises) := by
      rw [heq, hpromise]
      show (c.tasks ++ [(awaited, Task.drain c.promises)])[c.tasks.length]? = _
      rw [List.getElem?_append_right (le_refl _), Nat.sub_self]
      rfl
    have hresult₁ : c₁.result awaited = some (.error error) := Client.step_result (i := .invoke .drain) hstep hresult
    have hcalling₁ : c₁.calling = none := heq ▸ hcalling
    have hport : c₁.port = c.port := heq ▸ rfl
    -- the listener that runs, if there is one, ends first
    obtain ⟨inputs, c₂, hrun₂, hidle₂, htasks₂, hport₂, hresults₂⟩ : ∃ inputs c₂, client.run c₁ inputs = some (c₂, []) ∧
        c₂.idle = true ∧ c₂.tasks = c₁.tasks ∧ c₂.port = c₁.port ∧ c₂.results = c₁.results := by
      cases hdata : c₁.onData with
      | none => exact ⟨[], c₁, rfl, by simp [Client.idle, hdata, hcalling₁], rfl, rfl, rfl⟩
      | some rest =>
        let c₂ : Client := { c₁ with onData := none, calling := none }
        refine ⟨[.throws], if rest ≠ [] ∧ c₂.port.isOpen then c₂.retainRead rest else c₂, ?_, ?_⟩
        · apply Machine.run_singleton
          show c₁.step .throws = _
          simp only [Client.step, hdata, hcalling₁]
          exact if_pos rfl
        · split <;> exact ⟨rfl, rfl, rfl, rfl⟩
    have hresult₂ : c₂.result awaited = some (.error error) := by
      cases awaited with
      | settled => exact hresult₁
      | promise index =>
        show c₂.results.lookup index = _
        rw [hresults₂]
        exact hresult₁
    obtain ⟨c', hreject⟩ := drain_rejected hidle₂ (htasks₂ ▸ htask) hresult₂
    have hport' : c₂.port = c.port := hport₂.trans hport
    obtain ⟨index, awaited', hi, htask'⟩ := hunaffected inputs c₂ [] (.resume c.tasks.length) c' _ error hrun₂ hreject
      (hport' ▸ hopen) (hport' ▸ hclosing) (List.mem_singleton_self _)
    cases hi
    rw [htasks₂, htask] at htask'
    cases htask'
  · intro hunrejected inputs c' outputs' i c'' out' error hrun' hstep' _ _ hreturned
    have hstart : Hopeful c.promises c₁ := by
      refine ⟨hm.step hstep, heq ▸ Nat.lt_succ_self _, .waiting (c.port.writePromise.getD .RESOLVED), ?_, ?_⟩
      · show _ ∈ c₁.tasks
        rw [heq]
        exact List.mem_append_right _ (List.mem_singleton_self _)
      · rintro awaited ⟨⟩
        have hsettled : ∃ event, c.result (c.port.writePromise.getD .RESOLVED) = some (.ok event) := by
          cases hpromise : c.port.writePromise with
          | none => exact ⟨none, rfl⟩
          | some awaited =>
            obtain ⟨result, hresult⟩ := Option.isSome_iff_exists.1 (hat.settled rfl awaited hpromise)
            cases result with
            | error error => exact absurd hresult (hunrejected awaited error hpromise)
            | ok event => exact ⟨event, hresult⟩
        obtain ⟨event, hevent⟩ := hsettled
        exact ⟨event, Client.step_result (i := .invoke .drain) hstep hevent⟩
    have hend : Hopeful c.promises c' :=
      Machine.run_invariant (m := client) (Hopeful c.promises) (fun _ _ _ _ h hs => h.step hs) hstart hrun'
    exact hend.own hstep' hreturned

/-- After a write of one chunk that the native handle refused. -/
theorem drain_unaffected_refused : ∃ c outputs c₁ out,
    client.run (Client.new "/dev/ttyS0" 1) [.callback (.event { kind := .opened, id := 0 }), .invoke (.write (.ofBytes [7])),
      .answer (.thrown { message := "Too many pending serial operations" })] = some (c, outputs) ∧
    client.step c (.invoke .drain) = some (c₁, out) ∧ Unaffected c₁ c.promises := by
  refine ⟨_, _, _, _, rfl, rfl, ?_⟩
  refine (drain_unaffected_iff "/dev/ttyS0" 1 [.callback (.event { kind := .opened, id := 0 }),
    .invoke (.write (.ofBytes [7])), .answer (.thrown { message := "Too many pending serial operations" })] _ _ rfl rfl rfl
    rfl _ _ rfl).2 ?_
  rintro awaited error ⟨⟩ hresult
  cases hresult

/-- After the same refusal in the loop of `writev`, which its caller has seen. -/
theorem drain_poisoned : ∃ before c outputs c₁ out, client.run (Client.new "/dev/ttyS0" 1) before = some (c, outputs) ∧
    c.port.isOpen = true ∧ c.port.closing = false ∧ c.port.writing = false ∧
    .returned 1 (.error { message := "Too many pending serial operations" }) ∈ outputs ∧
    client.step c (.invoke .drain) = some (c₁, out) ∧ ¬Unaffected c₁ c.promises := by
  have hopened : client.step (Client.new "/dev/ttyS0" 1) (.callback (.event { kind := .opened, id := 0 })) =
    some (openPort, [.opened (.ok ())]) := rfl
  refine ⟨.callback (.event { kind := .opened, id := 0 }) :: .invoke (.writev [⟨[1, 2, 3], 2⟩, ⟨[], 0⟩, ⟨[4], 1⟩]) ::
    [.answer (.thrown { message := "Too many pending serial operations" }), .resume 1, .resume 0], _, _, _, _,
    Machine.run_cons hopened (Machine.run_cons step_shadowed rfl), rfl, rfl, rfl, ?_, rfl, ?_⟩
  · simp
  · intro h
    obtain ⟨index, awaited, hi, htask⟩ := h [] _ [] (.resume 0) _ _ { message := "Too many pending serial operations" } rfl rfl
      rfl rfl (List.mem_singleton_self _)
    cases hi
    cases htask

end NodeSerialport.Binding
