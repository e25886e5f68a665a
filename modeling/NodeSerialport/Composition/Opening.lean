import NodeSerialport.Composition.Conveyed
import NodeSerialport.Composition.Steering
/-!
# A port is opened once, and brings what it was asked for

* `OpensOnce` — once the promise `opened` has settled, no other open event is to come;
* `Asks` — a port that was not asked for its data has no credit;
* `Engaged` — both, along runs;
* `Engaged.flows` — a port that hands data over is open and was asked for it.
-/

namespace NodeSerialport.Composition

open Lib (Machine)
open Parsers (Buffer)
open Binding (Client NativeEvent ReadStep passed)
open Binding.Client (FlowStep LifeStep)
open Native (NativePort CallbackEvent)

variable {s s' : System} {out : List Output}

/-! ### The open event -/

/-- **No other open event is to come** once `opened` has settled. -/
def OpensOnce (s : System) : Prop := s.js.port.opened.isSome = true →
  s.native.callbacks.countP CallbackEvent.opens + (s.native.reactor.pc.signals - 1) = 0

theorem step_opened {c c' : Client} {i : Binding.Input} {out : List Binding.Output}
    (hstep : Binding.client.step c i = some (c', out)) (hi : ∀ event, i ≠ .callback (.event event)) :
    c'.port.opened = c.port.opened := by
  cases Client.step_flowStep hstep with
  | firm h => exact h.opened
  | asked _ _ _ opened => exact opened
  | opened => exact absurd rfl (hi _)
  | finished => exact absurd rfl (hi _)
  | passed _ _ _ _ opened => exact opened

theorem callback_event {event : CallbackEvent} {allocate : ℕ → Native.Allocation} {e : NativeEvent}
    (h : event.callback allocate = .event e) : event = .event e := by
  cases event with
  | event nativeEvent =>
    cases h
    rfl
  | _ =>
    simp only [CallbackEvent.callback] at h
    split at h <;> cases h

namespace OpensOnce

theorem start (path : String) (nextId : ℕ) : OpensOnce (System.new path nextId) := fun h => nomatch h

theorem still (h : OpensOnce s) (hopened : s'.js.port.opened = s.js.port.opened)
    (hcallbacks : s'.native.callbacks = s.native.callbacks) (hreactor : s'.native.reactor = s.native.reactor) : OpensOnce s' := by
  intro hsome
  rw [hcallbacks, hreactor]
  exact h (hopened ▸ hsome)

theorem moves (h : OpensOnce s) {n : NativePort} {nOut : List Native.Output} (hm : Native.Moves s.native n nOut)
    (hfits : Native.Fits s.native) : OpensOnce ⟨s.js, n⟩ := by
  intro hsome
  have hzero := h hsome
  show n.callbacks.countP CallbackEvent.opens + (n.reactor.pc.signals - 1) = 0
  cases hm.queueFlow hfits with
  | same callbacks signals =>
    rw [callbacks]
    omega
  | signalled event callbacks hsignal signals closes opens =>
    rw [callbacks, List.countP_append, List.countP_singleton]
    split
    · have htwo := opens ‹_›
      omega
    · omega
  | sent event callbacks hsignal hevent hsignals signals =>
    have hno : ¬event.opens = true := fun hopens => nomatch (CallbackEvent.opens_signal hopens).symm.trans hsignal
    rw [callbacks, List.countP_append, List.countP_singleton, if_neg hno]
    omega

/-- **Every step keeps it.** -/
theorem step (h : OpensOnce s) (hl : Linked s) {i : Input} (hstep : system.step s i = some (s', out)) : OpensOnce s' := by
  cases system_step hstep with
  | js hi hjs =>
    refine h.still (step_opened hjs fun event heq => ?_) rfl rfl
    subst heq
    cases hi
  | answer hcall hcalling hjs =>
    rename_i answer call site js jsOut
    exact h.still (step_opened hjs fun event heq => Binding.Input.noConfusion heq) rfl rfl
  | native hi hn =>
    cases native_nativeStep hl.attuned.fits hi hn with
    | reactor hm => exact h.moves hm hl.attuned.fits
    | call hcall hstepCall =>
      obtain ⟨hsame, hcallbacks, -⟩ := Native.stepCall_sameReactor hstepCall
      exact h.still rfl hcallbacks hsame.reactor
    | stop | teardown => exact h
  | callback hcallbacks hjs =>
    rename_i allocate event callbacks js jsOut
    intro hsome
    show callbacks.countP CallbackEvent.opens + (s.native.reactor.pc.signals - 1) = 0
    have hopens := hl.tracked.queue.opens
    rw [hcallbacks, List.countP_cons] at hopens
    cases hold : s.js.port.opened.isSome with
    | true =>
      have hzero := h hold
      rw [hcallbacks, List.countP_cons] at hzero
      omega
    | false =>
      by_cases hevent : ∃ e, event.callback allocate = .event e
      · obtain ⟨e, he⟩ := hevent
        obtain rfl := callback_event he
        rw [he] at hjs
        cases Client.step_flowStep hjs with
        | firm hfirm =>
          have hsame : js.port.opened = s.js.port.opened := hfirm.opened
          rw [hsame, hold] at hsome
          cases hsome
        | opened hkind =>
          have hone : (CallbackEvent.event e).opens = true := beq_iff_eq.2 hkind
          rw [if_pos hone] at hopens
          omega
        | finished error hkind =>
          obtain ⟨rfl, hsignals⟩ := hl.tracked.queue.last [] _ callbacks hcallbacks (beq_iff_eq.2 hkind)
          rw [hsignals]
          rfl
        | passed data hi => rcases hi with hi | hi <;> cases hi
      · have hsame := step_opened hjs fun e heq => hevent ⟨e, Binding.Input.callback.inj heq⟩
        rw [hsame, hold] at hsome
        cases hsome

/-- **A port that was opened once is not opened again.** -/
theorem not_reopens (h : OpensOnce s) {i : Input} (hstep : system.step s i = some (s', out)) : ¬Reopens s.js s'.js := by
  rintro ⟨hsome, hshut, hopen⟩
  have hlife {i : Binding.Input} {js : Client} {jsOut : List Binding.Output}
      (hjs : Binding.client.step s.js i = some (js, jsOut)) (hopen : js.port.isOpen = true) :
      ∃ e, i = .callback (.event e) ∧ e.kind = .opened := by
    have hsame (heq : js.port.isOpen = s.js.port.isOpen) : ∃ e, i = .callback (.event e) ∧ e.kind = .opened :=
      absurd (hshut.symm.trans (heq.symm.trans hopen)) Bool.false_ne_true
    cases Client.step_lifeStep hjs with
    | kept hk => exact hsame (congrArg Binding.Life.isOpen hk.life)
    | opened hkind => exact ⟨_, rfl, hkind⟩
    | finished _ life | released _ life | canceled life => exact hsame (congrArg Binding.Life.isOpen life)
    | closed hopen' => exact absurd (hshut.symm.trans hopen') Bool.false_ne_true
  cases system_step hstep with
  | js hi hjs =>
    obtain ⟨e, rfl, -⟩ := hlife hjs hopen
    cases hi
  | native => exact absurd (hshut.symm.trans hopen) Bool.false_ne_true
  | answer hcall hcalling hjs =>
    obtain ⟨e, heq, -⟩ := hlife hjs hopen
    exact Binding.Input.noConfusion heq
  | callback hcallbacks hjs =>
    rename_i allocate event callbacks js jsOut
    obtain ⟨e, heq, hkind⟩ := hlife hjs hopen
    obtain rfl := callback_event (Binding.Input.callback.inj heq)
    have hzero := h hsome
    have hone : (CallbackEvent.event e).opens = true := beq_iff_eq.2 hkind
    rw [hcallbacks, List.countP_cons_of_pos hone] at hzero
    omega

end OpensOnce

/-! ### Credit -/

/-- **A port that was not asked for its data** was granted none. -/
structure Asks (c : Client) : Prop where
  slots : c.port.streaming = false → c.port.readSlots = 0
  crediting : c.port.streaming = false → c.crediting = false

theorem Asks.start (path : String) (nextId : ℕ) : Asks (Client.new path nextId) := ⟨fun _ => rfl, fun _ => rfl⟩

theorem crediting_of_calling {c : Client} {call : Binding.NativeCall} {bytes slots : ℤ}
    (h : c.calling = some (call, .credit bytes slots)) : c.crediting = true := by
  rw [Client.crediting, h]
  rfl

theorem Asks.held (h : Asks s.js) {lost : List Buffer} (hfunded : Funded s lost) (ha : Attuned s)
    (hstreaming : s.js.port.streaming = false) : s.js.held = [] := by
  have hgranted : s.granted = (0, 0) := by
    refine System.granted_none fun bytes slots site hcalling => ?_
    rcases ha.called.submitting hcalling with ⟨length, bytes', slots', heq, hsite, -⟩ | ⟨hno, -, -⟩
    · rw [hsite] at hcalling
      exact absurd ((crediting_of_calling hcalling).symm.trans (h.crediting hstreaming)) nofun
    · exact absurd rfl (hno bytes slots)
  have hslots := hfunded.slots
  rw [h.slots hstreaming, hgranted] at hslots
  refine List.eq_nil_of_length_eq_zero ?_
  simp only [add_zero] at hslots
  omega

/-- **Every step of JavaScript keeps it.** -/
theorem Asks.step {c c' : Client} (h : Asks c) (hwf : c.QueueWF) (hscheduled : c.microtasks = c.items.length)
    (hheld : c.port.streaming = false → c.held = []) {i : Binding.Input} {jsOut : List Binding.Output}
    (hstep : Binding.client.step c i = some (c', jsOut)) : Asks c' := by
  have hread := (Client.step_readStep hwf hscheduled hstep).2
  have hslots (hstreaming : c.port.streaming = false) : c'.port.readSlots = 0 := by
    cases hread with
    | kept _ _ _ _ readSlots => exact readSlots.trans (h.slots hstreaming)
    | credited bytes slots hcalling =>
      exact absurd ((crediting_of_calling hcalling).symm.trans (h.crediting hstreaming)) nofun
    | passed data _ _ _ _ _ _ held =>
      rw [hheld hstreaming] at held
      cases held
    | dropped _ _ _ _ _ _ _ _ _ readSlots => exact readSlots.trans (h.slots hstreaming)
  have hcalling (heq : c'.calling = c.calling) (hstreaming : c.port.streaming = false) : c'.crediting = false := by
    rw [Client.crediting, heq]
    exact h.crediting hstreaming
  cases Client.step_flowStep hstep with
  | firm hfirm =>
    have hsame : c'.port.streaming = c.port.streaming := hfirm.streaming
    refine ⟨fun hno => hslots (hsame ▸ hno), fun hno => ?_⟩
    have hold := h.crediting (hsame ▸ hno)
    cases hnew : c'.crediting with
    | false => rfl
    | true => exact absurd ((hfirm.crediting hnew).symm.trans hold) nofun
  | asked _ _ streaming =>
    refine ⟨fun hno => ?_, fun hno => ?_⟩ <;> exact absurd (streaming.symm.trans hno) nofun
  | opened _ streaming _ calling | finished _ _ streaming _ calling | passed _ _ _ streaming _ calling =>
    exact ⟨fun hno => hslots (streaming ▸ hno), fun hno => hcalling calling (streaming ▸ hno)⟩

/-! ### Both -/

/-- What a port of a stream keeps, while its callback queue is not torn down. -/
structure Engaged (s : System) : Prop where
  linked : Linked s
  once : OpensOnce s
  asks : Asks s.js

namespace Engaged

theorem start (path : String) {nextId : ℕ} (h : Binding.BindingPort.InRange nextId) : Engaged (System.new path nextId) :=
  ⟨.start path h, .start path nextId, .start path nextId⟩

theorem step (h : Engaged s) (hteardown : s.native.teardown = false) {i : Input}
    (hstep : system.step s i = some (s', out)) : Engaged s' := by
  obtain ⟨lost, hfunded⟩ := h.linked.funded
  have hjs {i : Binding.Input} {js : Client} {jsOut : List Binding.Output}
      (hjs : Binding.client.step s.js i = some (js, jsOut)) : Asks js :=
    h.asks.step hfunded.wf hfunded.scheduled (h.asks.held hfunded h.linked.attuned) hjs
  refine ⟨h.linked.step hteardown hstep, h.once.step h.linked hstep, ?_⟩
  cases system_step hstep with
  | js _ hclient => exact hjs hclient
  | native => exact h.asks
  | answer _ _ hclient => exact hjs hclient
  | callback _ hclient => exact hjs hclient

/-- **A port that hands data over** was asked for it. -/
theorem flows (h : Engaged s) {i : Binding.Input} {js : Client} {jsOut : List Binding.Output}
    (hstep : Binding.client.step s.js i = some (js, jsOut)) (hpassed : passed jsOut ≠ []) : Flows s.js := by
  obtain ⟨lost, hfunded⟩ := h.linked.funded
  cases (Client.step_readStep hfunded.wf hfunded.scheduled hstep).2 with
  | kept hnone | credited _ _ _ _ hnone | dropped _ _ _ _ _ hnone => exact absurd hnone hpassed
  | passed data hcalling hopen hi hreceived hpassed' hcredits held =>
    refine ⟨?_, hopen⟩
    by_contra hno
    rw [h.asks.held hfunded h.linked.attuned (by simpa using hno)] at held
    cases held

end Engaged

end NodeSerialport.Composition
