import NodeSerialport.Composition.Step
import NodeSerialport.Native.Callbacks
/-!
# What links the two sides of a port

JavaScript and the native side are at the same call of the native handle.

* `Called`, `InCall` — the calls JavaScript makes, and the stage of the call;
* `NativeStep` — what the native side does by itself;
* `Attuned` — the invariant.
-/

namespace NodeSerialport.Composition

open Binding (Client NativeCall Counted)
open Native (NativePort Staged CallStep)

/-! ### The calls of JavaScript -/

theorem operation_ordered (op : Binding.Operation) (id : ℕ) (inline : Bool) :
    Native.ordered (op.call id inline) = op.ordered := by
  cases op <;> rfl

/-- **The calls `BindingPort` makes**: a credit `startReading` tops up with, or a reserved operation, which may be done
at once where it is the only ordered one. -/
def Called (c : Client) : Prop :=
  ∀ call site, c.calling = some (call, site) →
    (∃ length bytes slots, call = .readCredit bytes slots ∧ site = .credit bytes slots ∧
      c.port.credit length = some (bytes, slots) ∧ (c.port.isOpen = false → c.port.closing = true)) ∨
    ∃ (op : Binding.Operation) (id : ℕ), call = op.call id (c.port.ordered == 1) ∧ site.ordered = op.ordered ∧
      ∀ bytes slots, site ≠ .credit bytes slots

theorem Called.of_none {c : Client} (h : c.calling = none) : Called c := by
  intro call site hcalling
  rw [h] at hcalling
  cases hcalling

theorem Called.step {c c' : Client} {i : Binding.Input} {out : List Binding.Output}
    (hstep : Binding.client.step c i = some (c', out)) : Called c' := by
  cases Client.step_requestStep hstep with
  | method hi hcalling hsub =>
    intro call site hcall
    cases hsub.submission with
    | none hnone ho =>
      rw [hnone] at hcall
      cases hcall
    | credit length bytes slots hasked hcredit hc hopen ho =>
      rw [hc] at hcall
      cases hcall
      left
      have hframe := hsub.frame
      refine ⟨length, bytes, slots, rfl, rfl, ?_, ?_⟩
      · unfold Binding.BindingPort.credit at hcredit ⊢
        rw [hframe.readBytes, hframe.readSlots]
        exact hcredit
      · intro hclosed
        rcases hframe.isOpen with ho | ⟨-, hclosing⟩
        · rw [hopen, hclosed] at ho
          cases ho
        · exact hclosing
    | operation op site' room hsite hcredit hasked hc hopen ho =>
      rw [hc] at hcall
      cases hcall
      exact .inr ⟨op, _, rfl, hsite, hcredit⟩
  | dropped hcalling hsite ha hmay hc hout =>
    obtain ⟨-, -, hnone⟩ := Client.answered_dropped (c := c) _ hsite ha
    rw [hc]
    exact .of_none hnone
  | queued hcalling hsite ha => exact .of_none ha.calling
  | credited hcalling hnone hsame hout => exact .of_none hnone
  | event hidle hev hsame hout => exact .of_none (hsame.calling.trans (Client.idle_calling hidle))
  | other hcalling hsame hout hi ha => exact .of_none (hsame.calling.trans hcalling)

theorem Called.submitting {c : Client} (h : Called c) {call : NativeCall} {site : Binding.Site}
    (hcalling : c.calling = some (call, site)) :
    (∃ length bytes slots, call = .readCredit bytes slots ∧ site = .credit bytes slots ∧
      c.port.credit length = some (bytes, slots) ∧ c.submitting = none) ∨
    (∀ bytes slots, call ≠ .readCredit bytes slots) ∧ (∀ bytes slots, site ≠ .credit bytes slots) ∧
      c.submitting = some (call.id, Native.ordered call) := by
  rcases h call site hcalling with ⟨length, bytes, slots, rfl, rfl, hcredit, -⟩ | ⟨op, id, rfl, hsite, hno⟩
  · exact .inl ⟨length, bytes, slots, rfl, rfl, hcredit, Client.submitting_credit hcalling⟩
  · refine .inr ⟨?_, hno, ?_⟩
    · intro bytes slots hcall
      cases op <;> cases hcall
    · rw [Client.submitting_some hcalling hno, operation_ordered, hsite]

/-! ### Both sides are at the same call -/

inductive InCall : Option Native.Call → Option (NativeCall × Binding.Site) → Prop
  | outside : InCall none none
  | inside {call : NativeCall} {site : Binding.Site} {stage : Native.Call} (h : Staged call stage) :
      InCall (some stage) (some (call, site))

theorem enter_sameReactor {n₀ n : NativePort} (h : Native.SameReactor n₀ n) (js : Client) (out : List Binding.Output) :
    Native.SameReactor n₀ (enter n js out) :=
  ⟨h.reactor, h.receiving, fun hstop => (enter_entered n js out).stop (h.stop hstop)⟩

theorem enter_inCall {n : NativePort} (hcall : n.call = none) (js : Client) (out : List Binding.Output) :
    InCall (enter n js out).call js.calling := by
  unfold enter
  dsimp only
  rw [hcall]
  cases js.calling with
  | none => exact .outside
  | some calling => exact .inside .check

theorem InCall.idle {s : System} (h : InCall s.native.call s.js.calling) (hcalling : s.js.calling = none) :
    s.native.call = none := by
  rw [hcalling] at h
  generalize s.native.call = call at h
  cases h
  rfl

theorem calling_none {c c' : Client} {i : Binding.Input} {out : List Binding.Output}
    (hstep : Binding.client.step c i = some (c', out)) (hi : ∀ answer, i ≠ .answer answer) : c.calling = none := by
  cases Client.step_requestStep hstep with
  | method hi' hcalling hsub => exact hcalling
  | dropped => exact absurd rfl (hi _)
  | queued => exact absurd rfl (hi _)
  | credited => exact absurd rfl (hi _)
  | event hidle => exact Client.idle_calling hidle
  | other hcalling => exact hcalling

theorem jsInput_calling {c c' : Client} {i : Binding.Input} {out : List Binding.Output} (hi : jsInput i = true)
    (hstep : Binding.client.step c i = some (c', out)) : c.calling = none := by
  refine calling_none hstep ?_
  rintro answer rfl
  cases hi

/-- **What a step of the native side by itself can do.** -/
inductive NativeStep (n : NativePort) : NativePort → List Native.Output → Prop
  | reactor {n' : NativePort} {out : List Native.Output} (h : Native.Moves n n' out) : NativeStep n n' out
  | call {n' : NativePort} {out : List Native.Output} {stage : Native.Call} {writer : Native.Io ℕ}
      (hcall : n.call = some stage) (h : n.stepCall stage writer = some (n', out)) : NativeStep n n' out
  | stop : NativeStep n { n with stop := true } []
  | teardown : NativeStep n { n with teardown := true } []

theorem native_nativeStep {n n' : NativePort} {i : Native.Input} {out : List Native.Output} (hfits : Native.Fits n)
    (hi : nativeInput i = true) (h : Native.native.step n i = some (n', out)) : NativeStep n n' out := by
  change n.step i = _ at h
  cases i with
  | reactor input => exact .reactor (Native.stepReactor_moves hfits h).1
  | advance writer =>
    rw [NativePort.step] at h
    split at h
    · cases h
    · rename_i stage hstage
      exact .call hstage h
  | stop =>
    cases h
    exact .stop
  | teardown =>
    cases h
    exact .teardown
  | call | returns | consume => cases hi

/-- **Both sides are at the same call.** -/
structure Attuned (s : System) : Prop where
  fits : Native.Fits s.native
  counted : Counted s.js
  called : Called s.js
  call : InCall s.native.call s.js.calling

namespace Attuned

variable {s s' : System}

theorem start (path : String) {nextId : ℕ} (h : Binding.BindingPort.InRange nextId) : Attuned (System.new path nextId) :=
  ⟨.start, .start path h, .of_none rfl, .outside⟩

theorem staged (h : Attuned s) {stage : Native.Call} (hcall : s.native.call = some stage) :
    ∃ call site, s.js.calling = some (call, site) ∧ Staged call stage := by
  have hin := h.call
  rw [hcall] at hin
  generalize hc : s.js.calling = calling at hin
  cases hin with
  | inside hstaged => exact ⟨_, _, rfl, hstaged⟩

theorem callStep (h : Attuned s) {stage : Native.Call} (hcall : s.native.call = some stage) {writer : Native.Io ℕ}
    {n : NativePort} {out : List Native.Output} (hstep : s.native.stepCall stage writer = some (n, out)) :
    ∃ call site stage', s.js.calling = some (call, site) ∧ n.call = some stage' ∧ Staged call stage ∧
      Staged call stage' ∧ CallStep call s.native stage n stage' out := by
  obtain ⟨call, site, hcalling, hstaged⟩ := h.staged hcall
  obtain ⟨stage', hcall', hstaged', hcallStep⟩ := Native.stepCall_step hstaged hstep
  exact ⟨call, site, stage', hcalling, hcall', hstaged, hstaged', hcallStep⟩

/-- **Every step keeps both sides at the same call.** -/
theorem step (h : Attuned s) {i : Input} {out : List Output} (hstep : system.step s i = some (s', out)) :
    Attuned s' := by
  cases system_step hstep with
  | js hi hjs =>
    have hs : Native.SameReactor s.native s.native := ⟨rfl, rfl, id⟩
    exact ⟨h.fits.sameReactor (enter_sameReactor hs _ _), h.counted.step hjs, .step hjs,
      enter_inCall (h.call.idle (jsInput_calling hi hjs)) _ _⟩
  | native hi hn =>
    refine ⟨h.fits.step hn, h.counted, h.called, ?_⟩
    cases native_nativeStep h.fits hi hn with
    | reactor hm =>
      show InCall _ _
      rw [hm.apart.call]
      exact h.call
    | call hcall hstepCall =>
      obtain ⟨call, site, stage', hcalling, hcall', -, hstaged', -⟩ := h.callStep hcall hstepCall
      show InCall _ _
      rw [hcall', hcalling]
      exact .inside hstaged'
    | stop => exact h.call
    | teardown => exact h.call
  | answer hcall hcalling hjs =>
    have hs : Native.SameReactor s.native { s.native with call := none } := ⟨rfl, rfl, id⟩
    exact ⟨h.fits.sameReactor (enter_sameReactor hs _ _), h.counted.step hjs, .step hjs, enter_inCall rfl _ _⟩
  | callback hcallbacks hjs =>
    rename_i allocate event callbacks js out
    have hidle := calling_none hjs (fun _ h => nomatch h)
    have hs : Native.SameReactor s.native { s.native with callbacks := callbacks } := ⟨rfl, rfl, id⟩
    exact ⟨h.fits.sameReactor (enter_sameReactor hs js out), h.counted.step hjs, .step hjs,
      enter_inCall (h.call.idle hidle) js out⟩

end Attuned

end NodeSerialport.Composition
