import NodeSerialport.Composition.Drain
/-!
# The bytes of the device reach the listener

A buffer the reactor reads for credit goes through the callback queue, and through the queue of `BindingPort`, to the
`onData` listener.

* `Moves.buffered` — the reactor and the callback queue, where no explicit read is on its way;
* `Conveyed` — the invariant of both sides, and what a step does to it.
-/

namespace NodeSerialport.Native

open Parsers (Buffer)

variable {n n' : NativePort} {out : List Output}

/-! ### The callback queue -/

theorem Moves.callbacks (h : Moves n n' out) : n'.callbacks = n.callbacks ++ handed out := by
  have hnil : n.callbacks ++ handed [] = n.callbacks := List.append_nil _
  cases h with
  | calm k | unpublished hpc k => exact k.callbacks.trans hnil.symm
  | refused k => exact k.callbacks.trans hnil.symm
  | published hpc hevent k => exact k.callbacks
  | signalled | replied | sent => rfl
  | _ => exact hnil.symm

/-- No explicit read is on its way, and none is being answered. -/
structure Streams (n : NativePort) : Prop where
  reading : n.reading = []
  replying : n.replying = []

theorem Streams.read (h : Streams n) : n.reactor.read = none := by
  obtain ⟨hread, -⟩ := List.append_eq_nil_iff.1 h.reading
  cases hr : n.reactor.read with
  | none => rfl
  | some read =>
    rw [hr] at hread
    cases hread

theorem Moves.replying (h : Moves n n' out) (hs : Streams n) : n'.replying = [] := by
  cases h with
  | calm k before after | refused k after full | unpublished hpc k after =>
    exact NativePort.replying_calm after
  | published hpc hevent k after => exact NativePort.replying_calm after
  | signalled hsignal =>
    rcases hsignal with ⟨-, rfl, -⟩ | ⟨-, rfl, -⟩ <;> rfl
  | replied hpc after | chosen hpc after => rcases after with rfl | rfl <;> rfl
  | sent hpc after => rcases after with rfl | ⟨left, rfl⟩ <;> rfl
  | busy hpc hchannel hoperation =>
    have hread := (List.append_eq_nil_iff.1 hs.reading).2
    rw [hchannel, List.filterMap_cons] at hread
    simp [Command.read?, hoperation] at hread
  | answered hpc hread => exact absurd (hread.symm.trans hs.read) nofun
  | _ => rfl

/-- An event that is handed over then brings streaming reads only. -/
theorem Moves.streamed (h : Moves n n' out) (hfits : Fits n) (hs : Streams n) :
    payloads out = (handed out).flatMap CallbackEvent.chunks := by
  have hone : ∀ {event : CallbackEvent}, event.payload = event.chunks →
      payloads [.handed event] = (handed [.handed event]).flatMap CallbackEvent.chunks := by
    intro event heq
    show event.payload ++ [] = event.chunks ++ []
    rw [heq]
  cases h with
  | signalled hsignal hdata => exact hone (congrArg Option.toList hdata)
  | replied hpc after =>
    rcases hpc with hpc | hpc
    · exact hone (congrArg Option.toList (hfits.notify hpc).data)
    · have hreplying := hs.replying
      rw [NativePort.replying, hpc] at hreplying
      exact hone hreplying
  | sent hpc after => exact hone (CallbackEvent.ofRead_payload _ _)
  | published hpc hevent k after => rcases hevent with ⟨data, -, rfl⟩ | ⟨-, -, rfl⟩ <;> exact hone rfl
  | _ => rfl

/-- **What the device returned is with the reactor or in the callback queue.** -/
theorem Moves.buffered (h : Moves n n' out) (hfits : Fits n) (hroom : n.Room) (hs : Streams n) :
    n'.buffered = n.buffered ++ reads out := by
  have hunsent := h.unsent hfits (h.accepts hroom)
  rw [NativePort.unsent, NativePort.unsent, h.replying hs, hs.replying, List.append_nil, List.append_nil,
    h.streamed hfits hs] at hunsent
  calc n'.buffered = (n.callbacks ++ handed out).flatMap CallbackEvent.chunks ++ n'.charged := by
        rw [NativePort.buffered, h.callbacks]
    _ = n.callbacks.flatMap CallbackEvent.chunks ++ ((handed out).flatMap CallbackEvent.chunks ++ n'.charged) := by
        rw [List.flatMap_append, List.append_assoc]
    _ = n.buffered ++ reads out := by rw [hunsent, NativePort.buffered, List.append_assoc]

end NodeSerialport.Native

namespace NodeSerialport.Composition

open Lib (Machine)
open Parsers (Buffer)
open Binding (Client passed ReadStep FlagStep)
open Native (NativePort CallbackEvent Streams reads)

variable {s s' : System} {outputs out : List Output}

/-! ### Both sides -/

theorem Unread.streams (h : Unread s) (hreplying : s.native.replying = []) : Streams s.native := ⟨h.reading, hreplying⟩

/-- **The buffers of the device are with JavaScript, or on their way**, in order; a port that is closed has passed on the
first of them. -/
structure Conveyed (outputs : List Output) (s : System) : Prop where
  replying : s.native.replying = []
  fifo : s.js.port.failure = none → ¬s.js.Shut →
    passed (jsOutputs outputs) ++ s.js.held ++ s.native.buffered = reads (natives outputs)
  sub : s.js.port.failure = none → passed (jsOutputs outputs) <+: reads (natives outputs)

namespace Conveyed

theorem start (path : String) (nextId : ℕ) : Conveyed [] (System.new path nextId) := ⟨rfl, fun _ _ => rfl, fun _ => List.prefix_rfl⟩

/-- JavaScript takes a step, in which `chunks` leave the callback queue. -/
theorem js {lost : List Buffer} (h : Conveyed outputs s) (hfunded : Funded s lost) {i : Binding.Input} {js : Client}
    {jsOut : List Binding.Output} (hstep : Binding.client.step s.js i = some (js, jsOut)) {n : NativePort}
    (hreplying : n.replying = s.native.replying) (hjs : jsOutputs out = jsOut) (hnatives : natives out = [])
    (hfailure : js.port.failure = none → s.js.port.failure = none ∧ s.native.buffered = i.received ++ n.buffered) :
    Conveyed (outputs ++ out) ⟨js, n⟩ := by
  have hflags := Client.step_flagStep hstep
  have hread := (Client.step_readStep hfunded.wf hfunded.scheduled hstep).2
  have hshut : ¬js.Shut → ¬s.js.Shut := fun hno hs => hno (hs.flagStep hflags)
  rw [← hjs] at hread
  have hfifo : js.port.failure = none → ¬js.Shut →
      passed (jsOutputs (outputs ++ out)) ++ js.held ++ n.buffered = reads (natives (outputs ++ out)) := by
    intro hnone hopen
    obtain ⟨hnone', hbuffered⟩ := hfailure hnone
    have hold := h.fifo hnone' (hshut hopen)
    rw [hbuffered] at hold
    rw [jsOutputs_append, natives_append, hnatives, List.append_nil, Binding.passed_append, ← hold]
    cases hread with
    | kept hpassed hcredits hheld => rw [hpassed, hheld, List.append_nil]; simp
    | credited bytes slots hcalling hi hpassed hcredits hheld =>
      obtain ⟨answer, rfl, -⟩ := hi
      rw [hpassed, hheld, List.append_nil]
      rfl
    | passed data hcalling hop hi hreceived hpassed hcredits hheld => rw [hpassed, hheld, hreceived]; simp
    | dropped gone hcalling hclosed hi hreceived hpassed hcredits hheld =>
      -- a port that is not open yet holds nothing
      have hclosing : s.js.port.closing = false := by
        by_contra hc
        exact hshut hopen ⟨hclosed, by simpa using hc⟩
      have hnil := (hfunded.unopened hclosed hclosing).2.2
      rw [hnil] at hheld
      obtain ⟨rfl, hheld'⟩ := List.append_eq_nil_iff.1 hheld.symm
      rw [hpassed, hreceived, hnil, hheld', List.append_nil]
      rfl
  refine ⟨hreplying.trans h.replying, hfifo, fun hnone => ?_⟩
  by_cases hshut' : s.js.Shut
  · rw [jsOutputs_append, natives_append, hnatives, List.append_nil, Binding.passed_append, hjs,
      (hshut'.step hstep).2, List.append_nil]
    exact h.sub (hfailure hnone).1
  · by_cases hclosed : js.Shut
    · -- the step that closes the port passes nothing on
      have hfifo' := h.fifo (hfailure hnone).1 hshut'
      rw [jsOutputs_append, natives_append, hnatives, List.append_nil, Binding.passed_append, ← hfifo', List.append_assoc]
      refine List.prefix_append_right_inj _ |>.2 ?_
      cases hread with
      | kept hpassed => rw [hpassed]; exact List.nil_prefix
      | credited bytes slots hcalling hi hpassed => rw [hpassed]; exact List.nil_prefix
      | passed data hcalling hop hi hreceived hpassed hcredits hheld =>
        rw [hpassed, hheld]
        exact ⟨js.held ++ s.native.buffered, rfl⟩
      | dropped gone hcalling hclosed hi hreceived hpassed => rw [hpassed]; exact List.nil_prefix
    · rw [← hfifo hnone hclosed, List.append_assoc]
      exact List.prefix_append _ _

theorem still {i : Binding.Input} {js : Client} {jsOut : List Binding.Output} (hi : ∀ callback, i ≠ .callback callback)
    (hstep : Binding.client.step s.js i = some (js, jsOut)) {n : NativePort} (hbuffered : n.buffered = s.native.buffered)
    (hnone : js.port.failure = none) : s.js.port.failure = none ∧ s.native.buffered = i.received ++ n.buffered := by
  refine ⟨((Client.step_flagStep hstep).failure fun error lost => hi _).symm.trans hnone, ?_⟩
  rw [hbuffered]
  cases i with
  | callback callback => exact absurd rfl (hi callback)
  | _ => rfl

/-- **Every step keeps it.** -/
theorem step (h : Conveyed outputs s) (hl : Linked s) (hroom : s.native.Room) (hunread : Unread s) {i : Input}
    (hstep : system.step s i = some (s', out)) : Conveyed (outputs ++ out) s' := by
  obtain ⟨lost, hfunded⟩ := hl.funded
  cases system_step hstep with
  | js hi hjs =>
    refine h.js hfunded hjs rfl (jsOutputs_js _) (natives_js _) (still (fun callback heq => ?_) hjs rfl)
    rw [heq] at hi
    cases hi
  | answer hcall hcalling hjs =>
    rename_i answer call site js jsOut
    exact h.js hfunded hjs rfl (jsOutputs_js jsOut) (natives_js jsOut) (still (fun callback heq => Binding.Input.noConfusion heq) hjs rfl)
  | callback hcallbacks hjs =>
    rename_i allocate event callbacks js jsOut
    refine h.js hfunded hjs rfl ?_ ?_ fun hnone => ?_
    · rw [jsOutputs_append, completions_js, jsOutputs_js]
      rfl
    · have hquiet : natives (s.completions event) = [] := (Ordered.completions_quiet s event).1
      rw [natives_append, hquiet, natives_js]
      rfl
    · have hflags := Client.step_flagStep hjs
      rcases Funded.callback_received allocate event with ⟨hreceived, hok⟩ | ⟨-, error, hfailed⟩
      · refine ⟨(hflags.failure fun error lost heq => hok error lost (Binding.Input.callback.inj heq)).symm.trans hnone, ?_⟩
        rw [hreceived, NativePort.buffered, hcallbacks, List.flatMap_cons, List.append_assoc]
        rfl
      · rw [hflags.failed error _ (congrArg Binding.Input.callback hfailed)] at hnone
        cases hnone
  | native hi hn =>
    rename_i i n nOut
    have hquiet : n.buffered = s.native.buffered ++ reads nOut → n.replying = [] →
        Conveyed (outputs ++ nOut.map .native) ⟨s.js, n⟩ := by
      intro hbuffered hreplying
      refine ⟨hreplying, fun hnone hopen => ?_, fun hnone => ?_⟩
      · rw [jsOutputs_append, jsOutputs_native, List.append_nil, natives_append, natives_native, Native.reads_append,
          ← h.fifo hnone hopen, hbuffered, List.append_assoc, List.append_assoc, List.append_assoc]
      · rw [jsOutputs_append, jsOutputs_native, List.append_nil, natives_append, natives_native, Native.reads_append]
        exact (h.sub hnone).trans (List.prefix_append _ _)
    have hs := hunread.streams h.replying
    cases native_nativeStep hl.attuned.fits hi hn with
    | reactor hm => exact hquiet (hm.buffered hl.attuned.fits hroom hs) (hm.replying hs)
    | call hcall hstepCall =>
      obtain ⟨hsame, hcallbacks, -, -, hlocal⟩ := Native.stepCall_sameReactor hstepCall
      refine hquiet ?_ ?_
      · rw [(Native.local_reads hlocal).2, List.append_nil, NativePort.buffered, NativePort.buffered, hcallbacks,
          NativePort.charged, NativePort.charged, hsame.reactor]
      · rw [NativePort.replying, hsame.reactor]
        exact h.replying
    | stop => exact hquiet (List.append_nil _).symm h.replying
    | teardown => exact hquiet (List.append_nil _).symm h.replying

end Conveyed

end NodeSerialport.Composition
