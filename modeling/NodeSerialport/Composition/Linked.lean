import NodeSerialport.Composition.Credit
/-!
# Runs of the composition

* `Linked` — the invariant of the composition, while the callback queue is not torn down;
* `Windowed`, `Unread` — what a run of `startReading` keeps;
* `credit_conserved` — read credit is conserved over every run.
-/

namespace NodeSerialport.Composition

open Lib (Machine)
open Binding (Client totalLength)
open Binding.BindingPort (credit_spec window_le)
open Native (NativePort)

variable {s s' : System}

/-- **The invariant of the composition**, while the callback queue is not torn down. -/
structure Linked (s : System) : Prop where
  attuned : Attuned s
  tracked : Tracked s
  funded : ∃ lost, Funded s lost

theorem step_teardown (ha : Attuned s) {i : Input} {out : List Output} (hstep : system.step s i = some (s', out))
    (h : s'.native.teardown = false) : s.native.teardown = false := by
  cases system_step hstep with
  | js hi hjs => exact h
  | native hi hn =>
    cases native_nativeStep ha.fits hi hn with
    | reactor hm => exact hm.apart.teardown.symm.trans h
    | call hcall hstepCall =>
      obtain ⟨-, -, hteardown, -⟩ := Native.stepCall_sameReactor hstepCall
      exact hteardown.symm.trans h
    | stop => exact h
    | teardown => cases h
  | answer hcall hcalling hjs => exact h
  | callback hcallbacks hjs => exact h

namespace Linked

theorem start (path : String) {nextId : ℕ} (h : Binding.BindingPort.InRange nextId) : Linked (System.new path nextId) :=
  ⟨.start path h, .start path nextId, [], .start path nextId⟩

theorem room (h : Linked s) (hteardown : s.native.teardown = false) : s.native.Room := by
  obtain ⟨lost, hfunded⟩ := h.funded
  exact hfunded.room h.attuned h.tracked hteardown

/-- **Every step keeps the invariant.** -/
theorem step (h : Linked s) (hteardown : s.native.teardown = false) {i : Input} {out : List Output}
    (hstep : system.step s i = some (s', out)) : Linked s' := by
  obtain ⟨lost, hfunded⟩ := h.funded
  have hroom := h.room hteardown
  refine ⟨h.attuned.step hstep, ?_, ?_⟩
  · cases system_step hstep with
    | js hi hjs => exact h.tracked.js h.attuned hi hjs
    | native hi hn =>
      cases native_nativeStep h.attuned.fits hi hn with
      | reactor hm => exact h.tracked.moves h.attuned hroom hm
      | call hcall hstepCall => exact h.tracked.call h.attuned hcall hstepCall
      | stop => exact h.tracked.same rfl rfl rfl rfl rfl rfl
      | teardown => exact h.tracked.same rfl rfl rfl rfl rfl rfl
    | answer hcall hcalling hjs => exact h.tracked.answer hcall hcalling hjs
    | callback hcallbacks hjs => exact h.tracked.callback h.attuned hcallbacks hjs
  · cases system_step hstep with
    | js hi hjs => exact hfunded.js h.attuned hi hjs
    | native hi hn =>
      cases native_nativeStep h.attuned.fits hi hn with
      | reactor hm => exact ⟨lost, hfunded.moves h.attuned hroom hm⟩
      | call hcall hstepCall => exact ⟨lost, hfunded.call h.attuned hcall hstepCall⟩
      | stop => exact ⟨lost, hfunded.1, hfunded.2, hfunded.3, hfunded.4, hfunded.5, hfunded.6, hfunded.7⟩
      | teardown => exact ⟨lost, hfunded.1, hfunded.2, hfunded.3, hfunded.4, hfunded.5, hfunded.6, hfunded.7⟩
    | answer hcall hcalling hjs => exact ⟨lost, hfunded.answer h.attuned hcall hcalling hjs⟩
    | callback hcallbacks hjs => exact hfunded.callback h.attuned hcallbacks hjs

end Linked

/-! ### The windows that were requested -/

/-- The window a call of `startReading` asks for. -/
def requested (i : Binding.Input) : ℤ :=
  match i.asked with
  | .window length => Binding.BindingPort.window length
  | _ => 0

def Input.window : Input → ℤ
  | .js input => requested input
  | _ => 0

/-- The largest window requested over a run. -/
def largest (inputs : List Input) : ℤ := (inputs.map Input.window).foldl max 0

theorem largest_snoc (inputs : List Input) (i : Input) : largest (inputs ++ [i]) = max (largest inputs) i.window := by
  simp [largest]

theorem largest_nonneg (inputs : List Input) : 0 ≤ largest inputs := by
  induction inputs using List.reverseRecOn with
  | nil => exact le_refl 0
  | append_singleton inputs i ih =>
    rw [largest_snoc]
    exact ih.trans (le_max_left _ _)

theorem largest_le (inputs : List Input) : largest inputs ≤ 65536 := by
  induction inputs using List.reverseRecOn with
  | nil => decide
  | append_singleton inputs i ih =>
    rw [largest_snoc]
    refine max_le ih ?_
    unfold Input.window
    split
    · unfold requested
      split
      · exact window_le _
      · decide
    · decide

/-- **The credit stays below a limit**, also with the credit that is being granted. -/
structure Windowed (limit : ℤ) (c : Client) : Prop where
  counted : c.port.readBytes ≤ limit
  granting : ∀ bytes slots site, c.calling = some (.readCredit bytes slots, site) → c.port.readBytes + bytes ≤ limit

namespace Windowed

variable {limit : ℤ} {c c' : Client}

theorem mono (h : Windowed limit c) {limit' : ℤ} (hle : limit ≤ limit') : Windowed limit' c :=
  ⟨h.counted.trans hle, fun bytes slots site hc => (h.granting bytes slots site hc).trans hle⟩

theorem step (h : Windowed limit c) (hcalled : Called c) (hwf : c.QueueWF) (hscheduled : c.microtasks = c.items.length)
    {i : Binding.Input} {out : List Binding.Output} (hstep : Binding.client.step c i = some (c', out))
    (hrequested : requested i ≤ limit) : Windowed limit c' := by
  have hcounted := h.counted
  refine ⟨?_, ?_⟩
  · cases (Client.step_readStep hwf hscheduled hstep).2 with
    | kept hpassed hcredits hheld hb hs =>
      rw [hb]
      exact hcounted
    | credited bytes slots hc hi hpassed hcredits hheld hb hs =>
      rw [hb]
      rcases hcalled.submitting hc with ⟨length, bytes', slots', rfl, hsite, -⟩ | ⟨-, hno, -⟩
      · cases hsite
        exact h.granting _ _ _ hc
      · exact absurd rfl (hno _ _)
    | passed data hc hopen hno hrec hpassed hcredits hheld hb hs =>
      rw [hb]
      omega
    | dropped gone hc hclosed hno hrec hpassed hcredits hheld hb hs =>
      rw [hb]
      exact hcounted
  · intro bytes slots site hcalling
    have hno : c'.calling = none → c'.port.readBytes + bytes ≤ limit := by
      intro hnone
      rw [hnone] at hcalling
      cases hcalling
    cases Client.step_requestStep hstep with
    | method hi hc hsub =>
      cases hsub.submission with
      | none hnone ho => exact hno hnone
      | credit length bytes' slots' hasked hcredit hcall hopen ho =>
        rw [hcall] at hcalling
        cases hcalling
        have hbytes : c'.port.readBytes = c.port.readBytes := hsub.frame.readBytes
        rw [hbytes, (credit_spec hcredit).1]
        unfold requested at hrequested
        rwa [hasked] at hrequested
      | operation op site' room hsite hcredit hasked hcall hopen ho =>
        rw [hcall] at hcalling
        cases op <;> cases hcalling
    | dropped hc hsite ha hmay hjs hout =>
      rw [hjs] at hno ⊢
      exact absurd hcalling (by rw [hjs, (Client.answered_dropped (c := c) _ hsite ha).2.2]; nofun)
    | queued hc hsite ha => exact hno ha.calling
    | credited hc hnone hsame hout => exact hno hnone
    | event hidle hev hsame hout => exact hno (hsame.calling.trans (Client.idle_calling hidle))
    | other hc hsame hout hi ha => exact hno (hsame.calling.trans hc)

end Windowed

/-! ### Explicit reads -/

/-- **No explicit read is on its way.** -/
structure Unread (s : System) : Prop where
  reading : s.native.reading = []
  calling : ∀ id length site, s.js.calling ≠ some (.read id length, site)

namespace Unread

theorem js_calling {c c' : Client} {i : Binding.Input} {out : List Binding.Output}
    (hstep : Binding.client.step c i = some (c', out)) (hi : i.asked ≠ .chunk) :
    ∀ id length site, c'.calling ≠ some (.read id length, site) := by
  intro id length site hcalling
  have hno : c'.calling ≠ none := by
    rw [hcalling]
    nofun
  cases Client.step_requestStep hstep with
  | method hi' hc hsub =>
    cases hsub.submission with
    | none hnone ho => exact hno hnone
    | credit length bytes' slots' hasked hcredit hcall hopen ho =>
      rw [hcall] at hcalling
      cases hcalling
    | operation op site' room hsite hcredit hasked hcall hopen ho =>
      rw [hcall] at hcalling
      cases op with
      | read length => exact hi (hasked rfl)
      | _ => cases hcalling
  | dropped hc hsite ha hmay hjs hout =>
    rw [hjs] at hno
    exact hno (Client.answered_dropped (c := c) _ hsite ha).2.2
  | queued hc hsite ha => exact hno ha.calling
  | credited hc hnone hsame hout => exact hno hnone
  | event hidle hev hsame hout => exact hno (hsame.calling.trans (Client.idle_calling hidle))
  | other hc hsame hout hi ha => exact hno (hsame.calling.trans hc)

theorem step (h : Unread s) (hl : Linked s) (hroom : s.native.Room) {i : Input} {out : List Output}
    (hi : ∀ length, i ≠ .js (.invoke (.readChunk length))) (hstep : system.step s i = some (s', out)) : Unread s' := by
  cases system_step hstep with
  | js hjsInput hjs =>
    rename_i input js out
    refine ⟨h.reading, js_calling hjs fun hasked => ?_⟩
    cases input with
    | invoke m =>
      cases m with
      | readChunk length => exact hi length rfl
      | _ => cases hasked
    | _ => cases hasked
  | native hi' hn =>
    refine ⟨?_, h.calling⟩
    cases native_nativeStep hl.attuned.fits hi' hn with
    | reactor hm =>
      cases hm.flow hl.attuned.fits hroom with
      | same replies queued reading => exact reading.trans h.reading
      | done id replies queued reading => exact reading.trans h.reading
      | replied id replies queued reading =>
        rw [h.reading] at reading
        exact absurd reading.length_eq nofun
    | call hcall hstepCall =>
      obtain ⟨call, site, stage', hcalling, hcall', hstaged, hstaged', hcallStep⟩ := hl.attuned.callStep hcall hstepCall
      cases hcallStep with
      | pushed hstage hsub =>
        rename_i c
        have hread : c.read? = none := by
          rcases hsub with rfl | ⟨hmay, hinline, count, rfl⟩
          · cases call with
            | read id length => exact absurd hcalling (h.calling _ _ _)
            | request id operation value => cases operation <;> rfl
            | _ => rfl
          · rfl
        show (s.native.enlist c (.returned .queued)).reading = []
        rw [Native.enlist_reading, h.reading, hread]
        rfl
      | _ => exact h.reading
    | stop => exact h.reading
    | teardown => exact h.reading
  | answer hcall hcalling hjs => exact ⟨h.reading, js_calling hjs (show Binding.Ask.nothing ≠ .chunk by decide)⟩
  | callback hcallbacks hjs => exact ⟨h.reading, js_calling hjs (show Binding.Ask.nothing ≠ .chunk by decide)⟩

end Unread

/-! ### Over a run -/

/-- What a run keeps. -/
structure Credited (inputs : List Input) (s : System) : Prop where
  linked : Linked s
  windowed : Windowed (largest inputs) s.js
  unread : (∀ length, .js (.invoke (.readChunk length)) ∉ inputs) → Unread s

theorem Credited.step {inputs : List Input} (h : Credited inputs s) (hteardown : s.native.teardown = false) {i : Input}
    {out : List Output} (hstep : system.step s i = some (s', out)) : Credited (inputs ++ [i]) s' := by
  obtain ⟨lost, hfunded⟩ := h.linked.funded
  have hle : largest inputs ≤ largest (inputs ++ [i]) := by
    rw [largest_snoc]
    exact le_max_left _ _
  have hmono := h.windowed.mono hle
  have hzero : ∀ {j : Binding.Input}, j.asked = .nothing → requested j ≤ largest (inputs ++ [i]) := by
    intro j hj
    unfold requested
    rw [hj]
    exact largest_nonneg _
  refine ⟨h.linked.step hteardown hstep, ?_, ?_⟩
  · cases system_step hstep with
    | js hi hjs =>
      refine hmono.step h.linked.attuned.called hfunded.wf hfunded.scheduled hjs ?_
      rw [largest_snoc]
      exact le_max_right _ _
    | native hi hn => exact hmono
    | answer hcall hcalling hjs =>
      exact hmono.step h.linked.attuned.called hfunded.wf hfunded.scheduled hjs (hzero rfl)
    | callback hcallbacks hjs =>
      exact hmono.step h.linked.attuned.called hfunded.wf hfunded.scheduled hjs (hzero rfl)
  · intro hno
    refine (h.unread fun length hmem => hno length (List.mem_append_left _ hmem)).step h.linked
      (h.linked.room hteardown) (fun length hi => ?_) hstep
    exact hno length (List.mem_append_right _ (hi ▸ List.mem_singleton_self _))

/-- **Every reachable state**, as long as the callback queue is not torn down. -/
theorem Credited.run {path : String} {nextId : ℕ} (hnextId : Binding.BindingPort.InRange nextId) {inputs : List Input}
    {outputs : List Output} (hrun : system.run (System.new path nextId) inputs = some (s, outputs))
    (hteardown : s.native.teardown = false) : Credited inputs s := by
  have hP := Machine.run_rule_all
    (fun inputs _ (s : System) => Attuned s ∧ (s.native.teardown = false → Credited inputs s)) ?_ ?_ hrun
  · exact hP.2 hteardown
  · refine ⟨.start path hnextId, fun _ => ⟨.start path hnextId, ⟨le_refl 0, nofun⟩, fun _ => ⟨rfl, nofun⟩⟩⟩
  · rintro inputs outputs s i s' out ⟨hattuned, h⟩ hstep
    refine ⟨hattuned.step hstep, fun hteardown' => ?_⟩
    have hteardown := step_teardown hattuned hstep hteardown'
    exact (h hteardown).step hteardown hstep

theorem Windowed.granted {limit : ℤ} (h : Windowed limit s.js) : s.js.port.readBytes + s.granted.1 ≤ limit := by
  unfold System.granted
  split
  · rename_i hcalling
    exact h.granting _ _ _ hcalling
  · exact (Int.add_zero _).le.trans h.counted

theorem received_valid {inputs : List Input} (h : Credited inputs s) (hunread : Unread s) {n : NativePort}
    {out : List Native.Output} (hstep : Native.native.step s.native (.reactor .received) = some (n, out)) :
    n.reactor.pc.ended = false := by
  obtain ⟨lost, hfunded⟩ := h.linked.funded
  have hbytes := hfunded.bytes
  have hslots := hfunded.creditSlots_le h.linked.attuned
  have hlimit := h.windowed.granted.trans (largest_le inputs)
  have hheld := totalLength_nonneg s.js.held
  have hlost := totalLength_nonneg lost
  have hread : s.native.reactor.read = none := by
    have hreading := hunread.reading
    unfold NativePort.reading at hreading
    rw [List.append_eq_nil_iff] at hreading
    cases hr : s.native.reactor.read with
    | none => rfl
    | some read =>
      rw [hr] at hreading
      cases hreading.1
  change s.native.stepReactor .received = _ at hstep
  unfold NativePort.stepReactor at hstep
  split at hstep <;> try contradiction
  · rename_i hpc hi
    cases hreceived : s.native.stepReceived with
    | none =>
      rw [hreceived] at hstep
      cases hstep
    | some n' =>
      rw [hreceived] at hstep
      cases hstep
      unfold NativePort.creditBytes at hbytes
      unfold NativePort.creditSlots at hslots
      refine Native.stepReceived_valid hread ?_ ?_ hreceived
      · show _ ≤ 65536
        omega
      · show _ ≤ 32
        omega

/-- **Read credit is conserved.**  Over every run of the composition, as long as the callback queue is not torn down:

* while the port is open, and no buffer was lost to a failed callback, `_readBytes` and the credit that is being granted
  are the bytes of the credits in the channel, of the window of the reactor, of the buffers on their way to JavaScript
  and of the buffers JavaScript holds; and `_readSlots` counts a slot for each buffer in the same way;
* between two native calls no credit is being granted, and the window is within what JavaScript has counted;
* the counts are at most 64 KiB and 32 slots, and what is buffered ahead of the application is within the largest window
  that was requested;
* where no explicit read is made, no credit that arrives ends the connection. -/
theorem credit_conserved (path : String) (nextId : ℕ) (hnextId : Binding.BindingPort.InRange nextId)
    (inputs : List Input) (s : System) (outputs : List Output)
    (hrun : system.run (System.new path nextId) inputs = some (s, outputs)) (hteardown : s.native.teardown = false) :
    (s.js.port.isOpen = true → s.js.port.failure = none →
      s.js.port.readBytes + s.granted.1 = s.native.channelBytes + s.native.reactor.window.bytes +
        totalLength s.native.buffered + totalLength s.js.held ∧
      s.js.port.readSlots + s.granted.2 = s.native.channelSlots + s.native.reactor.window.slots +
        s.native.buffered.length + s.js.held.length) ∧
    (s.js.calling = none → s.granted = (0, 0) ∧ s.native.reactor.window.bytes ≤ s.js.port.readBytes ∧
      s.native.reactor.window.slots ≤ s.js.port.readSlots) ∧
    s.js.port.readBytes ≤ 65536 ∧ s.js.port.readSlots ≤ 32 ∧
    totalLength s.native.buffered + totalLength s.js.held ≤ largest inputs ∧
    ((∀ length, .js (.invoke (.readChunk length)) ∉ inputs) → ∀ n out,
      Native.native.step s.native (.reactor .received) = some (n, out) → n.reactor.pc.ended = false) := by
  have h := Credited.run hnextId hrun hteardown
  obtain ⟨lost, hfunded⟩ := h.linked.funded
  have hbytes := hfunded.bytes
  have hslots := hfunded.slots
  have hheld := totalLength_nonneg s.js.held
  have hlost := totalLength_nonneg lost
  have hgranted := h.windowed.granted
  have hbuffered := totalLength_flatten s.native.buffered
  unfold NativePort.creditBytes at hbytes
  unfold NativePort.creditSlots at hslots
  push_cast at hbytes hslots
  refine ⟨?_, ?_, h.windowed.counted.trans (largest_le inputs), hfunded.filled, by omega, ?_⟩
  · intro hopen hfailure
    have hnil : lost = [] := hfunded.lossless (fun hshut => Bool.noConfusion (hopen.symm.trans hshut.isOpen)) hfailure
    rw [hnil] at hbytes hslots
    refine ⟨?_, ?_⟩
    · rw [hbytes, hbuffered]
      exact Int.add_zero _
    · rw [hslots]
      exact Int.add_zero _
  · intro hcalling
    have hzero : s.granted = (0, 0) := System.granted_none fun bytes slots site hc => by
      rw [hcalling] at hc
      cases hc
    rw [hzero] at hbytes hslots
    change s.js.port.readBytes + 0 = _ at hbytes
    change s.js.port.readSlots + 0 = _ at hslots
    exact ⟨hzero, by omega, by omega⟩
  · intro hno n out hstep
    exact received_valid h (h.unread hno) hstep

/-- A credit of 100 bytes, of which two are read and wait for their listener. -/
theorem credit_conserved_reading : ∃ s outputs,
    system.run (System.new "/dev/ttyS0" 1) [.native (.reactor (.opened (.ok ()))), .native (.reactor .run),
      .callback (fun _ => .ok 2), .js (.invoke (.startReading 100)), .native (.advance .pending),
      .native (.advance .pending), .native (.advance .pending), .answer, .native (.reactor .run),
      .native (.reactor .run), .native (.reactor .received), .native (.reactor .run), .native (.reactor .run),
      .native (.reactor (.transfer (.ready [1, 2]) .pending)), .native (.reactor .run), .native (.reactor .run),
      .callback (fun _ => .ok 2)] = some (s, outputs) ∧
    s.native.reactor.window.bytes = 98 ∧ s.js.held = [[1, 2]] ∧
    s.js.port.readBytes + s.granted.1 = s.native.channelBytes + s.native.reactor.window.bytes +
      totalLength s.native.buffered + totalLength s.js.held := by
  refine ⟨_, _, rfl, rfl, rfl, ?_⟩
  have h := credit_conserved "/dev/ttyS0" 1 ⟨by decide, by decide⟩ [.native (.reactor (.opened (.ok ()))),
      .native (.reactor .run), .callback (fun _ => .ok 2), .js (.invoke (.startReading 100)), .native (.advance .pending),
      .native (.advance .pending), .native (.advance .pending), .answer, .native (.reactor .run),
      .native (.reactor .run), .native (.reactor .received), .native (.reactor .run), .native (.reactor .run),
      .native (.reactor (.transfer (.ready [1, 2]) .pending)), .native (.reactor .run), .native (.reactor .run),
      .callback (fun _ => .ok 2)] _ _ rfl rfl
  exact (h.1 rfl rfl).1

end NodeSerialport.Composition
