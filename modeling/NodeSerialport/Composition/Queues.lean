import NodeSerialport.Composition.Linked
/-!
# The queues never overflow

The records of JavaScript bound the operations on their way, and its slots bound the credits and the buffers; both
together bound the command channel and the callback queue.

* `Bounded` — what the bounds need besides `Linked`;
* `send_room`, `reserve_room` — a call finds room for its command;
* `queues_bounded` — over every run.
-/

namespace NodeSerialport.Composition

open Lib (Machine)
open Binding (Client NativeCall)
open Native (NativePort CallbackEvent Command)
open Binding.BindingPort (credit_spec)

variable {s s' : System}

/-- Credits in the channel have slots, and nothing is submitted to a port that was closed. -/
structure Bounded (s : System) : Prop where
  commands : s.native.channel.countP (fun c => !c.credits) ≤ 64
  credits : ∀ c ∈ s.native.channel, c.credits = true → 0 < c.creditSlots
  undo : ∀ error, s.native.call = some (.undo error) → s.native.receiving = false
  closed : s.js.port.finished = true →
    s.native.stop = true ∧ ∀ stage, s.native.call = some stage → stage.early = true

/-- **The records bound the commands of the channel.** -/
theorem Linked.commands_le (h : Linked s) (hfinished : s.js.port.finished = false) :
    s.native.channel.countP (fun c => !c.credits) + s.native.replies.length ≤ s.records.length := by
  have hlength := (h.tracked.tracks hfinished).length_eq
  have hcommands := Native.channel_commands s.native
  omega

theorem credits_le {channel : List Command} (h : ∀ c ∈ channel, c.credits = true → 0 < c.creditSlots) :
    channel.countP Command.credits ≤ (channel.map Command.creditSlots).sum := by
  induction channel with
  | nil => exact le_refl 0
  | cons c channel ih =>
    have hrest := ih fun d hd => h d (List.mem_cons_of_mem _ hd)
    rw [List.countP_cons, List.map_cons, List.sum_cons]
    split
    · rename_i hcredits
      have hpos := h c List.mem_cons_self hcredits
      omega
    · omega

theorem channel_length (channel : List Command) :
    channel.length = channel.countP (fun c => !c.credits) + channel.countP Command.credits := by
  induction channel with
  | nil => rfl
  | cons c channel ih =>
    rw [List.length_cons, List.countP_cons, List.countP_cons, ih]
    cases c.credits <;> simp <;> omega

namespace Bounded

theorem start (path : String) (nextId : ℕ) : Bounded (System.new path nextId) :=
  ⟨Nat.zero_le _, fun _ hc => absurd hc List.not_mem_nil, nofun, fun h => nomatch h⟩

theorem credits_le (h : Bounded s) (hl : Linked s) : s.native.channel.countP Command.credits ≤ 32 := by
  obtain ⟨lost, hfunded⟩ := hl.funded
  have hslots := hfunded.creditSlots_le hl.attuned
  have hcredits := Composition.credits_le h.credits
  unfold NativePort.creditSlots NativePort.channelSlots at hslots
  omega

theorem unfinished (h : Bounded s) {stage : Native.Call} (hcall : s.native.call = some stage)
    (hlate : stage.early = false) : s.js.port.finished = false := by
  by_contra hno
  rw [(h.closed (by simpa using hno)).2 stage hcall] at hlate
  cases hlate

theorem records_le (h : Bounded s) (hl : Linked s) {stage : Native.Call} (hcall : s.native.call = some stage)
    (hlate : stage.early = false) (hpushed : stage.pushed = false) {call : NativeCall} {site : Binding.Site}
    (hcalling : s.js.calling = some (call, site)) (hcredit : ∀ bytes slots, call ≠ .readCredit bytes slots) :
    s.native.queued.length + s.native.reading.length ≤ 63 := by
  have hlength := (hl.tracked.tracks (h.unfinished hcall hlate)).length_eq
  have hempty : s.pushed = [] := System.pushed_eq fun st hst => by
    rw [hcall] at hst
    cases hst
    exact hpushed
  rw [System.records, hempty, List.append_nil, List.length_map] at hlength
  have hroom := hl.attuned.counted.room
  rcases hl.attuned.called.submitting hcalling with ⟨length, bytes, slots, rfl, -⟩ | ⟨-, -, hsome⟩
  · exact absurd rfl (hcredit bytes slots)
  · rw [hsome] at hroom
    change _ + 1 ≤ 64 at hroom
    omega

/-- **A call finds room in the backlog.** -/
theorem reserve_room (h : Bounded s) (hl : Linked s) {c : Command} (hcall : s.native.call = some (.reserve c)) :
    s.native.pendingOps < 64 := by
  obtain ⟨call, site, hcalling, hstaged⟩ := hl.attuned.staged hcall
  have hcredit : ∀ bytes slots, call ≠ .readCredit bytes slots := by
    rintro bytes slots rfl
    cases hstaged with
    | reserve hsub hordered => cases hordered
  have hrecords := h.records_le hl hcall rfl rfl hcalling hcredit
  have hops := hl.tracked.pendingOps
  rw [System.reserved_eq hcall] at hops
  change _ = _ + 0 at hops
  omega

/-- **A call finds room in the channel.** -/
theorem send_room (h : Bounded s) (hl : Linked s) {c : Command} (hcall : s.native.call = some (.send c)) :
    s.native.channel.length < 96 := by
  obtain ⟨call, site, hcalling, hstaged⟩ := hl.attuned.staged hcall
  have hunfinished := h.unfinished hcall rfl
  have hcredits := h.credits_le hl
  have hlength := channel_length s.native.channel
  by_cases hcredit : ∀ bytes slots, call ≠ .readCredit bytes slots
  · have hrecords := h.records_le hl hcall rfl rfl hcalling hcredit
    have hcommands := Native.channel_commands s.native
    omega
  · -- the slots of this credit are still free
    simp only [not_forall, not_not] at hcredit
    obtain ⟨bytes, slots, rfl⟩ := hcredit
    obtain ⟨lost, hfunded⟩ := hl.funded
    have hslots := hfunded.slots
    have hgranted : s.granted = (0, 0) := System.granted_eq fun st hst => by
      rw [hcall] at hst
      cases hst
      rfl
    rw [hgranted] at hslots
    change s.js.port.readSlots + 0 = _ at hslots
    have hcommands := hl.commands_le hunfinished
    have hrecords := hl.attuned.records_length
    have hfree : s.native.channel.countP Command.credits ≤ 31 := by
      rcases hl.attuned.called.submitting hcalling with ⟨length, bytes', slots', heq, -, hspec, -⟩ | ⟨hno, -⟩
      · cases heq
        obtain ⟨-, hfull, -, hpos⟩ := credit_spec hspec
        have hle := Composition.credits_le h.credits
        unfold NativePort.creditSlots NativePort.channelSlots at hslots
        simp only [Nat.cast_add] at hslots
        omega
      · exact absurd rfl (hno bytes slots)
    omega

theorem of_channel (h : Bounded s) (hchannel : s'.native.channel = s.native.channel ∨
      ∃ c, s.native.channel = c :: s'.native.channel)
    (hundo : ∀ error, s'.native.call = some (.undo error) → s'.native.receiving = false)
    (hclosed : s'.js.port.finished = true →
      s'.native.stop = true ∧ ∀ stage, s'.native.call = some stage → stage.early = true) : Bounded s' := by
  have hcommands := h.commands
  have hcredits := h.credits
  rcases hchannel with hsame | ⟨c, hcons⟩
  · exact ⟨by rw [hsame]; exact hcommands, by rw [hsame]; exact hcredits, hundo, hclosed⟩
  · rw [hcons] at hcommands hcredits
    rw [List.countP_cons] at hcommands
    exact ⟨(Nat.le_add_right _ _).trans hcommands, fun d hd => hcredits d (List.mem_cons_of_mem _ hd), hundo, hclosed⟩

theorem early_of_check {stage : Native.Call} (h : ∃ call, stage = .check call) : stage.early = true := by
  obtain ⟨call, rfl⟩ := h
  rfl

theorem enter (h : Bounded s) {n : NativePort} {js : Client} {out : List Binding.Output}
    (hchannel : n.channel = s.native.channel) (hcall : n.call = none)
    (hclosed : js.port.finished = true → n.stop = true) : Bounded ⟨js, enter n js out⟩ := by
  refine h.of_channel (.inl hchannel) ?_ ?_
  · intro error hundo
    obtain ⟨call, hcheck⟩ := enter_check hcall js out _ hundo
    cases hcheck
  · intro hfinished
    exact ⟨(enter_entered n js out).stop (hclosed hfinished),
      fun stage hstage => early_of_check (enter_check hcall js out stage hstage)⟩

/-- The call of the handle goes on: it finds room for its command, or JavaScript had not sent it. -/
theorem call (h : Bounded s) (hl : Linked s) {stage : Native.Call} (hcall : s.native.call = some stage)
    {writer : Native.Io ℕ} {native : NativePort} {out : List Native.Output}
    (hstepCall : s.native.stepCall stage writer = some (native, out)) (hl' : Linked ⟨s.js, native⟩) :
    Bounded ⟨s.js, native⟩ := by
  obtain ⟨call, site, stage', hcalling, hcall', hstaged, hstaged', hcallStep⟩ := hl.attuned.callStep hcall hstepCall
  obtain ⟨hsame, -, -, hstop, -⟩ := Native.stepCall_sameReactor hstepCall
  have hundo : ∀ error, native.call = some (.undo error) → native.receiving = false := by
    intro error hundo
    rw [hsame.receiving]
    rcases Native.stepCall_undo hstepCall hundo with ⟨c, rfl, hbacklog⟩ | ⟨c, rfl, hclosed | hfull⟩
    · have hroom := h.reserve_room hl hcall
      change 64 ≤ _ at hbacklog
      omega
    · exact hclosed
    · have hroom := h.send_room hl hcall
      change 96 ≤ _ at hfull
      omega
  have hclosed : s.js.port.finished = true → native.stop = true ∧ (∀ stage, native.call = some stage →
      stage.early = true) ∧ native.channel = s.native.channel := by
    intro hfinished
    obtain ⟨hstopped, hearly⟩ := h.closed hfinished
    obtain ⟨⟨stage'', hstage'', hearly''⟩, hchannel⟩ := Native.stepCall_early hstopped (hearly _ hcall) hstepCall
    refine ⟨hstop.trans hstopped, fun st hst => ?_, hchannel⟩
    rw [hstage''] at hst
    cases hst
    exact hearly''
  have hkept : native.channel = s.native.channel → Bounded ⟨s.js, native⟩ := fun hchannel =>
    h.of_channel (.inl hchannel) hundo fun hf => ⟨(hclosed hf).1, (hclosed hf).2.1⟩
  cases hcallStep with
  | pushed hstage hsub =>
    rename_i c
    have hunfinished : s.js.port.finished = false := h.unfinished hcall (by rw [hstage]; rfl)
    refine ⟨?_, ?_, hundo, fun hf => ?_⟩
    · have hcommands := hl'.commands_le hunfinished
      have hrecords := hl'.attuned.records_length
      omega
    · intro d hd hcredits
      rcases List.mem_append.1 hd with hold | hnew
      · exact h.credits d hold hcredits
      · obtain rfl := List.mem_singleton.1 hnew
        rcases hsub with rfl | ⟨-, -, count, rfl⟩
        · rcases hl.attuned.called.submitting hcalling with ⟨length, bytes, slots, rfl, -, hspec, -⟩ | ⟨hno, -⟩
          · obtain ⟨-, -, -, hpos⟩ := credit_spec hspec
            show 0 < slots.toNat
            omega
          · cases call with
            | readCredit bytes slots => exact absurd rfl (hno bytes slots)
            | request id operation value => cases operation <;> cases hcredits
            | _ => cases hcredits
        · cases hcredits
    · rw [hunfinished] at hf
      cases hf
  | _ => exact hkept rfl

/-- **Every step keeps the bounds.** -/
theorem step (h : Bounded s) (hl : Linked s) {i : Input} {out : List Output} (hstep : system.step s i = some (s', out))
    (hl' : Linked s') : Bounded s' := by
  cases system_step hstep with
  | js hi hjs =>
    refine h.enter rfl (hl.attuned.call.idle (jsInput_calling hi hjs)) fun hfinished => ?_
    refine (h.closed ?_).1
    cases Client.step_requestStep hjs with
    | method hi' hc hsub => exact hsub.frame.finished.symm.trans hfinished
    | dropped | queued | credited | event => cases hi
    | other hc hsame => exact hsame.finished.symm.trans hfinished
  | native hi hn =>
    cases native_nativeStep hl.attuned.fits hi hn with
    | reactor hm =>
      have hapart := hm.apart
      refine h.of_channel hm.channel ?_ ?_
      · intro error hundo
        have hreceiving := h.undo error (hapart.call.symm.trans hundo)
        by_contra hno
        rw [hapart.receiving (by simpa using hno)] at hreceiving
        cases hreceiving
      · intro hfinished
        obtain ⟨hstop, hearly⟩ := h.closed hfinished
        exact ⟨hapart.stop hstop, fun stage hstage => hearly stage (hapart.call.symm.trans hstage)⟩
    | stop => exact h.of_channel (.inl rfl) h.undo fun hf => ⟨rfl, (h.closed hf).2⟩
    | teardown => exact h.of_channel (.inl rfl) h.undo h.closed
    | call hcall hstepCall => exact h.call hl hcall hstepCall hl'
  | answer hcall hcalling hjs =>
    rename_i answer call site js out
    refine h.enter (n := _) rfl rfl fun hfinished => ?_
    refine (h.closed ?_).1
    cases Client.step_requestStep hjs with
    | method hi' hc hsub => exact hsub.frame.finished.symm.trans hfinished
    | dropped hc hsite hno hmay hout =>
      rw [hout, (Client.answered_dropped (c := s.js) _ hsite hno).2.1.finished] at hfinished
      exact hfinished
    | queued hc hsite ha => exact ha.finished.symm.trans hfinished
    | credited hc hnone hsame => exact hsame.finished.symm.trans hfinished
    | other hc hsame => exact hsame.finished.symm.trans hfinished
  | callback hcallbacks hjs =>
    rename_i allocate event callbacks js out
    have hidle := calling_none hjs (fun _ h => nomatch h)
    refine h.enter (n := _) rfl (hl.attuned.call.idle hidle) fun hfinished => ?_
    -- the close event comes after the reactor has stopped the port
    have hsignals := (hl'.tracked.finished hfinished).2
    refine hl.attuned.fits.halted ?_
    change s.native.reactor.pc.signals = 0 at hsignals
    revert hsignals
    cases s.native.reactor.pc <;> simp [Native.Pc.signals, Native.Pc.halted]

end Bounded

/-- A call that passed its checks is refused only by a port that is stopped, or whose reactor has ended. -/
theorem Bounded.proceeds (h : Bounded s) (hl : Linked s) {stage : Native.Call} {writer : Native.Io ℕ} {n : NativePort}
    {out : List Native.Output} (hcall : s.native.call = some stage) (hchecked : ∀ call, stage ≠ .check call)
    (hstop : s.native.stop = false) (hreceiving : s.native.receiving = true)
    (hstep : s.native.stepCall stage writer = some (n, out)) : ∃ stage', n.call = some stage' ∧ stage'.refuses = false := by
  obtain ⟨call, site, stage', hcalling, hcall', hstaged, hstaged', hcallStep⟩ := hl.attuned.callStep hcall hstep
  refine ⟨stage', hcall', ?_⟩
  cases hcallStep with
  | goes hrest hres hrefuses hrefuses' => exact hrefuses'
  | wrote hstage hinline hcount hrest hstage' => rcases hstage' with rfl | ⟨c, rfl⟩ <;> rfl
  | reserved => rfl
  | pushed => rfl
  | refused hrefused =>
    exfalso
    cases hrefused with
    | invalid => exact hchecked _ rfl
    | stopped hstopped =>
      rw [hstop] at hstopped
      cases hstopped
    | backlog hbacklog =>
      have hroom := h.reserve_room hl hcall
      change 64 ≤ _ at hbacklog
      omega
    | closed hclosed =>
      rw [hreceiving] at hclosed
      cases hclosed
    | full hfull =>
      have hroom := h.send_room hl hcall
      change 96 ≤ _ at hfull
      omega
  | undone hstage =>
    rw [hstage] at hcall
    have hclosed := h.undo _ hcall
    rw [hreceiving] at hclosed
    cases hclosed

theorem Linked.accepts (h : Linked s) (hteardown : s.native.teardown = false) {i : Input} {out : List Output}
    (hstep : system.step s i = some (s', out)) (event : CallbackEvent) : .native (.refused event) ∉ out := by
  have hjs : ∀ outputs : List Binding.Output, Output.native (.refused event) ∉ outputs.map Output.js := by
    intro outputs hmem
    obtain ⟨o, -, ho⟩ := List.mem_map.1 hmem
    cases ho
  cases system_step hstep with
  | js hi hstepJs => exact hjs _
  | native hi hn =>
    intro hmem
    obtain ⟨o, ho, heq⟩ := List.mem_map.1 hmem
    cases heq
    cases native_nativeStep h.attuned.fits hi hn with
    | reactor hm => exact hm.accepts (h.room hteardown) event ho
    | call hcall hstepCall => exact absurd ((Native.stepCall_sameReactor hstepCall).2.2.2.2 _ ho) nofun
    | stop => cases ho
    | teardown => cases ho
  | answer hcall hcalling hstepJs =>
    intro hmem
    rcases List.mem_cons.1 hmem with hmem | hmem
    · cases hmem
    · exact hjs _ hmem
  | callback hcallbacks hstepJs =>
    intro hmem
    rcases List.mem_append.1 hmem with hmem | hmem
    · unfold System.completions at hmem
      split at hmem
      · split at hmem
        · cases hmem
        · cases hmem
        · split at hmem
          · cases List.mem_singleton.1 hmem
          · cases hmem
      · cases hmem
    · exact hjs _ hmem

theorem Bounded.run {path : String} {nextId : ℕ} (hnextId : Binding.BindingPort.InRange nextId) {inputs : List Input}
    {outputs : List Output} (hrun : system.run (System.new path nextId) inputs = some (s, outputs))
    (hteardown : s.native.teardown = false) :
    Linked s ∧ Bounded s ∧ ∀ event, .native (.refused event) ∉ outputs := by
  have hP := Machine.run_rule_all (fun _ outputs (s : System) => Attuned s ∧ (s.native.teardown = false →
    Linked s ∧ Bounded s ∧ ∀ event, Output.native (.refused event) ∉ outputs)) ?_ ?_ hrun
  · exact hP.2 hteardown
  · exact ⟨.start path hnextId, fun _ => ⟨.start path hnextId, .start path nextId, fun _ hmem => nomatch hmem⟩⟩
  · rintro inputs outputs s i s' out ⟨hattuned, h⟩ hstep
    refine ⟨hattuned.step hstep, fun hteardown' => ?_⟩
    have hteardown := step_teardown hattuned hstep hteardown'
    obtain ⟨hlinked, hbounded, haccepts⟩ := h hteardown
    have hlinked' := hlinked.step hteardown hstep
    refine ⟨hlinked', hbounded.step hlinked hstep hlinked', fun event hmem => ?_⟩
    rcases List.mem_append.1 hmem with hmem | hmem
    · exact haccepts event hmem
    · exact hlinked.accepts hteardown hstep event hmem

/-- **The queues never overflow.**  Over every run of the composition, as long as the callback queue is not torn down:

* the command channel holds at most 64 ordered operations and explicit reads, and at most 32 read credits;
* the callback queue holds at most 64 answers to operations, 32 events of reads, one open and one close event;
* a command that is about to be sent finds room in the channel, and every event found room in the callback queue;
* a call that has passed the checks of its arguments, a write of which the device took the first bytes included, goes
  on unless the port was stopped, or its reactor has ended. -/
theorem queues_bounded (path : String) (nextId : ℕ) (hnextId : Binding.BindingPort.InRange nextId)
    (inputs : List Input) (s : System) (outputs : List Output)
    (hrun : system.run (System.new path nextId) inputs = some (s, outputs)) (hteardown : s.native.teardown = false) :
    (s.native.channel.countP (fun c => !c.credits) ≤ 64 ∧ s.native.channel.countP Command.credits ≤ 32 ∧
      s.native.channel.length ≤ 96) ∧
    (s.native.callbacks.countP (fun e => e.reply?.isSome) ≤ 64 ∧ s.native.callbacks.countP CallbackEvent.reads ≤ 32 ∧
      s.native.callbacks.countP CallbackEvent.opens ≤ 1 ∧ s.native.callbacks.countP CallbackEvent.closes ≤ 1 ∧
      s.native.callbacks.length ≤ 98) ∧
    (∀ c, s.native.call = some (.send c) → s.native.channel.length < 96) ∧
    (∀ event, .native (.refused event) ∉ outputs) ∧
    ∀ stage writer n out, s.native.call = some stage → (∀ call, stage ≠ .check call) → s.native.stop = false →
      s.native.receiving = true → s.native.stepCall stage writer = some (n, out) →
      ∃ stage', n.call = some stage' ∧ stage'.refuses = false := by
  obtain ⟨hlinked, hbounded, haccepts⟩ := Bounded.run hnextId hrun hteardown
  obtain ⟨lost, hfunded⟩ := hlinked.funded
  have hcredits := hbounded.credits_le hlinked
  have hcommands := hbounded.commands
  have hlength := channel_length s.native.channel
  have hqueue := hlinked.tracked.queue
  have hbuffered : s.native.buffered.length ≤ 32 := by
    have hle := hfunded.creditSlots_le hlinked.attuned
    unfold NativePort.creditSlots at hle
    omega
  have hreads := hqueue.reads_le
  have hopens := hqueue.opens
  -- nothing is left in the queue of a port that is finished
  obtain ⟨hreplies, hcallbacks⟩ : s.native.callbacks.countP (fun e => e.reply?.isSome) ≤ 64 ∧
      s.native.callbacks.length ≤ 98 := by
    cases hfinished : s.js.port.finished with
    | true =>
      rw [(hlinked.tracked.finished hfinished).1]
      exact ⟨Nat.zero_le _, Nat.zero_le _⟩
    | false =>
      have hrecords := hlinked.attuned.records_length
      have htracked := (hlinked.tracked.tracks hfinished).length_eq
      have hcount := Native.replies_le s.native
      have hall := hqueue.length_le
      exact ⟨by omega, by omega⟩
  refine ⟨⟨hcommands, hcredits, by omega⟩, ⟨hreplies, by omega, by omega, hqueue.closes_le, hcallbacks⟩,
    fun c hcall => hbounded.send_room hlinked hcall, haccepts, ?_⟩
  intro stage writer n out hcall hchecked hstop hreceiving hstep
  exact hbounded.proceeds hlinked hcall hchecked hstop hreceiving hstep

/-- A write of three bytes of which the device takes one at once: its call goes on to queue the rest. -/
theorem queues_bounded_partial : ∃ s outputs,
    system.run (System.new "/dev/ttyS0" 1) [.native (.reactor (.opened (.ok ()))), .native (.reactor .run),
      .callback (fun _ => .ok 0), .js (.invoke (.write (.ofBytes [1, 2, 3]))), .native (.advance .pending),
      .native (.advance .pending), .native (.advance (.ready 1))] = some (s, outputs) ∧
    s.native.call = some (.enqueue ⟨1, .write [2, 3]⟩) ∧ s.native.channel.length ≤ 96 ∧
    ∃ n, s.native.stepCall (.enqueue ⟨1, .write [2, 3]⟩) .pending = some (n, []) ∧
      ∃ stage', n.call = some stage' ∧ stage'.refuses = false := by
  refine ⟨_, _, rfl, rfl, ?_⟩
  have h := queues_bounded "/dev/ttyS0" 1 ⟨by decide, by decide⟩ [.native (.reactor (.opened (.ok ()))),
      .native (.reactor .run), .callback (fun _ => .ok 0), .js (.invoke (.write (.ofBytes [1, 2, 3]))),
      .native (.advance .pending), .native (.advance .pending), .native (.advance (.ready 1))] _ _ rfl rfl
  exact ⟨h.1.2.2, _, rfl, h.2.2.2.2 (.enqueue ⟨1, .write [2, 3]⟩) .pending _ _ rfl nofun rfl rfl rfl⟩

end NodeSerialport.Composition
