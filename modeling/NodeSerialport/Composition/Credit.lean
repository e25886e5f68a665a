import NodeSerialport.Composition.Records
/-!
# Read credit

JavaScript grants the native side bytes and slots; each buffer the reactor reads costs its length and one slot, and
JavaScript gets them back when it passes the buffer on.

* `System.granted` — the credit that is in the channel, and that JavaScript has not counted;
* `Funded` — what JavaScript has granted is on the native side, or in the buffers it holds;
* `Funded.room` — the callback queue never fills up.
-/

namespace NodeSerialport.Composition

open Parsers (Buffer)
open Binding (Client NativeCall Answer FlagStep totalLength totalLength_append)
open Binding.BindingPort (credit_spec)
open Native (NativePort CallbackEvent Command)

variable {s s' : System} {lost : List Buffer}

/-! ### Credit in the hands of the native handle -/

/-- The credit that is in the channel, while JavaScript has not counted it. -/
def System.granted (s : System) : ℤ × ℤ :=
  match s.native.call, s.js.calling with
  | some (.returned .queued), some (.readCredit bytes slots, _) => (bytes, slots)
  | _, _ => (0, 0)

theorem System.granted_eq (h : ∀ stage, s.native.call = some stage → stage.pushed = false) : s.granted = (0, 0) := by
  unfold granted
  split
  · rename_i hcall hcalling
    cases h _ hcall
  · rfl

theorem System.granted_none (h : ∀ bytes slots site, s.js.calling ≠ some (.readCredit bytes slots, site)) :
    s.granted = (0, 0) := by
  unfold granted
  split
  · rename_i hcall hcalling
    exact absurd hcalling (h _ _ _)
  · rfl

theorem totalLength_flatten (buffers : List Buffer) : totalLength buffers = buffers.flatten.length := by
  induction buffers with
  | nil => rfl
  | cons buffer buffers ih =>
    show totalLength ([buffer] ++ buffers) = _
    rw [totalLength_append, ih, Binding.totalLength_singleton, List.flatten_cons, List.length_append]
    push_cast
    rfl

theorem totalLength_nonneg (buffers : List Buffer) : 0 ≤ totalLength buffers := by
  rw [totalLength_flatten]
  exact Int.natCast_nonneg _

/-- **What JavaScript has granted** is on the native side, in the buffers it holds, or in buffers that were lost. -/
structure Funded (s : System) (lost : List Buffer) : Prop where
  wf : s.js.QueueWF
  scheduled : s.js.microtasks = s.js.items.length
  bytes : s.js.port.readBytes + s.granted.1 = s.native.creditBytes + totalLength s.js.held + totalLength lost
  slots : s.js.port.readSlots + s.granted.2 = s.native.creditSlots + s.js.held.length + lost.length
  lossless : ¬s.js.Shut → s.js.port.failure = none → lost = []
  unopened : s.js.port.isOpen = false → s.js.port.closing = false →
    s.native.creditBytes = 0 ∧ s.native.creditSlots = 0 ∧ s.js.held = []
  filled : s.js.port.readSlots ≤ 32

namespace Funded

theorem start (path : String) (nextId : ℕ) : Funded (System.new path nextId) [] :=
  ⟨⟨fun _ => rfl, nofun⟩, rfl, rfl, rfl, fun _ _ => rfl, fun _ _ => ⟨rfl, rfl, rfl⟩, (by decide : (0 : ℤ) ≤ 32)⟩

theorem creditSlots_le (h : Funded s lost) (ha : Attuned s) : s.native.creditSlots ≤ 32 := by
  have hslots := h.slots
  have hfilled := h.filled
  have hgranted : s.js.port.readSlots + s.granted.2 ≤ 32 := by
    unfold System.granted
    split
    · rename_i bytes slots site hcall hcalling
      rcases ha.called.submitting hcalling with ⟨length, bytes', slots', heq, -, hcredit, -⟩ | ⟨hno, -, -⟩
      · cases heq
        exact (credit_spec hcredit).2.1.le
      · exact absurd rfl (hno bytes slots)
    · simpa using hfilled
  omega

/-- **The callback queue takes one more event.** -/
theorem room (h : Funded s lost) (ha : Attuned s) (ht : Tracked s) (hteardown : s.native.teardown = false) :
    s.native.Room := by
  refine ⟨?_, hteardown⟩
  cases hfinished : s.js.port.finished with
  | true =>
    rw [(ht.finished hfinished).1]
    decide
  | false =>
    have hreplies : s.native.replies.length ≤ 64 := by
      have hlength := (ht.tracks hfinished).length_eq
      have hrecords := ha.records_length
      omega
    have hbuffered : s.native.buffered.length ≤ 32 := by
      have hle := h.creditSlots_le ha
      unfold NativePort.creditSlots at hle
      omega
    have hqueue := ht.queue.length_le
    show s.native.callbacks.length < 128
    omega

/-- **A transition of the reactor.** -/
theorem moves (h : Funded s lost) (ha : Attuned s) (hroom : s.native.Room) {n : NativePort} {out : List Native.Output}
    (hm : Native.Moves s.native n out) : Funded ⟨s.js, n⟩ lost := by
  obtain ⟨hbytes, hslots⟩ := hm.credit ha.fits hroom
  have hgranted : System.granted ⟨s.js, n⟩ = s.granted := by
    unfold System.granted
    rw [hm.apart.call]
  refine ⟨h.wf, h.scheduled, ?_, ?_, h.lossless, ?_, h.filled⟩
  · rw [hgranted, hbytes]
    exact h.bytes
  · rw [hgranted, hslots]
    exact h.slots
  · rw [hbytes, hslots]
    exact h.unopened

/-- **A command joins the channel.** -/
theorem push (h : Funded s lost) (ha : Attuned s) {call : NativeCall} {site : Binding.Site} {c : Command}
    (hcalling : s.js.calling = some (call, site)) (hbefore : s.granted = (0, 0)) (hsub : Native.Submits call c) :
    Funded ⟨s.js, s.native.enlist c (.returned .queued)⟩ lost := by
  have hbytes := h.bytes
  have hslots := h.slots
  rw [hbefore] at hbytes hslots
  rcases ha.called call site hcalling with ⟨length, bytes, slots, rfl, rfl, hcredit, hclosed⟩ | ⟨op, id, rfl, hsite, hno⟩
  · -- the credit is granted, and not yet counted
    obtain rfl : c = Native.command (.readCredit bytes slots) := hsub.resolve_right fun hw => nomatch hw.1
    obtain ⟨-, -, hpos, hpos'⟩ := credit_spec hcredit
    have hafter : System.granted ⟨s.js, s.native.enlist (Native.command (.readCredit bytes slots)) (.returned .queued)⟩ =
        (bytes, slots) := by
      show (match some (Native.Call.returned .queued), s.js.calling with
        | some (.returned .queued), some (.readCredit bytes slots, _) => (bytes, slots)
        | _, _ => ((0, 0) : ℤ × ℤ)) = _
      rw [hcalling]
    refine ⟨h.wf, h.scheduled, ?_, ?_, h.lossless, ?_, h.filled⟩
    · rw [hafter, Native.enlist_creditBytes]
      show s.js.port.readBytes + bytes = ((s.native.creditBytes + bytes.toNat : ℕ) : ℤ) + totalLength s.js.held + _
      change s.js.port.readBytes + 0 = _ at hbytes
      omega
    · rw [hafter, Native.enlist_creditSlots]
      show s.js.port.readSlots + slots = ((s.native.creditSlots + slots.toNat : ℕ) : ℤ) + s.js.held.length + _
      change s.js.port.readSlots + 0 = _ at hslots
      omega
    · intro hopen hclosing
      rw [hclosed hopen] at hclosing
      cases hclosing
  · have hzero : c.creditBytes = 0 ∧ c.creditSlots = 0 := by
      rcases hsub with rfl | ⟨hmay, hinline, count, rfl⟩
      · cases op with
        | control operation value => cases operation <;> exact ⟨rfl, rfl⟩
        | _ => exact ⟨rfl, rfl⟩
      · exact ⟨rfl, rfl⟩
    have hafter : System.granted ⟨s.js, s.native.enlist c (.returned .queued)⟩ = (0, 0) := by
      refine System.granted_none fun bytes slots site' hc => ?_
      have heq := hcalling.symm.trans hc
      cases op <;> cases heq
    refine ⟨h.wf, h.scheduled, ?_, ?_, h.lossless, ?_, h.filled⟩
    · rw [hafter, Native.enlist_creditBytes, hzero.1]
      exact hbytes
    · rw [hafter, Native.enlist_creditSlots, hzero.2]
      exact hslots
    · rw [Native.enlist_creditBytes, Native.enlist_creditSlots, hzero.1, hzero.2]
      exact h.unopened

/-- **A step of a call.** -/
theorem call (h : Funded s lost) (ha : Attuned s) {stage : Native.Call} {writer : Native.Io ℕ} {n : NativePort}
    {out : List Native.Output} (hcall : s.native.call = some stage)
    (hstep : s.native.stepCall stage writer = some (n, out)) : Funded ⟨s.js, n⟩ lost := by
  obtain ⟨call, site, stage', hcalling, hcall', hstaged, hstaged', hcallStep⟩ := ha.callStep hcall hstep
  have hbefore : s.granted = (0, 0) := System.granted_eq fun st hst => by
    rw [hcall] at hst
    cases hst
    exact Native.stepCall_pushed hstep
  have hbytes := h.bytes
  have hslots := h.slots
  rw [hbefore] at hbytes hslots
  have hsame : n.creditBytes = s.native.creditBytes → n.creditSlots = s.native.creditSlots → stage'.pushed = false →
      Funded ⟨s.js, n⟩ lost := by
    intro hb hs hno
    have hafter : System.granted ⟨s.js, n⟩ = (0, 0) := System.granted_eq fun st hst => by
      rw [hcall'] at hst
      cases hst
      exact hno
    refine ⟨h.wf, h.scheduled, ?_, ?_, h.lossless, ?_, h.filled⟩
    · rw [hafter, hb]
      exact hbytes
    · rw [hafter, hs]
      exact hslots
    · rw [hb, hs]
      exact h.unopened
  cases hcallStep with
  | goes hrest hres hrefuses hrefuses' hpushed' => exact hsame rfl rfl hpushed'
  | wrote hstage hinline hcount hrest hstage' =>
    refine hsame rfl rfl ?_
    rcases hstage' with rfl | ⟨c, rfl⟩ <;> rfl
  | reserved hstage hordered => exact hsame rfl rfl rfl
  | refused hrefused hrefuses hpending =>
    refine hsame rfl rfl ?_
    cases stage' with
    | returned answer =>
      cases answer with
      | queued => cases hrefuses
      | _ => rfl
    | _ => rfl
  | undone hstage => exact hsame rfl rfl rfl
  | pushed hstage hsub => exact h.push ha hcalling hbefore hsub

theorem unopened_flagStep {c c' : Client} {i : Binding.Input} (h : FlagStep c i c') (hopen : c'.port.isOpen = false)
    (hclosing : c'.port.closing = false) : c.port.isOpen = false ∧ c.port.closing = false := by
  refine ⟨?_, ?_⟩
  · rcases h.isOpen with ho | ⟨-, hc⟩ | ⟨-, ho⟩
    · exact ho.symm.trans hopen
    · rw [hclosing] at hc
      cases hc
    · rw [hopen] at ho
      cases ho
  · by_contra hno
    have hc := h.closing (by simpa using hno)
    rw [hclosing] at hc
    cases hc

/-- **JavaScript goes on by itself.** -/
theorem js (h : Funded s lost) (ha : Attuned s) {i : Binding.Input} {js : Client} {out : List Binding.Output}
    (hi : jsInput i = true) (hstep : Binding.client.step s.js i = some (js, out)) :
    ∃ lost', Funded ⟨js, enter s.native js out⟩ lost' := by
  have hcalling := jsInput_calling hi hstep
  have hcall := ha.call.idle hcalling
  obtain ⟨⟨hwf, hscheduled⟩, hread⟩ := Client.step_readStep h.wf h.scheduled hstep
  have hflags := Client.step_flagStep hstep
  have hfailure : js.port.failure = s.js.port.failure := hflags.failure fun error lost he => by
    rw [he] at hi
    cases hi
  have hreceived : i.received = [] := by
    cases i with
    | callback => cases hi
    | _ => rfl
  have hbefore : s.granted = (0, 0) := System.granted_eq fun stage hstage => by
    rw [hcall] at hstage
    cases hstage
  have hafter : System.granted ⟨js, enter s.native js out⟩ = (0, 0) := System.granted_eq fun stage hstage => by
    obtain ⟨call, rfl⟩ := enter_check hcall js out stage hstage
    rfl
  have hbytes := h.bytes
  have hslots := h.slots
  have hfilled := h.filled
  rw [hbefore] at hbytes hslots
  have hlossless : ∀ {lost' : List Buffer}, (¬s.js.Shut → s.js.port.failure = none → lost' = []) →
      ¬js.Shut → js.port.failure = none → lost' = [] := fun hl hshut hf =>
    hl (fun hs => hshut (hs.flagStep hflags)) (hfailure.symm.trans hf)
  cases hread with
  | kept hpassed hcredits hheld hb hs =>
    rw [hreceived, List.append_nil] at hheld
    refine ⟨lost, hwf, hscheduled, ?_, ?_, hlossless h.lossless, ?_, hs.le.trans hfilled⟩
    · rw [hafter, hb, hheld]
      exact hbytes
    · rw [hafter, hs, hheld]
      exact hslots
    · intro ho hc
      rw [hheld]
      obtain ⟨ho', hc'⟩ := unopened_flagStep hflags ho hc
      exact h.unopened ho' hc'
  | credited bytes slots hc =>
    rw [hcalling] at hc
    cases hc
  | passed data hc hopen hno hrec hpassed hcredits hheld hb hs =>
    rw [hheld] at hbytes hslots
    change _ = _ + totalLength ([data] ++ js.held) + _ at hbytes
    rw [totalLength_append, Binding.totalLength_singleton] at hbytes
    rw [List.length_cons] at hslots
    push_cast at hslots
    refine ⟨lost, hwf, hscheduled, ?_, ?_, hlossless h.lossless, ?_, ?_⟩
    · rw [hafter]
      show js.port.readBytes + 0 = s.native.creditBytes + totalLength js.held + totalLength lost
      change s.js.port.readBytes + 0 = _ at hbytes
      omega
    · rw [hafter]
      show js.port.readSlots + 0 = s.native.creditSlots + js.held.length + lost.length
      change s.js.port.readSlots + 0 = _ at hslots
      omega
    · intro ho hc
      rw [(unopened_flagStep hflags ho hc).1] at hopen
      cases hopen
    · show js.port.readSlots ≤ 32
      omega
  | dropped gone hc hclosed hno hrec hpassed hcredits hheld hb hs =>
    rw [hheld] at hbytes hslots
    rw [totalLength_append] at hbytes
    rw [List.length_append] at hslots
    push_cast at hslots
    refine ⟨lost ++ gone, hwf, hscheduled, ?_, ?_, hlossless ?_, ?_, hs.le.trans hfilled⟩
    · rw [hafter, totalLength_append]
      show js.port.readBytes + 0 = s.native.creditBytes + totalLength js.held + _
      change s.js.port.readBytes + 0 = _ at hbytes
      omega
    · rw [hafter, List.length_append]
      push_cast
      show js.port.readSlots + 0 = s.native.creditSlots + js.held.length + _
      change s.js.port.readSlots + 0 = _ at hslots
      omega
    · -- before it was opened the port held nothing
      intro hshut hf
      have hnot : s.js.port.closing = false := by
        by_contra hno
        exact hshut ⟨hclosed, by simpa using hno⟩
      have hnil := (h.unopened hclosed hnot).2.2
      rw [hheld, List.append_eq_nil_iff] at hnil
      rw [h.lossless hshut hf, hnil.1]
      rfl
    · intro ho hc
      obtain ⟨ho', hc'⟩ := unopened_flagStep hflags ho hc
      obtain ⟨hb', hs', hnil⟩ := h.unopened ho' hc'
      rw [hheld, List.append_eq_nil_iff] at hnil
      exact ⟨hb', hs', hnil.2⟩

/-- **The native handle answers.** -/
theorem answer (h : Funded s lost) (ha : Attuned s) {answer : Answer} {call : NativeCall} {site : Binding.Site}
    {js : Client} {out : List Binding.Output} (hcall : s.native.call = some (.returned answer))
    (hcalling : s.js.calling = some (call, site)) (hstep : Binding.client.step s.js (.answer answer) = some (js, out)) :
    Funded ⟨js, enter { s.native with call := none } js out⟩ lost := by
  obtain ⟨⟨hwf, hscheduled⟩, hread⟩ := Client.step_readStep h.wf h.scheduled hstep
  have hflags := Client.step_flagStep hstep
  have hfailure : js.port.failure = s.js.port.failure := hflags.failure fun _ _ he => nomatch he
  have hafter : System.granted ⟨js, enter { s.native with call := none } js out⟩ = (0, 0) :=
    System.granted_eq fun stage hstage => by
      obtain ⟨call, rfl⟩ := enter_check (n := { s.native with call := none }) rfl js out stage hstage
      rfl
  have hbytes := h.bytes
  have hslots := h.slots
  have hfilled := h.filled
  have hlossless : ¬js.Shut → js.port.failure = none → lost = [] := fun hshut hf =>
    h.lossless (fun hs => hshut (hs.flagStep hflags)) (hfailure.symm.trans hf)
  obtain ⟨call', site', hcalling', hstaged⟩ := ha.staged hcall
  obtain ⟨rfl, rfl⟩ : call = call' ∧ site = site' := by
    rw [hcalling] at hcalling'
    cases hcalling'
    exact ⟨rfl, rfl⟩
  cases hread with
  | kept hpassed hcredits hheld hb hs hrefused =>
    have hbefore : s.granted = (0, 0) := by
      rcases ha.called.submitting hcalling with ⟨length, bytes, slots, rfl, rfl, -⟩ | ⟨hno, -, -⟩
      · obtain ⟨error, he⟩ := hrefused _ _ _ hcalling
        cases he
        exact System.granted_eq fun stage hstage => by
          rw [hcall] at hstage
          cases hstage
          rfl
      · refine System.granted_none fun bytes slots site hc => ?_
        rw [hcalling] at hc
        cases hc
        exact hno _ _ rfl
    rw [hbefore] at hbytes hslots
    have hheld' : js.held = s.js.held := hheld.trans (List.append_nil _)
    refine ⟨hwf, hscheduled, ?_, ?_, hlossless, ?_, hs.le.trans hfilled⟩
    · rw [hafter, hb, hheld']
      exact hbytes
    · rw [hafter, hs, hheld']
      exact hslots
    · intro ho hc
      rw [hheld']
      obtain ⟨ho', hc'⟩ := unopened_flagStep hflags ho hc
      exact h.unopened ho' hc'
  | credited bytes slots hc hi hpassed hcredits hheld hb hs =>
    rw [hcalling] at hc
    cases hc
    rcases ha.called.submitting hcalling with ⟨length, bytes', slots', rfl, hsite, hcredit, -⟩ | ⟨-, hno, -⟩
    · cases hsite
      obtain rfl : answer = .queued := by
        obtain ⟨answer', he, hthrown⟩ := hi
        cases he
        cases hstaged with
        | completed hmay => cases hmay
        | queued => rfl
        | thrown => exact absurd rfl (hthrown _)
      have hbefore : s.granted = (bytes, slots) := by rw [System.granted, hcall, hcalling]
      rw [hbefore] at hbytes hslots
      refine ⟨hwf, hscheduled, ?_, ?_, hlossless, ?_, ?_⟩
      · rw [hafter, hb, hheld]
        exact (Int.add_zero _).trans hbytes
      · rw [hafter, hs, hheld]
        exact (Int.add_zero _).trans hslots
      · intro ho hc
        rw [hheld]
        obtain ⟨ho', hc'⟩ := unopened_flagStep hflags ho hc
        exact h.unopened ho' hc'
      · show js.port.readSlots ≤ 32
        rw [hs]
        exact (credit_spec hcredit).2.1.le
    · exact absurd rfl (hno _ _)
  | passed data hc =>
    rw [hcalling] at hc
    cases hc
  | dropped gone hc =>
    rw [hcalling] at hc
    cases hc

theorem pooledRead_ok {allocation : Native.Allocation} {data data' : Buffer}
    (h : Native.pooledRead allocation data = .ok data') : data' = data := by
  unfold Native.pooledRead at h
  split at h
  · cases h
  · split at h <;> cases h
    rfl

theorem pooled_ok {allocation : Native.Allocation} {data data' : Buffer}
    (h : Native.pooled allocation data = .ok data') : data' = data := by
  unfold Native.pooled at h
  split at h
  · exact pooledRead_ok h
  · cases h
    rfl

theorem pooledBatch_ok {allocate : ℕ → Native.Allocation} {buffers buffers' : List Buffer}
    (h : Native.pooledBatch allocate buffers = .ok buffers') : buffers' = buffers := by
  induction buffers generalizing buffers' with
  | nil =>
    cases h
    rfl
  | cons data rest ih =>
    rw [Native.pooledBatch] at h
    split at h
    · cases h
    · rename_i hdata
      split at h
      · cases h
      · rename_i hrest
        cases h
        rw [pooled_ok hdata, ih hrest]

theorem callback_received (allocate : ℕ → Native.Allocation) (event : CallbackEvent) :
    (Binding.Input.callback (event.callback allocate)).received = event.chunks ∧
        (∀ error lost, event.callback allocate ≠ .failed error lost) ∨
      (Binding.Input.callback (event.callback allocate)).received = [] ∧
        ∃ error, event.callback allocate = .failed error event.chunks := by
  unfold CallbackEvent.callback
  cases event with
  | event nativeEvent => exact .inl ⟨rfl, fun _ _ h => nomatch h⟩
  | inlineRead bytes len =>
    dsimp only
    split
    · rename_i hok
      rw [pooledRead_ok hok]
      exact .inl ⟨rfl, fun _ _ h => nomatch h⟩
    · exact .inr ⟨rfl, _, rfl⟩
  | read data =>
    dsimp only
    split
    · rename_i hok
      rw [pooled_ok hok]
      exact .inl ⟨rfl, fun _ _ h => nomatch h⟩
    · exact .inr ⟨rfl, _, rfl⟩
  | readBatch buffers =>
    dsimp only
    split
    · rename_i hok
      rw [pooledBatch_ok hok]
      exact .inl ⟨rfl, fun _ _ h => nomatch h⟩
    · exact .inr ⟨rfl, _, rfl⟩

/-- **An event reaches JavaScript.** -/
theorem callback (h : Funded s lost) (ha : Attuned s) {allocate : ℕ → Native.Allocation} {event : CallbackEvent}
    {callbacks : List CallbackEvent} {js : Client} {out : List Binding.Output}
    (hcallbacks : s.native.callbacks = event :: callbacks)
    (hstep : Binding.client.step s.js (.callback (event.callback allocate)) = some (js, out)) :
    ∃ lost', Funded ⟨js, enter { s.native with callbacks := callbacks } js out⟩ lost' := by
  have hcalling := calling_none hstep (fun _ h => nomatch h)
  have hcall := ha.call.idle hcalling
  obtain ⟨⟨hwf, hscheduled⟩, hread⟩ := Client.step_readStep h.wf h.scheduled hstep
  have hflags := Client.step_flagStep hstep
  have hbefore : s.granted = (0, 0) := System.granted_eq fun stage hstage => by
    rw [hcall] at hstage
    cases hstage
  have hafter : System.granted ⟨js, enter { s.native with callbacks := callbacks } js out⟩ = (0, 0) :=
    System.granted_eq fun stage hstage => by
      obtain ⟨call, rfl⟩ := enter_check (n := { s.native with callbacks := callbacks }) hcall js out stage hstage
      rfl
  have hbuffered : s.native.buffered =
      event.chunks ++ (enter { s.native with callbacks := callbacks } js out).buffered := by
    show s.native.callbacks.flatMap CallbackEvent.chunks ++ s.native.charged =
      event.chunks ++ (callbacks.flatMap CallbackEvent.chunks ++ s.native.charged)
    rw [hcallbacks, List.flatMap_cons, List.append_assoc]
  have hcreditBytes : (s.native.creditBytes : ℤ) =
      totalLength event.chunks + (enter { s.native with callbacks := callbacks } js out).creditBytes := by
    show ((s.native.channelBytes + s.native.reactor.window.bytes + s.native.buffered.flatten.length : ℕ) : ℤ) =
      _ + ((s.native.channelBytes + s.native.reactor.window.bytes + _ : ℕ) : ℤ)
    rw [hbuffered, List.flatten_append, List.length_append, totalLength_flatten]
    push_cast
    omega
  have hcreditSlots : (s.native.creditSlots : ℤ) =
      event.chunks.length + (enter { s.native with callbacks := callbacks } js out).creditSlots := by
    show ((s.native.channelSlots + s.native.reactor.window.slots + s.native.buffered.length : ℕ) : ℤ) =
      _ + ((s.native.channelSlots + s.native.reactor.window.slots + _ : ℕ) : ℤ)
    rw [hbuffered, List.length_append]
    push_cast
    omega
  generalize enter { s.native with callbacks := callbacks } js out = n at hafter hcreditBytes hcreditSlots ⊢
  have hbytes := h.bytes
  have hslots := h.slots
  have hfilled := h.filled
  rw [hbefore, hcreditBytes] at hbytes
  rw [hbefore, hcreditSlots] at hslots
  change s.js.port.readBytes + 0 = _ at hbytes
  change s.js.port.readSlots + 0 = _ at hslots
  -- only what the event brings is added to what JavaScript holds
  obtain ⟨hheld, hb, hs⟩ : js.held = s.js.held ++ (Binding.Input.callback (event.callback allocate)).received ∧
      js.port.readBytes = s.js.port.readBytes ∧ js.port.readSlots = s.js.port.readSlots := by
    cases hread with
    | kept hpassed hcredits hheld hb hs => exact ⟨hheld, hb, hs⟩
    | credited bytes slots hc =>
      rw [hcalling] at hc
      cases hc
    | passed data hc hopen hno => exact absurd rfl (hno _)
    | dropped gone hc hclosed hno => exact absurd rfl (hno _)
  have hunopened : js.port.isOpen = false → js.port.closing = false →
      n.creditBytes = 0 ∧ n.creditSlots = 0 ∧ js.held = [] := by
    intro ho hc
    obtain ⟨ho', hc'⟩ := unopened_flagStep hflags ho hc
    obtain ⟨hb0, hs0, hnil⟩ := h.unopened ho' hc'
    have hchunks : event.chunks = [] := List.length_eq_zero_iff.1 (by omega)
    rw [hchunks, hb0] at hcreditBytes
    refine ⟨?_, by omega, ?_⟩
    · change (0 : ℤ) = 0 + _ at hcreditBytes
      omega
    · rw [hheld, hnil, List.nil_append]
      rcases callback_received allocate event with ⟨hrec, -⟩ | ⟨hrec, -⟩
      · exact hrec.trans hchunks
      · exact hrec
  rcases callback_received allocate event with ⟨hrec, hok⟩ | ⟨hrec, error, hfailed⟩
  · rw [hrec] at hheld
    have hfailure := hflags.failure fun error lost he => hok error lost (Binding.Input.callback.inj he)
    refine ⟨lost, hwf, hscheduled, ?_, ?_, ?_, hunopened, hs.le.trans hfilled⟩
    · rw [hafter, hheld, totalLength_append, hb]
      show s.js.port.readBytes + 0 = n.creditBytes + _ + _
      omega
    · rw [hafter, hheld, List.length_append, hs]
      push_cast
      show s.js.port.readSlots + 0 = n.creditSlots + _ + _
      omega
    · intro hshut hf
      exact h.lossless (fun hs => hshut (hs.flagStep hflags)) (hfailure.symm.trans hf)
  · rw [hrec, List.append_nil] at hheld
    refine ⟨lost ++ event.chunks, hwf, hscheduled, ?_, ?_, ?_, hunopened, hs.le.trans hfilled⟩
    · rw [hafter, hheld, totalLength_append, hb]
      show s.js.port.readBytes + 0 = n.creditBytes + _ + _
      omega
    · rw [hafter, hheld, List.length_append, hs]
      push_cast
      show s.js.port.readSlots + 0 = n.creditSlots + _ + _
      omega
    · intro hshut hf
      rw [hflags.failed error event.chunks (congrArg Binding.Input.callback hfailed)] at hf
      cases hf

end Funded

end NodeSerialport.Composition
