import NodeSerialport.Lib.Ledger
import NodeSerialport.Composition.Link
/-!
# Records and the operations on their way

The records of JavaScript are those of the operations on the native side, and of the answers in the callback queue.

* `System.records` — the records, with the one that JavaScript is about to make;
* `Tracked` — the records, `pending_ops` and the callback queue agree.
-/

namespace NodeSerialport.Composition

open Lib (Tracks)
open Binding (Client NativeCall NativeEvent Answer)
open Native (NativePort CallbackEvent Command)

namespace System

/-- An operation that was queued, while JavaScript does not have the answer. -/
def pushed (s : System) : List (ℕ × Bool) :=
  match s.native.call with
  | some (.returned .queued) => s.js.submitting.toList
  | _ => []

/-- How many of `pending_ops` the call has reserved for a command that is not in the channel. -/
def reserved (s : System) : ℕ :=
  match s.native.call with
  | some stage => stage.reserved
  | none => 0

/-- The operations JavaScript has a record of, or will have. -/
def records (s : System) : List (ℕ × Bool) := s.js.port.pending.map (fun r => (r.1, r.2.ordered)) ++ s.pushed

theorem pushed_eq {s : System} (h : ∀ stage, s.native.call = some stage → stage.pushed = false) : s.pushed = [] := by
  unfold pushed
  split
  · rename_i hcall
    cases h _ hcall
  · rfl

theorem reserved_eq {s : System} {stage : Native.Call} (h : s.native.call = some stage) : s.reserved = stage.reserved := by
  rw [reserved, h]

theorem idle_eq {s : System} (h : ∀ stage, s.native.call = some stage → ∃ call, stage = .check call) :
    s.pushed = [] ∧ s.reserved = 0 := by
  refine ⟨pushed_eq fun stage hstage => ?_, ?_⟩
  · obtain ⟨call, rfl⟩ := h stage hstage
    rfl
  · unfold reserved
    split
    · rename_i stage hstage
      obtain ⟨call, rfl⟩ := h stage hstage
      rfl
    · rfl

theorem records_fst (s : System) : s.records.map Prod.fst = s.js.port.ids ++ s.pushed.map Prod.fst := by
  rw [records, List.map_append, List.map_map]
  rfl

end System

theorem enter_check {n : NativePort} (hcall : n.call = none) (js : Client) (out : List Binding.Output) :
    ∀ stage, (enter n js out).call = some stage → ∃ call, stage = .check call := by
  intro stage hstage
  unfold enter at hstage
  dsimp only at hstage
  rw [hcall] at hstage
  split at hstage <;> cases hstage
  exact ⟨_, rfl⟩

variable {s s' : System}

theorem Attuned.records_nodup (h : Attuned s) : (s.records.map Prod.fst).Nodup := by
  rw [s.records_fst]
  refine List.nodup_append.2 ⟨h.counted.ids_nodup, ?_, ?_⟩
  · unfold System.pushed
    split
    · cases s.js.submitting with
      | none => exact List.nodup_nil
      | some submission => exact List.nodup_singleton _
    · exact List.nodup_nil
  · intro a ha b hb hab
    unfold System.pushed at hb
    split at hb
    · cases hsub : s.js.submitting with
      | none =>
        rw [hsub] at hb
        cases hb
      | some submission =>
        rw [hsub] at hb
        obtain rfl : b = submission.1 := List.mem_singleton.1 hb
        exact (h.counted.fresh _ _ hsub).1 (hab ▸ ha)
    · cases hb

theorem Attuned.records_length (h : Attuned s) : s.records.length ≤ 64 := by
  have hroom := h.counted.room
  have hpushed : s.pushed.length ≤ if s.js.submitting.isSome then 1 else 0 := by
    unfold System.pushed
    split
    · cases s.js.submitting <;> exact le_refl _
    · exact Nat.zero_le _
  rw [System.records, List.length_append, List.length_map]
  omega

/-- **The records, `pending_ops` and the callback queue agree.** -/
structure Tracked (s : System) : Prop where
  queue : Native.QueueFits s.native
  pendingOps : s.native.pendingOps = s.native.queued.length + s.reserved
  tracks : s.js.port.finished = false → Tracks s.records s.native.replies s.native.queued s.native.reading
  finished : s.js.port.finished = true → s.native.callbacks = [] ∧ s.native.reactor.pc.signals = 0

theorem finished_moves {n n' : NativePort} {out : List Native.Output} {finished : Bool}
    (hm : Native.Moves n n' out) (hfits : Native.Fits n)
    (h : finished = true → n.callbacks = [] ∧ n.reactor.pc.signals = 0) :
    finished = true → n'.callbacks = [] ∧ n'.reactor.pc.signals = 0 := by
  intro hf
  obtain ⟨hcallbacks, hsignals⟩ := h hf
  cases hm.queueFlow hfits with
  | same callbacks signals => exact ⟨callbacks.trans hcallbacks, Nat.le_zero.1 (hsignals ▸ signals)⟩
  | signalled event callbacks hsignal signals =>
    rw [hsignals] at signals
    cases signals
  | sent event callbacks hsignal hevent hpos =>
    rw [hsignals] at hpos
    cases hpos

namespace Tracked

theorem start (path : String) (nextId : ℕ) : Tracked (System.new path nextId) :=
  ⟨.start, rfl, fun _ => .nil, fun h => nomatch h⟩

theorem same (h : Tracked s) (hreactor : s'.native.reactor = s.native.reactor) (hchannel : s'.native.channel = s.native.channel)
    (hcallbacks : s'.native.callbacks = s.native.callbacks)
    (hpending : s'.native.pendingOps + s.reserved = s.native.pendingOps + s'.reserved) (hrecords : s'.records = s.records)
    (hfinished : s'.js.port.finished = s.js.port.finished) : Tracked s' := by
  have hqueued : s'.native.queued = s.native.queued := by
    rw [NativePort.queued, NativePort.queued, hreactor, hchannel]
  have hreading : s'.native.reading = s.native.reading := by
    rw [NativePort.reading, NativePort.reading, hreactor, hchannel]
  have hreplies : s'.native.replies = s.native.replies := by
    rw [NativePort.replies, NativePort.replies, NativePort.notifying, NativePort.notifying, hreactor, hcallbacks]
  have hops := h.pendingOps
  refine ⟨h.queue.same hreactor hcallbacks, ?_, ?_, ?_⟩
  · rw [hqueued]
    omega
  · rw [hfinished, hrecords, hreplies, hqueued, hreading]
    exact h.tracks
  · rw [hfinished, hcallbacks, hreactor]
    exact h.finished

/-- **A transition of the reactor.** -/
theorem moves (h : Tracked s) (ha : Attuned s) (hroom : s.native.Room) {n : NativePort} {out : List Native.Output}
    (hm : Native.Moves s.native n out) : Tracked ⟨s.js, n⟩ := by
  have hcall := hm.apart.call
  have hreserved : System.reserved ⟨s.js, n⟩ = s.reserved := by rw [System.reserved, System.reserved, hcall]
  have hrecords : System.records ⟨s.js, n⟩ = s.records := by
    rw [System.records, System.records, System.pushed, System.pushed, hcall]
  have hops := h.pendingOps
  have hfinished := finished_moves hm ha.fits h.finished
  cases hm.flow ha.fits hroom with
  | same replies queued reading pendingOps =>
    refine ⟨h.queue.moves hm ha.fits, ?_, ?_, hfinished⟩
    · rw [hreserved, pendingOps, queued]
      exact hops
    · rw [hrecords, replies, queued, reading]
      exact h.tracks
  | done id replies queued reading pendingOps =>
    refine ⟨h.queue.moves hm ha.fits, ?_, ?_, hfinished⟩
    · rw [queued, List.length_cons] at hops
      rw [hreserved, pendingOps]
      show _ = n.queued.length + _
      omega
    · intro hf
      have htracks := h.tracks hf
      rw [queued] at htracks
      rw [hrecords, replies, reading]
      exact htracks.done
  | replied id replies queued reading pendingOps =>
    refine ⟨h.queue.moves hm ha.fits, ?_, ?_, hfinished⟩
    · rw [hreserved, pendingOps, queued]
      exact hops
    · intro hf
      rw [hrecords, replies, queued]
      exact (h.tracks hf).replied ha.records_nodup reading

/-- **A command joins the channel.** -/
theorem push (h : Tracked s) (ha : Attuned s) {call : NativeCall} {site : Binding.Site} {c : Command}
    (hcalling : s.js.calling = some (call, site)) (hcall : s.native.call = some (.send c)) (hsub : Native.Submits call c) :
    Tracked ⟨s.js, s.native.enlist c (.returned .queued)⟩ := by
  have hbefore : s.pushed = [] := System.pushed_eq fun stage hstage => by
    rw [hcall] at hstage
    cases hstage
    rfl
  have hrecords : System.records ⟨s.js, s.native.enlist c (.returned .queued)⟩ = s.records ++ s.js.submitting.toList := by
    rw [System.records, System.records, hbefore, List.append_nil]
    rfl
  have hreserved : s.reserved = if c.ordered then 1 else 0 := System.reserved_eq hcall
  have hops := h.pendingOps
  rw [hreserved] at hops
  have hqueue : Native.QueueFits (s.native.enlist c (.returned .queued)) := h.queue.same rfl rfl
  have hordered : c.ordered?.toList.length = if c.ordered then 1 else 0 := by
    unfold Command.ordered?
    split <;> rfl
  refine ⟨hqueue, ?_, ?_, h.finished⟩
  · rw [Native.enlist_queued, List.length_append, hordered]
    exact hops
  · intro hf
    have htracks := h.tracks hf
    rw [hrecords, Native.enlist_queued, Native.enlist_reading]
    show Tracks _ s.native.replies _ _
    rcases ha.called.submitting hcalling with ⟨length, bytes, slots, rfl, rfl, -, hnone⟩ | ⟨hno, hsite, hsome⟩
    · -- a credit has no record
      obtain rfl : c = Native.command (.readCredit bytes slots) := hsub.resolve_right fun hw => nomatch hw.1
      rw [hnone]
      show Tracks (s.records ++ []) _ (_ ++ []) (_ ++ [])
      rw [List.append_nil, List.append_nil, List.append_nil]
      exact htracks
    · have hfresh : call.id ∉ s.records.map Prod.fst := by
        rw [s.records_fst, hbefore, List.map_nil, List.append_nil]
        exact (ha.counted.fresh _ _ hsome).1
      rw [hsome]
      cases hkind : Native.ordered call with
      | true =>
        have hid : c.ordered? = some call.id := by
          rw [Command.ordered?, hsub.ordered, hkind, if_pos rfl, hsub.id]
        have hread : c.read? = none := by
          have hc := hsub.ordered.trans hkind
          obtain ⟨id, operation⟩ := c
          cases operation with
          | read => cases hc
          | _ => rfl
        rw [hid, hread]
        show Tracks _ _ _ (_ ++ [])
        rw [List.append_nil]
        exact htracks.submit hfresh
      | false =>
        obtain rfl : c = Native.command call := by
          refine hsub.resolve_right fun hw => ?_
          rw [Native.ordered_of_mayComplete hw.1] at hkind
          cases hkind
        cases call with
        | read id length =>
          show Tracks _ _ (_ ++ []) _
          rw [List.append_nil]
          exact htracks.submit_other
        | readCredit bytes slots => exact absurd rfl (hno bytes slots)
        | write | writev | request => cases hkind

/-- **A step of a call.** -/
theorem call (h : Tracked s) (ha : Attuned s) {stage : Native.Call} {writer : Native.Io ℕ} {n : NativePort}
    {out : List Native.Output} (hcall : s.native.call = some stage)
    (hstep : s.native.stepCall stage writer = some (n, out)) : Tracked ⟨s.js, n⟩ := by
  obtain ⟨call, site, stage', hcalling, hcall', hstaged, hstaged', hcallStep⟩ := ha.callStep hcall hstep
  have hbefore : s.pushed = [] := System.pushed_eq fun st hst => by
    rw [hcall] at hst
    cases hst
    exact Native.stepCall_pushed hstep
  have hreserved : s.reserved = stage.reserved := System.reserved_eq hcall
  have hreserved' : System.reserved ⟨s.js, n⟩ = stage'.reserved := System.reserved_eq hcall'
  have hrecords : stage'.pushed = false → System.records ⟨s.js, n⟩ = s.records := by
    intro hno
    have hafter : System.pushed ⟨s.js, n⟩ = [] := System.pushed_eq fun st hst => by
      rw [hcall'] at hst
      cases hst
      exact hno
    rw [System.records, System.records, hbefore, hafter]
  cases hcallStep with
  | goes hrest hres hrefuses hrefuses' hpushed' =>
    refine h.same rfl rfl rfl ?_ (hrecords hpushed') rfl
    rw [hreserved, hreserved', hres]
  | wrote hstage hinline hcount hrest hstage' =>
    refine h.same rfl rfl rfl ?_ (hrecords ?_) rfl
    · rw [hreserved, hreserved', hstage]
      rcases hstage' with rfl | ⟨c, rfl⟩ <;> rfl
    · rcases hstage' with rfl | ⟨c, rfl⟩ <;> rfl
  | reserved hstage hordered =>
    refine h.same rfl rfl rfl ?_ (hrecords rfl) rfl
    rw [hreserved, hreserved', hstage, Native.Call.reserved, if_pos hordered]
    rfl
  | pushed hstage hsub =>
    rw [hstage] at hcall
    exact h.push ha hcalling hcall hsub
  | refused hrefused hrefuses hpending =>
    refine h.same rfl rfl rfl ?_ (hrecords ?_) rfl
    · rw [hreserved, hreserved']
      exact hpending
    · cases stage' with
      | returned answer =>
        cases answer with
        | queued => cases hrefuses
        | _ => rfl
      | _ => rfl
  | undone hstage =>
    have hops := h.pendingOps
    rw [hreserved, hstage] at hops
    refine h.same rfl rfl rfl ?_ (hrecords rfl) rfl
    rw [hreserved, hreserved', hstage]
    show s.native.pendingOps - 1 + 1 = s.native.pendingOps + 0
    change s.native.pendingOps = s.native.queued.length + 1 at hops
    omega

/-- **JavaScript goes on by itself.** -/
theorem js (h : Tracked s) (ha : Attuned s) {i : Binding.Input} {js : Client} {out : List Binding.Output}
    (hi : jsInput i = true) (hstep : Binding.client.step s.js i = some (js, out)) :
    Tracked ⟨js, enter s.native js out⟩ := by
  have hcalling := jsInput_calling hi hstep
  have hcall := ha.call.idle hcalling
  obtain ⟨hbefore, hreserved⟩ := System.idle_eq (s := s) fun stage hstage => by
    rw [hcall] at hstage
    cases hstage
  obtain ⟨hafter, hreserved'⟩ := System.idle_eq (s := ⟨js, enter s.native js out⟩) (enter_check hcall js out)
  have hsame : js.port.pending = s.js.port.pending ∧ js.port.finished = s.js.port.finished := by
    cases Client.step_requestStep hstep with
    | method hi' hcalling hsub => exact ⟨hsub.frame.pending, hsub.frame.finished⟩
    | dropped | queued | credited | event => cases hi
    | other hcalling hsame hout hi' ha' => exact ⟨hsame.pending, hsame.finished⟩
  refine h.same rfl rfl rfl ?_ ?_ hsame.2
  · rw [hreserved, hreserved']
    rfl
  · rw [System.records, System.records, hbefore, hafter]
    exact congrArg (fun pending => List.map _ pending ++ []) hsame.1

/-- **The native handle answers.** -/
theorem answer (h : Tracked s) {answer : Answer} {call : NativeCall} {site : Binding.Site} {js : Client}
    {out : List Binding.Output} (hcall : s.native.call = some (.returned answer))
    (hcalling : s.js.calling = some (call, site)) (hstep : Binding.client.step s.js (.answer answer) = some (js, out)) :
    Tracked ⟨js, enter { s.native with call := none } js out⟩ := by
  have hreserved : s.reserved = 0 := System.reserved_eq hcall
  obtain ⟨hafter, hreserved'⟩ := System.idle_eq (s := ⟨js, enter { s.native with call := none } js out⟩)
    (enter_check rfl js out)
  have hrecords : System.records ⟨js, enter { s.native with call := none } js out⟩ =
      js.port.pending.map fun r => (r.1, r.2.ordered) := by
    rw [System.records, hafter, List.append_nil]
  have hanswer : answer ≠ .queued → s.pushed = [] := fun hno => System.pushed_eq fun stage hstage => by
    rw [hcall] at hstage
    cases hstage
    cases answer with
    | queued => exact absurd rfl hno
    | _ => rfl
  have hsame : js.port.pending.map (fun r => (r.1, r.2.ordered)) = s.records ∧
      js.port.finished = s.js.port.finished := by
    cases Client.step_requestStep hstep with
    | method hi' hc hsub =>
      rw [hcalling] at hc
      cases hc
    | dropped hc hsite hno hmay hjs hout =>
      obtain ⟨-, hframe, -⟩ := Client.answered_dropped (c := s.js) _ hsite hno
      rw [hjs, hframe.pending, System.records, hanswer hno, List.append_nil]
      exact ⟨rfl, hframe.finished⟩
    | queued hc hsite hjs =>
      have hpushed : s.pushed = s.js.submitting.toList := by rw [System.pushed, hcall]
      rw [hjs.pending, System.records, hpushed, Client.submitting_some hc hsite]
      exact ⟨List.map_append, hjs.finished⟩
    | credited hc hnone hsame hout =>
      have hpushed : s.pushed = [] := by
        unfold System.pushed
        split
        · rw [Client.submitting_credit hc]
          rfl
        · rfl
      rw [hsame.pending, System.records, hpushed, List.append_nil]
      exact ⟨rfl, hsame.finished⟩
    | other hc hsame hout hi' ha' => exact absurd rfl (ha' _)
  refine h.same rfl rfl rfl ?_ ?_ hsame.2
  · rw [hreserved, hreserved']
    rfl
  · rw [hrecords]
    exact hsame.1

theorem callback_eqs {event : CallbackEvent} {callbacks : List CallbackEvent} (js : Client) (out : List Binding.Output)
    (hcallbacks : s.native.callbacks = event :: callbacks) :
    (enter { s.native with callbacks := callbacks } js out).queued = s.native.queued ∧
      (enter { s.native with callbacks := callbacks } js out).reading = s.native.reading ∧
      s.native.replies = event.reply?.toList ++ (enter { s.native with callbacks := callbacks } js out).replies := by
  refine ⟨rfl, rfl, ?_⟩
  show s.native.callbacks.filterMap CallbackEvent.reply? ++ s.native.notifying =
    event.reply?.toList ++ (callbacks.filterMap CallbackEvent.reply? ++ s.native.notifying)
  rw [hcallbacks]
  cases hreply : event.reply? <;> simp [hreply]

theorem callback_event {allocate : ℕ → Native.Allocation} {event : CallbackEvent} {nativeEvent : NativeEvent}
    (h : event.callback allocate = .event nativeEvent) : event = .event nativeEvent := by
  unfold CallbackEvent.callback at h
  cases event with
  | event nativeEvent' =>
    cases h
    rfl
  | inlineRead | read | readBatch =>
    dsimp only at h
    split at h <;> cases h

/-- **An event reaches JavaScript.** -/
theorem callback (h : Tracked s) (ha : Attuned s) {allocate : ℕ → Native.Allocation} {event : CallbackEvent}
    {callbacks : List CallbackEvent} {js : Client} {out : List Binding.Output}
    (hcallbacks : s.native.callbacks = event :: callbacks)
    (hstep : Binding.client.step s.js (.callback (event.callback allocate)) = some (js, out)) :
    Tracked ⟨js, enter { s.native with callbacks := callbacks } js out⟩ := by
  have hcalling := calling_none hstep (fun _ h => nomatch h)
  have hcall := ha.call.idle hcalling
  have hunfinished : s.js.port.finished = false := by
    by_contra hfinished
    have hnil := (h.finished (by simpa using hfinished)).1
    rw [hcallbacks] at hnil
    cases hnil
  have htracks := h.tracks hunfinished
  obtain ⟨hbefore, hreserved⟩ := System.idle_eq (s := s) fun stage hstage => by
    rw [hcall] at hstage
    cases hstage
  obtain ⟨hafter, hreserved'⟩ := System.idle_eq (s := ⟨js, enter { s.native with callbacks := callbacks } js out⟩)
    (enter_check hcall js out)
  obtain ⟨hqueued, hreading, hreplies⟩ := callback_eqs js out hcallbacks
  have hqueue : Native.QueueFits (enter { s.native with callbacks := callbacks } js out) :=
    h.queue.tail hcallbacks rfl rfl
  have hrecords : s.records = s.js.port.pending.map fun r => (r.1, r.2.ordered) := by
    rw [System.records, hbefore, List.append_nil]
  have hrecords' : System.records ⟨js, enter { s.native with callbacks := callbacks } js out⟩ =
      js.port.pending.map fun r => (r.1, r.2.ordered) := by
    rw [System.records, hafter, List.append_nil]
  have hops : (enter { s.native with callbacks := callbacks } js out).pendingOps =
      (enter { s.native with callbacks := callbacks } js out).queued.length +
        System.reserved ⟨js, enter { s.native with callbacks := callbacks } js out⟩ := by
    rw [hqueued, hreserved']
    have hold := h.pendingOps
    rw [hreserved] at hold
    exact hold
  -- an event that answers nothing leaves the records alone
  have hquiet : event.reply? = none → js.port.pending = s.js.port.pending → js.port.finished = s.js.port.finished →
      Tracked ⟨js, enter { s.native with callbacks := callbacks } js out⟩ := by
    intro hnone hpending hfinished
    refine ⟨hqueue, hops, fun _ => ?_, fun hf => ?_⟩
    · rw [hnone] at hreplies
      rw [hrecords', hpending, ← hrecords, hqueued, hreading, ← List.nil_append (NativePort.replies _)]
      rwa [hreplies] at htracks
    · rw [hfinished, hunfinished] at hf
      cases hf
  generalize hinput : Binding.Input.callback (event.callback allocate) = input at hstep
  cases Client.step_requestStep hstep with
  | method hi' hc hsub => rcases hi' with ⟨m, hm⟩ | ⟨index, hindex⟩ <;> rw [← hinput] at * <;> contradiction
  | dropped | queued | credited => cases hinput
  | other hc hsame hout hi' ha' =>
    have hnone : event.reply? = none := by
      cases event with
      | event nativeEvent => exact absurd hinput.symm (hi' nativeEvent)
      | _ => rfl
    exact hquiet hnone hsame.pending hsame.finished
  | event hidle hev hsame hout =>
    rename_i nativeEvent
    obtain rfl := callback_event (Binding.Input.callback.inj hinput)
    cases hev with
    | none hpending hordered hfinished hsettlements hclosed hfree =>
      by_cases hopened : nativeEvent.kind = .opened
      · exact hquiet (Native.signal_event (.inl hopened)).1 hpending hfinished
      · by_cases hkind : nativeEvent.kind = .closed
        · exact hquiet (Native.signal_event (.inr hkind)).1 hpending hfinished
        · -- its record would be missing
          exfalso
          rw [(Native.reply_event hopened hkind).1] at hreplies
          refine hfree hopened hkind ?_
          have hreplied : nativeEvent.id ∈ s.native.replies := by
            rw [hreplies]
            exact List.mem_cons_self
          have hmem := htracks.mem_records (List.mem_append_left _ (List.mem_append_left _ hreplied))
          rwa [s.records_fst, hbefore, List.map_nil, List.append_nil] at hmem
    | settled hsplit hpending hordered hfinished hsettlements hclosed hopened =>
      rename_i before after pending
      rw [(Native.reply_event hopened hclosed).1] at hreplies
      refine ⟨hqueue, hops, fun _ => ?_, fun hf => ?_⟩
      · have hnodup := ha.records_nodup
        rw [hrecords, hsplit, List.map_append, List.map_cons] at htracks hnodup
        rw [hreplies] at htracks
        rw [hrecords', hpending, List.map_append, hqueued, hreading]
        exact (htracks.settle hnodup).1
      · rw [hfinished, hunfinished] at hf
        cases hf
    | closed hpending hordered hfinished hsettlements hkind =>
      have hcloses : (CallbackEvent.event nativeEvent).closes = true := by
        show (nativeEvent.kind == .closed) = true
        rw [hkind]
        rfl
      obtain ⟨hpost, hsignals⟩ := h.queue.last [] _ callbacks hcallbacks hcloses
      refine ⟨hqueue, hops, fun hf => ?_, fun _ => ⟨hpost, hsignals⟩⟩
      rw [hfinished] at hf
      cases hf

end Tracked

end NodeSerialport.Composition
