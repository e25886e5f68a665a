import NodeSerialport.Composition.Queues
/-!
# The order of writes and control operations

What the device did, what it still has to do, and what the call in progress has to hand over, are the operations in the
order of their submission.

* `Live` — neither a stop was requested, nor has the reactor ended;
* `System.rest`, `progress` — the call in progress, by what is left of it and as a whole;
* `Ordered` — the invariant;
* `ordered_effects` — over every run.
-/

namespace NodeSerialport.Composition

open Lib (Machine)
open Parsers (Buffer)
open Binding (Client NativeCall NativeEvent Answer)
open Native (NativePort CallbackEvent Command Atom atoms command log)

variable {s s' : System} {outputs out : List Output}

/-- The port is open for work: no stop was requested, its reactor receives, and events reach JavaScript. -/
structure Live (n : NativePort) : Prop where
  stop : n.stop = false
  receiving : n.receiving = true
  teardown : n.teardown = false

theorem step_live (ha : Attuned s) {i : Input} (hstep : system.step s i = some (s', out)) (h : Live s'.native) :
    Live s.native := by
  have hteardown := step_teardown ha hstep h.teardown
  cases system_step hstep with
  | js hi hjs => exact ⟨(Bool.or_eq_false_iff.1 h.stop).1, h.receiving, hteardown⟩
  | native hi hn =>
    cases native_nativeStep ha.fits hi hn with
    | reactor hm =>
      have hapart := hm.apart
      refine ⟨?_, hapart.receiving h.receiving, hteardown⟩
      by_contra hno
      have hstopped := hapart.stop (by simpa using hno)
      exact Bool.noConfusion (hstopped.symm.trans h.stop)
    | call hcall hstepCall =>
      obtain ⟨hsame, -, -, hstop, -⟩ := Native.stepCall_sameReactor hstepCall
      exact ⟨hstop.symm.trans h.stop, hsame.receiving.symm.trans h.receiving, hteardown⟩
    | stop => exact absurd h.stop nofun
    | teardown => exact absurd h.teardown nofun
  | answer hcall hcalling hjs => exact ⟨(Bool.or_eq_false_iff.1 h.stop).1, h.receiving, hteardown⟩
  | callback hcallbacks hjs => exact ⟨(Bool.or_eq_false_iff.1 h.stop).1, h.receiving, hteardown⟩

/-- What the call in progress still has to hand over. -/
def System.rest (s : System) : List Atom :=
  match s.native.call with
  | some stage => stage.rest
  | none => []

/-- The call in progress, unless it is refused. -/
def System.progress (s : System) : List NativeCall :=
  match s.native.call, s.js.calling with
  | some stage, some (call, _) => if stage.refuses then [] else [call]
  | _, _ => []

/-- What some calls ask of the device. -/
def effects (calls : List NativeCall) : List Atom := calls.flatMap fun call => atoms (command call)

theorem effects_append (a b : List NativeCall) : effects (a ++ b) = effects a ++ effects b := List.flatMap_append

theorem effects_singleton (call : NativeCall) : effects [call] = atoms (command call) := List.append_nil _

/-- The ids of the ordered ones of some calls. -/
def orderedIds (calls : List NativeCall) : List ℕ := (calls.filter Native.ordered).map NativeCall.id

theorem orderedIds_append (a b : List NativeCall) : orderedIds (a ++ b) = orderedIds a ++ orderedIds b := by
  rw [orderedIds, List.filter_append, List.map_append]
  rfl

/-- The ids of the ordered records. -/
def recordIds (c : Client) : List ℕ := (c.port.pending.filter fun r => r.2.ordered).map Prod.fst

theorem operation_inline {op : Binding.Operation} {id : ℕ} {inline : Bool}
    (h : Native.inline (op.call id inline) = true) : inline = true := by
  cases op with
  | write | writev => exact h
  | _ => cases h

/-- **The device does what was submitted, in order, and JavaScript observes it in order.** -/
structure Ordered (outputs : List Output) (s : System) : Prop where
  device : log (natives outputs) ++ s.native.owed ++ s.rest = effects (accepted outputs) ++ effects s.progress
  completions : completed outputs ++ recordIds s.js = orderedIds (accepted outputs)
  trying : ∀ id data, s.native.call = some (.tryWrite id data) → s.native.pendingOps = 0

namespace Ordered

theorem start (path : String) (nextId : ℕ) : Ordered [] (System.new path nextId) := ⟨rfl, rfl, nofun⟩

theorem enter_device {n : NativePort} (hcall : n.call = none) (js : Client) (out : List Binding.Output) :
    System.rest ⟨js, enter n js out⟩ = effects (System.progress ⟨js, enter n js out⟩) := by
  unfold System.rest System.progress enter
  dsimp only
  rw [hcall]
  cases js.calling with
  | none => rfl
  | some calling => exact (effects_singleton calling.1).symm

theorem idle_device (h : Ordered outputs s) (hcall : s.native.call = none) :
    log (natives outputs) ++ s.native.owed = effects (accepted outputs) := by
  have hdevice := h.device
  unfold System.rest System.progress at hdevice
  rw [hcall] at hdevice
  simpa [effects] using hdevice

/-- **A transition of the reactor.** -/
theorem moves (h : Ordered outputs s) (hl : Linked s) (hroom : s.native.Room) {n : NativePort}
    {out : List Native.Output} (hm : Native.Moves s.native n out) :
    Ordered (outputs ++ out.map .native) ⟨s.js, n⟩ := by
  have hcall := hm.apart.call
  have howed := hm.owed hl.attuned.fits hroom
  have hrest : System.rest ⟨s.js, n⟩ = s.rest := by rw [System.rest, System.rest, hcall]
  have hprogress : System.progress ⟨s.js, n⟩ = s.progress := by rw [System.progress, System.progress, hcall]
  refine ⟨?_, ?_, ?_⟩
  · rw [natives_append, natives_native, accepted_append, accepted_native, hrest, hprogress, Native.log_append,
      List.append_nil, List.append_assoc (log _), howed]
    exact h.device
  · rw [completed_append, accepted_append, completed_native, accepted_native, List.append_nil, List.append_nil]
    exact h.completions
  · intro id data htry
    have hold := h.trying id data (hcall.symm.trans htry)
    show n.pendingOps = 0
    cases hm.flow hl.attuned.fits hroom with
    | same replies queued reading pendingOps => exact pendingOps.trans hold
    | done i replies queued reading pendingOps => rw [pendingOps, hold]
    | replied i replies queued reading pendingOps => exact pendingOps.trans hold

theorem owed_nil {n : NativePort} (h : n.queued = []) : n.owed = [] := by
  unfold NativePort.queued at h
  obtain ⟨hcommands, hchannel⟩ := List.append_eq_nil_iff.1 h
  have hnone : n.reactor.commands = [] := List.map_eq_nil_iff.1 hcommands
  have hatoms : n.channel.flatMap atoms = [] := by
    rw [List.flatMap_eq_nil_iff]
    intro c hc
    refine Native.atoms_unordered ?_
    have hno := List.filterMap_eq_nil_iff.1 hchannel c hc
    unfold Command.ordered? at hno
    split at hno
    · cases hno
    · rename_i hordered
      simpa using hordered
  unfold NativePort.owed NativePort.owing
  rw [hatoms, hnone]
  split <;> simp

/-- **A step of a call.** -/
theorem call (h : Ordered outputs s) (hl : Linked s) (hb : Bounded s) {stage : Native.Call} {writer : Native.Io ℕ}
    {n : NativePort} {out : List Native.Output} (hcall : s.native.call = some stage)
    (hstep : s.native.stepCall stage writer = some (n, out)) (hlive : Live n) :
    Ordered (outputs ++ out.map .native) ⟨s.js, n⟩ := by
  obtain ⟨call, site, stage', hcalling, hcall', hstaged, hstaged', hcallStep⟩ := hl.attuned.callStep hcall hstep
  obtain ⟨hsame, -, -, hstop, -⟩ := Native.stepCall_sameReactor hstep
  have hlive' : s.native.stop = false ∧ s.native.receiving = true :=
    ⟨hstop.symm.trans hlive.stop, hsame.receiving.symm.trans hlive.receiving⟩
  have hrest : s.rest = stage.rest := by rw [System.rest, hcall]
  have hrest' : System.rest ⟨s.js, n⟩ = stage'.rest := by rw [System.rest, hcall']
  have hprogress : s.progress = if stage.refuses then [] else [call] := by
    unfold System.progress
    rw [hcall, hcalling]
  have hprogress' : System.progress ⟨s.js, n⟩ = if stage'.refuses then [] else [call] := by
    unfold System.progress
    rw [hcall', hcalling]
  have hdevice := h.device
  rw [hrest, hprogress] at hdevice
  refine ⟨?_, ?_, fun id data htry => Native.stepCall_tryWrite hstep htry⟩
  · rw [natives_append, natives_native, accepted_append, accepted_native, List.append_nil, Native.log_append, hrest',
      hprogress']
    cases hcallStep with
    | goes hrest'' hres hrefuses hrefuses' =>
      rw [hrefuses] at hdevice
      rw [hrest'', hrefuses', show log [] = [] from rfl, List.append_nil]
      exact hdevice
    | wrote hstage hinline hcount hrest'' hstage' =>
      rename_i count
      have hops := hl.tracked.pendingOps
      rw [h.trying _ _ (hstage ▸ hcall)] at hops
      have howed : s.native.owed = [] := owed_nil (List.length_eq_zero_iff.1 (by omega))
      have hrefuses : stage'.refuses = false := by rcases hstage' with rfl | ⟨c, rfl⟩ <;> rfl
      have hbytes : Native.bytes ((Native.payload call).take count) ++ Native.bytes ((Native.payload call).drop count) =
          Native.bytes (Native.payload call) := by
        rw [← Native.bytes_append, List.take_append_drop]
      rw [hstage, howed, List.append_nil] at hdevice
      rw [hrest'', hrefuses]
      show log (natives outputs) ++ (Native.bytes ((Native.payload call).take count) ++ []) ++ s.native.owed ++ _ = _
      rw [howed, List.append_nil, List.append_nil, List.append_assoc, hbytes]
      exact hdevice
    | reserved hstage hordered =>
      rw [hstage] at hdevice
      exact (congrArg (· ++ _ ++ _) (List.append_nil _)).trans hdevice
    | pushed hstage hsub =>
      rename_i c
      rw [hstage] at hdevice
      have howed : (s.native.enlist c (.returned .queued)).owed = s.native.owed ++ atoms c := by
        show s.native.owing ++ (s.native.channel ++ [c]).flatMap atoms = _
        rw [List.flatMap_append, ← List.append_assoc, List.flatMap_singleton]
        rfl
      show log (natives outputs) ++ [] ++ (s.native.enlist c (.returned .queued)).owed ++ [] = _
      rw [howed, List.append_nil, List.append_nil, ← List.append_assoc]
      exact hdevice
    | refused hrefused hrefuses hpending =>
      -- only the checks of its arguments refuse it
      have hrest'' : stage'.rest = [] := by
        cases stage' with
        | undo | returned => rfl
        | _ => cases hrefuses
      have hcheck : stage = .check call := by
        by_contra hno
        have hchecked : ∀ call', stage ≠ .check call' := by
          rintro call' rfl
          cases hstaged with
          | check => exact hno rfl
        obtain ⟨stage'', hcall'', hproceeds⟩ := hb.proceeds hl hcall hchecked hlive'.1 hlive'.2 hstep
        rw [hcall'] at hcall''
        cases hcall''
        rw [hrefuses] at hproceeds
        cases hproceeds
      rw [hcheck] at hdevice
      rw [hrest'', hrefuses]
      show log (natives outputs) ++ [] ++ s.native.owed ++ [] = effects (accepted outputs) ++ []
      rw [List.append_nil, List.append_nil, List.append_nil]
      change _ ++ atoms (command call) = _ ++ effects [call] at hdevice
      rw [effects_singleton] at hdevice
      exact List.append_cancel_right hdevice
    | undone hstage =>
      rw [hstage] at hcall
      have hclosed := hb.undo _ hcall
      rw [hlive'.2] at hclosed
      cases hclosed
  · rw [completed_append, accepted_append, completed_native, accepted_native, List.append_nil, List.append_nil]
    exact h.completions

theorem enter {n : NativePort} {js : Client} {jsOut : List Binding.Output} {f : List Output}
    (hcall : n.call = none) (hreactor : n.reactor = s.native.reactor) (hchannel : n.channel = s.native.channel)
    (hnatives : natives f = [])
    (hdevice : log (natives outputs) ++ s.native.owed = effects (accepted (outputs ++ f)))
    (hcompletions : completed (outputs ++ f) ++ recordIds js = orderedIds (accepted (outputs ++ f))) :
    Ordered (outputs ++ (f ++ jsOut.map .js)) ⟨js, Composition.enter n js jsOut⟩ := by
  have howed : (Composition.enter n js jsOut).owed = s.native.owed := by
    show n.owing ++ n.channel.flatMap atoms = s.native.owing ++ s.native.channel.flatMap atoms
    rw [NativePort.owing, NativePort.owing, hreactor, hchannel]
  rw [← List.append_assoc]
  refine ⟨?_, ?_, ?_⟩
  · rw [natives_append, natives_append, natives_js, hnatives, accepted_append, accepted_js, List.append_nil,
      List.append_nil, List.append_nil, enter_device hcall, ← hdevice]
    show _ ++ (Composition.enter n js jsOut).owed ++ _ = _
    rw [howed]
  · rw [completed_append, completed_js, accepted_append _ (jsOut.map _), accepted_js, List.append_nil, List.append_nil]
    exact hcompletions
  · intro id data htry
    obtain ⟨call, hcheck⟩ := enter_check hcall js jsOut _ htry
    cases hcheck

/-- **JavaScript goes on by itself.** -/
theorem js (h : Ordered outputs s) (hl : Linked s) {i : Binding.Input} {js : Client} {jsOut : List Binding.Output}
    (hi : jsInput i = true) (hstep : Binding.client.step s.js i = some (js, jsOut)) :
    Ordered (outputs ++ jsOut.map .js) ⟨js, Composition.enter s.native js jsOut⟩ := by
  have hcall := hl.attuned.call.idle (jsInput_calling hi hstep)
  have hpending : js.port.pending = s.js.port.pending := by
    cases Client.step_requestStep hstep with
    | method hi' hc hsub => exact hsub.frame.pending
    | dropped | queued | credited | event => cases hi
    | other hc hsame => exact hsame.pending
  refine enter (s := s) (f := []) hcall rfl rfl rfl ?_ ?_
  · rw [List.append_nil]
    exact h.idle_device hcall
  · rw [List.append_nil, recordIds, hpending]
    exact h.completions

theorem completions_quiet (s : System) (event : CallbackEvent) :
    natives (s.completions event) = [] ∧ accepted (s.completions event) = [] := by
  unfold System.completions
  split
  · split
    · exact ⟨rfl, rfl⟩
    · exact ⟨rfl, rfl⟩
    · split <;> exact ⟨rfl, rfl⟩
  · exact ⟨rfl, rfl⟩

theorem completions_event {event : NativeEvent} (hopened : event.kind ≠ .opened) (hclosed : event.kind ≠ .closed) :
    s.completions (.event event) = match s.js.port.pending.lookup event.id with
      | some ⟨_, true⟩ => [.completed event.id]
      | _ => [] := by
  unfold System.completions
  cases hkind : event.kind with
  | opened => exact absurd hkind hopened
  | closed => exact absurd hkind hclosed
  | _ => simp only [hkind]; try rfl

/-- What an event does to the ordered records. -/
theorem callback_records (hl : Linked s) {allocate : ℕ → Native.Allocation} {event : CallbackEvent}
    {callbacks : List CallbackEvent} {js : Client} {jsOut : List Binding.Output}
    (hcallbacks : s.native.callbacks = event :: callbacks)
    (hstep : Binding.client.step s.js (.callback (event.callback allocate)) = some (js, jsOut))
    (hfinished : js.port.finished = false) : completed (s.completions event) ++ recordIds js = recordIds s.js := by
  have hquiet : s.completions event = [] → js.port.pending = s.js.port.pending →
      completed (s.completions event) ++ recordIds js = recordIds s.js := by
    intro hnone hpending
    rw [hnone, recordIds, recordIds, hpending]
    rfl
  have hcall := hl.attuned.call.idle (calling_none hstep (fun _ h => nomatch h))
  generalize hinput : Binding.Input.callback (event.callback allocate) = input at hstep
  cases Client.step_requestStep hstep with
  | method hi' hc hsub => rcases hi' with ⟨m, hm⟩ | ⟨index, hindex⟩ <;> rw [← hinput] at * <;> contradiction
  | dropped | queued | credited => cases hinput
  | other hc hsame hout hi' ha' =>
    refine hquiet ?_ hsame.pending
    cases event with
    | event nativeEvent => exact absurd hinput.symm (hi' nativeEvent)
    | _ => rfl
  | event hidle hev hsame hout =>
    rename_i nativeEvent
    obtain rfl := Tracked.callback_event (Binding.Input.callback.inj hinput)
    cases hev with
    | none hpending hordered hfinished' hsettlements hclosed hfree =>
      refine hquiet ?_ hpending
      by_cases hopened : nativeEvent.kind = .opened
      · simp [System.completions, hopened]
      · by_cases hkind : nativeEvent.kind = .closed
        · simp [System.completions, hkind]
        · have hnone : s.js.port.pending.lookup nativeEvent.id = none := by
            rw [List.lookup_eq_none_iff]
            intro record hrecord
            rw [bne_iff_ne]
            intro heq
            exact hfree hopened hkind (List.mem_map.2 ⟨record, hrecord, heq.symm⟩)
          rw [completions_event hopened hkind, hnone]
    | settled hsplit hpending hordered hfinished' hsettlements hclosed hopened =>
      rename_i before after pending
      have hnodup := hl.attuned.records_nodup
      obtain ⟨hpushed, -⟩ := System.idle_eq (s := s) fun stage hstage => by
        rw [hcall] at hstage
        cases hstage
      have hrecords : s.records = before.map (fun r => (r.1, r.2.ordered)) ++
          (nativeEvent.id, pending.ordered) :: after.map (fun r => (r.1, r.2.ordered)) := by
        rw [System.records, hpushed, List.append_nil, hsplit, List.map_append, List.map_cons]
      have htracks := hl.tracked.tracks (hfinished'.symm.trans hfinished)
      have hreplies := (Tracked.callback_eqs js jsOut hcallbacks).2.2
      rw [(Native.reply_event hopened hclosed).1] at hreplies
      rw [hrecords] at htracks hnodup
      rw [hreplies] at htracks
      have hbefore : pending.ordered = true → before.filter (fun r => r.2.ordered) = [] := by
        intro ho
        have hnone := (htracks.settle hnodup).2 ho
        rw [List.filter_map, List.map_eq_nil_iff] at hnone
        exact hnone
      have hlookup : s.js.port.pending.lookup nativeEvent.id = some pending := by
        rw [List.lookup_eq_some_iff]
        refine ⟨before, after, hsplit, fun record hrecord => ?_⟩
        rw [bne_iff_ne]
        intro heq
        rw [List.map_append, List.map_map] at hnodup
        refine (List.nodup_append.1 hnodup).2.2 record.1 (List.mem_map.2 ⟨record, hrecord, rfl⟩) _ ?_ heq.symm
        exact List.mem_cons_self
      rw [completions_event hopened hclosed, hlookup, recordIds, recordIds, hpending, hsplit, List.filter_append,
        List.filter_append]
      obtain ⟨promise, ordered⟩ := pending
      cases ordered with
      | false =>
        rw [List.filter_cons_of_neg (by simp)]
        rfl
      | true =>
        rw [hbefore rfl, List.filter_cons_of_pos rfl]
        rfl
    | closed hpending hordered hfinished' hsettlements hkind =>
      rw [hfinished'] at hfinished
      cases hfinished

/-- What an answer does to the ordered records. -/
theorem answer_records (hl : Linked s) {answer : Answer} {call : NativeCall} {site : Binding.Site} {js : Client}
    {jsOut : List Binding.Output} (hcall : s.native.call = some (.returned answer))
    (hcalling : s.js.calling = some (call, site)) (hstep : Binding.client.step s.js (.answer answer) = some (js, jsOut)) :
    completed [.answered call answer] ++ recordIds js = recordIds s.js ++ orderedIds (accepted [.answered call answer]) := by
  obtain ⟨call', site', hcalling', hstaged⟩ := hl.attuned.staged hcall
  rw [hcalling] at hcalling'
  cases hcalling'
  cases Client.step_requestStep hstep with
  | method hi' hc hsub =>
    rw [hcalling] at hc
    cases hc
  | dropped hc hsite hno hmay hjs hout =>
    obtain ⟨-, hframe, -⟩ := Client.answered_dropped (c := s.js) _ hsite hno
    have hrecords : recordIds js = recordIds s.js := by rw [hjs, recordIds, recordIds, hframe.pending]
    rw [hrecords]
    cases answer with
    | queued => exact absurd rfl hno
    | thrown error => exact (List.append_nil _).symm
    | completed =>
      -- a write is done at once only where it is the only ordered operation
      cases hstaged with
      | completed hmayComplete hinline =>
        have hordered := Native.ordered_of_mayComplete hmayComplete
        have hone : s.js.port.ordered = 1 := by
          rcases hl.attuned.called call site hcalling with ⟨length, bytes, slots, rfl, -⟩ | ⟨op, id, rfl, -⟩
          · cases hordered
          · exact beq_iff_eq.1 (operation_inline hinline)
        have hcount := hl.attuned.counted.ordered
        obtain ⟨length, bytes, slots, rfl, -⟩ | ⟨-, -, hsome⟩ := hl.attuned.called.submitting hcalling
        · cases hordered
        · rw [hsome, hordered, hone] at hcount
          have hzero : s.js.port.orderedRecords = 0 := by
            have h : (1 : ℤ) = s.js.port.orderedRecords + 1 := hcount
            omega
          have hnone : recordIds s.js = [] := by
            rw [recordIds, List.map_eq_nil_iff, ← List.length_eq_zero_iff, ← List.countP_eq_length_filter]
            exact hzero
          have hids : orderedIds [call] = [call.id] := by simp [orderedIds, hordered]
          rw [hnone]
          exact hids.symm
  | queued hc hsite hjs =>
    rename_i call'' site''
    rw [hcalling] at hc
    cases hc
    have hpending : js.port.pending = s.js.port.pending ++ [(call.id, ⟨s.js.promises, site.ordered⟩)] := hjs.pending
    have hordered : site.ordered = Native.ordered call := by
      rcases hl.attuned.called call site hcalling with ⟨length, bytes, slots, -, rfl, -⟩ | ⟨op, id, rfl, hsite', -⟩
      · exact absurd rfl (hsite bytes slots)
      · rw [hsite', operation_ordered]
    show [] ++ recordIds js = recordIds s.js ++ orderedIds [call]
    rw [List.nil_append, recordIds, recordIds, hpending, List.filter_append, List.map_append, orderedIds, hordered]
    cases h : Native.ordered call <;> simp [h]
  | credited hc hnone hsame hout =>
    rename_i call'' bytes slots
    rw [hcalling] at hc
    cases hc
    obtain ⟨length, bytes', slots', rfl, -⟩ | ⟨-, hno, -⟩ := hl.attuned.called.submitting hcalling
    · cases hstaged with
      | completed hmay => cases hmay
      | queued | thrown =>
        show [] ++ recordIds js = recordIds s.js ++ []
        rw [List.nil_append, List.append_nil, recordIds, recordIds, hsame.pending]
    · exact absurd rfl (hno bytes slots)
  | other hc hsame hout hi' ha' => exact absurd rfl (ha' _)

/-- **The native handle answers.** -/
theorem answer (h : Ordered outputs s) (hl : Linked s) {answer : Answer} {call : NativeCall} {site : Binding.Site}
    {js : Client} {jsOut : List Binding.Output} (hcall : s.native.call = some (.returned answer))
    (hcalling : s.js.calling = some (call, site)) (hstep : Binding.client.step s.js (.answer answer) = some (js, jsOut)) :
    Ordered (outputs ++ .answered call answer :: jsOut.map .js)
      ⟨js, Composition.enter { s.native with call := none } js jsOut⟩ := by
  have hprogress : s.progress = accepted [.answered call answer] := by
    unfold System.progress
    rw [hcall, hcalling]
    cases answer <;> rfl
  have hdevice := h.device
  rw [System.rest, hcall, hprogress] at hdevice
  refine enter (s := s) (f := [.answered call answer]) rfl rfl rfl rfl ?_ ?_
  · rw [accepted_append, effects_append, ← hdevice]
    exact (List.append_nil _).symm
  · rw [completed_append, accepted_append, orderedIds_append, List.append_assoc, answer_records hl hcall hcalling hstep,
      ← List.append_assoc, h.completions]

/-- **An event reaches JavaScript.** -/
theorem callback (h : Ordered outputs s) (hl : Linked s) {allocate : ℕ → Native.Allocation} {event : CallbackEvent}
    {callbacks : List CallbackEvent} {js : Client} {jsOut : List Binding.Output}
    (hcallbacks : s.native.callbacks = event :: callbacks)
    (hstep : Binding.client.step s.js (.callback (event.callback allocate)) = some (js, jsOut))
    (hfinished : js.port.finished = false) :
    Ordered (outputs ++ (s.completions event ++ jsOut.map .js))
      ⟨js, Composition.enter { s.native with callbacks := callbacks } js jsOut⟩ := by
  have hcall := hl.attuned.call.idle (calling_none hstep (fun _ h => nomatch h))
  obtain ⟨hnatives, haccepted⟩ := completions_quiet s event
  refine enter (s := s) hcall rfl rfl hnatives ?_ ?_
  · rw [accepted_append, haccepted, List.append_nil]
    exact h.idle_device hcall
  · rw [completed_append, accepted_append, haccepted, List.append_nil, List.append_assoc,
      callback_records hl hcallbacks hstep hfinished, h.completions]

/-- **Every step keeps the order**, as long as the port is open for work. -/
theorem step (h : Ordered outputs s) (hl : Linked s) (hb : Bounded s) {i : Input}
    (hstep : system.step s i = some (s', out)) (hb' : Bounded s') (hlive : Live s'.native) :
    Ordered (outputs ++ out) s' := by
  have hlive₀ := step_live hl.attuned hstep hlive
  cases system_step hstep with
  | js hi hjs => exact h.js hl hi hjs
  | native hi hn =>
    cases native_nativeStep hl.attuned.fits hi hn with
    | reactor hm => exact h.moves hl (hl.room hlive₀.teardown) hm
    | call hcall hstepCall => exact h.call hl hb hcall hstepCall hlive
    | stop => exact absurd hlive.stop nofun
    | teardown => exact absurd hlive.teardown nofun
  | answer hcall hcalling hjs => exact h.answer hl hcall hcalling hjs
  | callback hcallbacks hjs =>
    rename_i allocate event callbacks js jsOut
    refine h.callback hl hcallbacks hjs ?_
    by_contra hfinished
    have hstop := (hb'.closed (by simpa using hfinished)).1
    exact Bool.noConfusion (hstop.symm.trans hlive.stop)

/-- **Every reachable state** of a port that is open for work. -/
theorem run {path : String} {nextId : ℕ} (hnextId : Binding.BindingPort.InRange nextId) {inputs : List Input}
    (hrun : system.run (System.new path nextId) inputs = some (s, outputs)) (hlive : Live s.native) :
    Ordered outputs s := by
  have hP := Machine.run_rule_all (fun _ outputs (s : System) => Attuned s ∧ (Live s.native →
    Linked s ∧ Bounded s ∧ Ordered outputs s)) ?_ ?_ hrun
  · exact (hP.2 hlive).2.2
  · exact ⟨.start path hnextId, fun _ => ⟨.start path hnextId, .start path nextId, .start path nextId⟩⟩
  · rintro inputs outputs s i s' out ⟨hattuned, h⟩ hstep
    refine ⟨hattuned.step hstep, fun hlive' => ?_⟩
    have hlive := step_live hattuned hstep hlive'
    obtain ⟨hlinked, hbounded, hordered⟩ := h hlive
    have hlinked' := hlinked.step hlive.teardown hstep
    have hbounded' := hbounded.step hlinked hstep hlinked'
    exact ⟨hlinked', hbounded', hordered.step hlinked hbounded hstep hbounded' hlive'⟩

end Ordered

/-! ### What the device and JavaScript see -/

/-- The bytes among what the device did. -/
def byte? : Atom → Option UInt8
  | .byte byte => some byte
  | .control _ => none

theorem byte_bytes (data : Buffer) : (Native.bytes data).filterMap byte? = data := by
  have hcomp : byte? ∘ Atom.byte = some := rfl
  rw [Native.bytes, List.filterMap_map, hcomp, List.filterMap_some]

theorem effects_bytes (calls : List NativeCall) :
    (effects calls).filterMap byte? = calls.flatMap Native.payload := by
  induction calls with
  | nil => rfl
  | cons call calls ih =>
    have hcall : (atoms (command call)).filterMap byte? = Native.payload call := by
      cases call with
      | write | writev => exact byte_bytes _
      | read | readCredit => rfl
      | request id operation value => cases operation <;> rfl
    show (atoms (command call) ++ effects calls).filterMap _ = _
    rw [List.filterMap_append, hcall, ih, List.flatMap_cons]

/-- A control operation among the effects of some calls is that of one of them, after the effects of those before. -/
theorem effects_control {calls : List NativeCall} {pre post : List Atom} {c : Command}
    (h : effects calls = pre ++ .control c :: post) :
    ∃ before call after, calls = before ++ call :: after ∧ command call = c ∧ effects before = pre := by
  induction calls generalizing pre with
  | nil => cases pre <;> cases h
  | cons call calls ih =>
    change atoms (command call) ++ effects calls = _ at h
    have hlater : ∀ pre', effects calls = pre' ++ .control c :: post → pre = atoms (command call) ++ pre' →
        ∃ before call' after, call :: calls = before ++ call' :: after ∧ command call' = c ∧ effects before = pre := by
      rintro pre' hrest rfl
      obtain ⟨before, call', after, rfl, hcommand, rfl⟩ := ih hrest
      exact ⟨call :: before, call', after, rfl, hcommand, rfl⟩
    rcases List.append_eq_append_iff.1 h with ⟨pre', hpre, hrest⟩ | ⟨rest, hatoms, hrest⟩
    · exact hlater pre' hrest hpre
    · cases rest with
      | nil =>
        rw [List.append_nil] at hatoms
        exact hlater [] hrest.symm (by rw [List.append_nil, hatoms])
      | cons atom rest =>
        rw [List.cons_append, List.cons.injEq] at hrest
        obtain ⟨rfl, -⟩ := hrest
        -- the call itself is the control operation
        have hmem : Atom.control c ∈ atoms (command call) := by
          rw [hatoms]
          exact List.mem_append_right _ List.mem_cons_self
        obtain ⟨hcommand, hsingle⟩ := Native.mem_atoms_control hmem
        rw [hsingle] at hatoms
        cases pre with
        | nil => exact ⟨[], call, calls, rfl, hcommand, rfl⟩
        | cons atom' pre =>
          have hlength := congrArg List.length hatoms
          simp at hlength

/-- **Ordered operations take effect in submission order.**  Over every run of the composition, while the port is open
for work, for what was submitted, the calls the native handle took and the one in progress:

* the bytes the device accepted are a prefix of the payloads that were submitted, in the order of submission;
* a control operation was executed after the device accepted every byte of the calls before, and before any of a later
  call;
* JavaScript observed the completions in the order of submission. -/
theorem ordered_effects (path : String) (nextId : ℕ) (hnextId : Binding.BindingPort.InRange nextId)
    (inputs : List Input) (s : System) (outputs : List Output)
    (hrun : system.run (System.new path nextId) inputs = some (s, outputs)) (hlive : Live s.native) :
    (log (natives outputs)).filterMap byte? <+: (accepted outputs ++ s.progress).flatMap Native.payload ∧
    (∀ pre c post, log (natives outputs) = pre ++ .control c :: post → ∃ before call after,
      accepted outputs ++ s.progress = before ++ call :: after ∧ command call = c ∧
        pre.filterMap byte? = before.flatMap Native.payload ∧ effects before = pre) ∧
    completed outputs <+: orderedIds (accepted outputs) := by
  have h := Ordered.run hnextId hrun hlive
  have hprefix : log (natives outputs) <+: effects (accepted outputs ++ s.progress) := by
    rw [effects_append, ← h.device, List.append_assoc]
    exact List.prefix_append _ _
  refine ⟨?_, ?_, ⟨_, h.completions⟩⟩
  · rw [← effects_bytes]
    exact hprefix.filterMap _
  · rintro pre c post hlog
    obtain ⟨rest, hrest⟩ := hprefix
    rw [hlog, List.append_assoc, List.cons_append] at hrest
    obtain ⟨before, call, after, hcalls, hcommand, rfl⟩ := effects_control hrest.symm
    exact ⟨before, call, after, hcalls, hcommand, effects_bytes before, rfl⟩

/-- A write of three bytes, of which the device takes one at once and two from the queue, and a flush behind it. -/
def writeAndFlush : List Input :=
  [.native (.reactor (.opened (.ok ()))), .native (.reactor .run), .callback (fun _ => .ok 0),
    .js (.invoke (.write (.ofBytes [1, 2, 3]))), .native (.advance .pending), .native (.advance .pending),
    .native (.advance (.ready 1)), .native (.advance .pending), .native (.advance .pending), .native (.advance .pending),
    .answer, .js (.invoke (.control .flush 0)), .native (.advance .pending), .native (.advance .pending),
    .native (.advance .pending), .native (.advance .pending), .answer, .native (.reactor .run), .native (.reactor .run),
    .native (.reactor .received), .native (.reactor .run), .native (.reactor .run),
    .native (.reactor (.transfer .pending (.ready 2))), .native (.reactor .run), .native (.reactor .run),
    .native (.reactor .run), .native (.reactor .run), .callback (fun _ => .ok 0), .native (.reactor .run),
    .native (.reactor .received), .native (.reactor .run), .native (.reactor .run),
    .native (.reactor (.executed (.ok ⟨false, false, false, 0⟩)))]

theorem ordered_effects_flush : ∃ s outputs,
    system.run (System.new "/dev/ttyS0" 1) writeAndFlush = some (s, outputs) ∧
    log (natives outputs) = [.byte 1, .byte 2, .byte 3, .control ⟨2, .flush⟩] ∧ completed outputs = [1] ∧
    (log (natives outputs)).filterMap byte? <+: (accepted outputs ++ s.progress).flatMap Native.payload ∧
    completed outputs <+: orderedIds (accepted outputs) := by
  refine ⟨_, _, rfl, ?_⟩
  have h := ordered_effects "/dev/ttyS0" 1 ⟨by decide, by decide⟩ writeAndFlush _ _ rfl ⟨rfl, rfl, rfl⟩
  exact ⟨by decide, by decide, h.1, h.2.2⟩

end NodeSerialport.Composition
