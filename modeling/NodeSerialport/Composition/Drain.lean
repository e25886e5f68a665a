import NodeSerialport.Binding.Tickets
import NodeSerialport.Composition.Order
import NodeSerialport.Composition.Taken
/-!
# `drain` waits for the writes before it

Also while a port shuts down, the device does what it was handed in order, and a promise resolves after its operation was
done.

* `agenda` — what the device did and still has to do; `agenda_step` — it only grows;
* `Handed` — what was taken is on the agenda;
* `Honored` — a request that was resolved is done, and all before it;
* `drain_waits` — over every run.
-/

namespace NodeSerialport.Composition

open Lib (Machine)
open Binding (Client NativeCall NativeEvent Answer Method Site client)
open Native (NativePort CallbackEvent Atom atoms command log)

variable {s s' : System} {outputs out : List Output} {calls : List Taken}

/-- What the device did, and what it still has to do. -/
def agenda (outputs : List Output) (n : NativePort) : List Atom := log (natives outputs) ++ n.owed

/-- A write is tried at once only where nothing is on its way. -/
def Trying (n : NativePort) : Prop := ∀ id data, n.call = some (.tryWrite id data) → n.pendingOps = 0

theorem Trying.step (h : Trying s.native) (hl : Linked s) (hteardown : s.native.teardown = false) {i : Input}
    (hstep : system.step s i = some (s', out)) : Trying s'.native := by
  have henter : ∀ {n : NativePort} (js : Client) (jsOut : List Binding.Output), n.call = none →
      Trying (enter n js jsOut) := by
    intro n js jsOut hcall id data htry
    obtain ⟨call, hcheck⟩ := enter_check hcall js jsOut _ htry
    cases hcheck
  cases system_step hstep with
  | js hi hjs => exact henter _ _ (hl.attuned.call.idle (jsInput_calling hi hjs))
  | native hi hn =>
    cases native_nativeStep hl.attuned.fits hi hn with
    | reactor hm =>
      rename_i n nOut
      intro id data htry
      have hold := h id data (hm.apart.call.symm.trans htry)
      show n.pendingOps = 0
      cases hm.flow hl.attuned.fits (hl.room hteardown) with
      | same replies queued reading pendingOps => exact pendingOps.trans hold
      | done id replies queued reading pendingOps => rw [pendingOps, hold]
      | replied id replies queued reading pendingOps => exact pendingOps.trans hold
    | call hcall hstepCall => exact fun id data htry => Native.stepCall_tryWrite hstepCall htry
    | stop | teardown => exact h
  | answer hcall hcalling hjs => exact henter _ _ rfl
  | callback hcallbacks hjs =>
    exact henter _ _ (hl.attuned.call.idle (calling_none hjs (fun _ h => nomatch h)))

theorem agenda_enter {n : NativePort} (hreactor : n.reactor = s.native.reactor) (hchannel : n.channel = s.native.channel)
    {f : List Output} (hnatives : natives f = []) (js : Client) (jsOut : List Binding.Output) :
    agenda (outputs ++ (f ++ jsOut.map .js)) (enter n js jsOut) = agenda outputs s.native := by
  have howed : (enter n js jsOut).owed = s.native.owed := by
    show n.owing ++ n.channel.flatMap atoms = s.native.owing ++ s.native.channel.flatMap atoms
    rw [NativePort.owing, NativePort.owing, hreactor, hchannel]
  rw [agenda, agenda, howed, natives_append, natives_append, natives_js, hnatives, List.append_nil, List.append_nil]

/-- **The agenda only grows.** -/
theorem agenda_step (hl : Linked s) (htrying : Trying s.native) (hteardown : s.native.teardown = false) {i : Input}
    (hstep : system.step s i = some (s', out)) : agenda outputs s.native <+: agenda (outputs ++ out) s'.native := by
  cases system_step hstep with
  | js hi hjs => exact (agenda_enter (f := []) rfl rfl rfl _ _) ▸ List.prefix_rfl
  | native hi hn =>
    rename_i i n nOut
    have hlog : agenda (outputs ++ nOut.map .native) n = log (natives outputs) ++ (log nOut ++ n.owed) := by
      rw [agenda, natives_append, natives_native, Native.log_append, List.append_assoc]
    show _ <+: agenda (outputs ++ nOut.map .native) n
    rw [hlog, agenda]
    refine (List.prefix_append_right_inj _).2 ?_
    cases native_nativeStep hl.attuned.fits hi hn with
    | reactor hm => exact hm.owed hl.attuned.fits (hl.room hteardown) ▸ List.prefix_rfl
    | call hcall hstepCall =>
      obtain ⟨call, site, stage', hcalling, hcall', hstaged, hstaged', hcallStep⟩ := hl.attuned.callStep hcall hstepCall
      cases hcallStep with
      | wrote hstage hinline hcount hrest hstage' =>
        have hops := hl.tracked.pendingOps
        rw [htrying _ _ (hstage ▸ hcall)] at hops
        have howed : s.native.owed = [] := Ordered.owed_nil (List.length_eq_zero_iff.1 (by omega))
        rw [howed]
        exact List.nil_prefix
      | pushed hstage hsub =>
        rename_i c
        refine ⟨atoms c, ?_⟩
        show s.native.owed ++ atoms c = s.native.owing ++ (s.native.channel ++ [c]).flatMap atoms
        rw [List.flatMap_append, ← List.append_assoc, List.flatMap_singleton]
        rfl
      | goes | reserved | refused | undone => exact List.prefix_rfl
    | stop | teardown => exact List.prefix_rfl
  | answer hcall hcalling hjs =>
    rename_i answer call site js jsOut
    have hagenda : agenda (outputs ++ ([.answered call answer] ++ jsOut.map .js))
        (enter { s.native with call := none } js jsOut) = agenda outputs s.native := agenda_enter rfl rfl rfl js jsOut
    exact hagenda ▸ List.prefix_rfl
  | callback hcallbacks hjs =>
    rename_i allocate event callbacks js jsOut
    have hagenda : agenda (outputs ++ (s.completions event ++ jsOut.map .js))
        (enter { s.native with callbacks := callbacks } js jsOut) = agenda outputs s.native :=
      agenda_enter rfl rfl (Ordered.completions_quiet s event).1 js jsOut
    exact hagenda ▸ List.prefix_rfl

/-! ### What was taken is on the agenda -/

/-- The call the native handle answers with this step, if it took it. -/
def System.taken (s : System) : Input → List Taken
  | .answer =>
    match s.native.call with
    | some (.returned answer) => Composition.taken s.js (.answer answer)
    | _ => []
  | _ => []

theorem taken_accepted {c : Client} {call : NativeCall} {site : Site} (hcalling : c.calling = some (call, site))
    (answer : Answer) : (taken c (.answer answer)).map Taken.call = accepted [.answered call answer] := by
  cases answer with
  | thrown error => rfl
  | completed => simp [taken, hcalling, accepted, Output.accepted?]
  | queued => cases site <;> simp [taken, hcalling, accepted, Output.accepted?]

/-- A call that was taken was taken before, or is taken by this step. -/
theorem taken_last {c : Client} {call : NativeCall} {site : Site} (hcalling : c.calling = some (call, site)) {answer : Answer}
    {front : List Taken} {t : Taken} (h : front ++ [t] <+: calls ++ taken c (.answer answer)) :
    front ++ [t] <+: calls ∨ front = calls ∧ taken c (.answer answer) = [t] := by
  have hlength : ((taken c (.answer answer)).map Taken.call).length ≤ 1 := by
    rw [taken_accepted hcalling]
    exact List.length_filterMap_le _ _
  cases htaken : taken c (.answer answer) with
  | nil =>
    rw [htaken, List.append_nil] at h
    exact .inl h
  | cons t' rest =>
    obtain rfl : rest = [] := by
      rw [htaken, List.length_map, List.length_cons] at hlength
      exact List.length_eq_zero_iff.1 (by omega)
    rw [htaken, List.prefix_concat_iff] at h
    rcases h with h | h
    · obtain ⟨rfl, heq⟩ := List.append_inj' h rfl
      obtain rfl : t = t' := by simpa using heq
      exact .inr ⟨rfl, rfl⟩
    · exact .inl h

theorem taken_queued {c : Client} {call : NativeCall} {site : Site} (hcalling : c.calling = some (call, site)) {answer : Answer}
    {t : Taken} (h : taken c (.answer answer) = [t]) {promise : ℕ} (hpromise : t.promise = some promise) :
    answer = .queued ∧ promise = c.promises ∧ t.call = call := by
  cases answer with
  | thrown error => cases h
  | completed =>
    simp only [taken, hcalling] at h
    cases h
    cases hpromise
  | queued =>
    cases site <;>
    · simp only [taken, hcalling] at h
      cases h
      cases hpromise <;> exact ⟨rfl, rfl, rfl⟩

theorem System.taken_accepted {i : Input} (hstep : system.step s i = some (s', out)) :
    (s.taken i).map Taken.call = accepted out := by
  cases system_step hstep with
  | js hi hjs => exact (accepted_js _).symm
  | native hi hn => exact (accepted_native _).symm
  | answer hcall hcalling hjs =>
    rename_i answer call site js jsOut
    have hcons : Output.answered call answer :: jsOut.map .js = [.answered call answer] ++ jsOut.map .js := rfl
    rw [hcons, accepted_append, accepted_js, List.append_nil, ← Composition.taken_accepted hcalling]
    simp only [System.taken, hcall]
  | callback hcallbacks hjs =>
    rw [accepted_append, accepted_js, (Ordered.completions_quiet s _).2]
    rfl

/-- What the calls that were taken ask of the device. -/
def asked (calls : List Taken) : List Atom := effects (calls.map Taken.call)

theorem asked_append (calls more : List Taken) : asked (calls ++ more) = asked calls ++ asked more := by
  rw [asked, List.map_append, effects_append]
  rfl

/-- **What was taken is on the agenda**, and what is being handed over completes it. -/
structure Handed (calls : List Taken) (outputs : List Output) (s : System) : Prop where
  trying : Trying s.native
  accepted : calls.map Taken.call = accepted outputs
  handing : ∀ c, s.native.call = some (.reserve c) ∨ s.native.call = some (.send c) → s.native.receiving = true →
    agenda outputs s.native ++ atoms c = asked calls ++ effects s.progress
  queued : s.native.call = some (.returned .queued) → asked calls ++ effects s.progress <+: agenda outputs s.native
  taken : ∀ front t, front ++ [t] <+: calls → t.promise.isSome = true → asked (front ++ [t]) <+: agenda outputs s.native

namespace Handed

theorem start (path : String) (nextId : ℕ) : Handed [] [] (System.new path nextId) := by
  refine ⟨nofun, rfl, ?_, nofun, fun front t h => ?_⟩
  · rintro c (h | h) <;> cases h
  · exact absurd (List.prefix_nil.1 h) (by simp)

theorem idle {n : NativePort} (hcall : n.call = none) (js : Client) (jsOut : List Binding.Output) :
    (∀ c, (enter n js jsOut).call ≠ some (.reserve c) ∧ (enter n js jsOut).call ≠ some (.send c)) ∧
      (enter n js jsOut).call ≠ some (.returned .queued) := by
  have hcheck := enter_check hcall js jsOut
  refine ⟨fun c => ⟨fun h => ?_, fun h => ?_⟩, fun h => ?_⟩
  all_goals
    obtain ⟨call, heq⟩ := hcheck _ h
    cases heq

/-- **A call of the native handle goes on.** -/
theorem call (h : Handed calls outputs s) (hl : Linked s) (hteardown : s.native.teardown = false)
    (hlive : Live s.native → Ordered outputs s) {stage : Native.Call} {writer : Native.Io ℕ} {n : NativePort}
    {nOut : List Native.Output} (hcall : s.native.call = some stage)
    (hstepCall : s.native.stepCall stage writer = some (n, nOut)) (htrying : Trying n)
    (haccepted : calls.map Taken.call = Composition.accepted (outputs ++ nOut.map .native))
    (htaken : ∀ front t, front ++ [t] <+: calls → t.promise.isSome = true →
      asked (front ++ [t]) <+: agenda (outputs ++ nOut.map .native) n) :
    Handed calls (outputs ++ nOut.map .native) ⟨s.js, n⟩ := by
  obtain ⟨call, site, stage', hcalling, hcall', hstaged, hstaged', hcallStep⟩ := hl.attuned.callStep hcall hstepCall
  obtain ⟨hreactor, -, -, hstop, -⟩ := Native.stepCall_sameReactor hstepCall
  have hprogress : ∀ {native : NativePort} {st : Native.Call}, st.refuses = false → native.call = some st →
      System.progress ⟨s.js, native⟩ = [call] := by
    intro native st hrefuses hst
    unfold System.progress
    rw [hst, hcalling]
    simp [hrefuses]
  have hbefore : ∀ {st : Native.Call}, st.refuses = false → s.native.call = some st → s.progress = [call] :=
    fun hrefuses hst => hprogress hrefuses hst
  refine ⟨htrying, haccepted, ?_, ?_, htaken⟩
  · intro c hc hreceiving
    have hafter : System.progress ⟨s.js, n⟩ = [call] := by
      rcases hc with hc | hc <;> exact hprogress rfl hc
    obtain ⟨hfrom, hchannel, rfl⟩ := Native.stepCall_handing hstepCall hc
    have hreceiving' : s.native.receiving = true := hreactor.receiving ▸ hreceiving
    have hagenda : agenda (outputs ++ [].map .native) n = agenda outputs s.native := by
      have howed : n.owed = s.native.owed := by
        rw [NativePort.owed, NativePort.owed, NativePort.owing, NativePort.owing, hreactor.reactor, hchannel]
      rw [agenda, natives_append, natives_native, Native.log_append, howed, List.append_assoc]
      rfl
    show agenda (outputs ++ [].map .native) n ++ _ = _
    rw [hagenda, hafter]
    rcases hfrom with ⟨rfl, hstop'⟩ | rfl
    · -- the call has just seen that the port is open for work
      have hdevice := (hlive ⟨hstop', hreceiving', hteardown⟩).device
      rw [hbefore rfl hcall, System.rest, hcall, ← h.accepted] at hdevice
      exact hdevice
    · rw [h.handing c (.inl hcall) hreceiving', hbefore rfl hcall]
  · intro hc
    show _ <+: agenda _ n
    rw [hprogress rfl hc]
    rw [hcall'] at hc
    cases hc
    cases hcallStep with
    | pushed hstage hsub =>
      rename_i c
      subst hstage
      have hreceiving := Native.stepCall_sent hstepCall rfl
      have hhanding := h.handing c (.inr hcall) hreceiving
      rw [hbefore rfl hcall] at hhanding
      rw [← hhanding]
      have hagenda : agenda (outputs ++ [].map .native) (s.native.enlist c (.returned .queued)) =
          agenda outputs s.native ++ atoms c := by
        show log (natives (outputs ++ [])) ++ (s.native.owing ++ (s.native.channel ++ [c]).flatMap atoms) = _
        rw [List.append_nil, List.flatMap_append, ← List.append_assoc s.native.owing, List.flatMap_singleton,
          ← List.append_assoc]
        rfl
      exact hagenda ▸ List.prefix_rfl
    | goes hrest hreserved hrefuses hrefuses' hpushed => cases hpushed
    | wrote hstage hinline hcount hrest hstage' =>
      rcases hstage' with hs | ⟨c, hs⟩ <;> cases hs
    | refused hrefused hrefuses => cases hrefuses

/-- **Every step keeps it.** -/
theorem step (h : Handed calls outputs s) (hl : Linked s) (hteardown : s.native.teardown = false)
    (hlive : Live s.native → Ordered outputs s) {i : Input} (hstep : system.step s i = some (s', out)) :
    Handed (calls ++ s.taken i) (outputs ++ out) s' := by
  have hgrows : agenda outputs s.native <+: agenda (outputs ++ out) s'.native := agenda_step hl h.trying hteardown hstep
  have haccepted : (calls ++ s.taken i).map Taken.call = Composition.accepted (outputs ++ out) := by
    rw [List.map_append, accepted_append, h.accepted, System.taken_accepted hstep]
  have htrying := h.trying.step hl hteardown hstep
  -- what was taken before stays on the agenda
  have htaken : ∀ front t, front ++ [t] <+: calls → t.promise.isSome = true →
      asked (front ++ [t]) <+: agenda (outputs ++ out) s'.native :=
    fun front t hfront ht => (h.taken front t hfront ht).trans hgrows
  have hentered : ∀ {n : NativePort} {js : Client} {jsOut : List Binding.Output}, n.call = none →
      s' = ⟨js, enter n js jsOut⟩ → s.taken i = [] → Handed (calls ++ s.taken i) (outputs ++ out) s' := by
    rintro n js jsOut hcall rfl hnone
    obtain ⟨hno, hno'⟩ := idle hcall js jsOut
    rw [hnone, List.append_nil] at haccepted ⊢
    exact ⟨htrying, haccepted, fun c hc => absurd hc (not_or.2 (hno c)), fun hc => absurd hc hno', htaken⟩
  cases system_step hstep with
  | js hi hjs => exact hentered (hl.attuned.call.idle (jsInput_calling hi hjs)) rfl rfl
  | callback hcallbacks hjs =>
    rename_i allocate event callbacks js jsOut
    have hidle := hl.attuned.call.idle (calling_none hjs (fun _ h => nomatch h))
    exact hentered (n := { s.native with callbacks := callbacks }) hidle rfl rfl
  | answer hcall hcalling hjs =>
    rename_i answer call site js jsOut
    obtain ⟨hno, hno'⟩ := idle (n := { s.native with call := none }) rfl js jsOut
    refine ⟨htrying, haccepted, fun c hc => absurd hc (not_or.2 (hno c)), fun hc => absurd hc hno', ?_⟩
    intro front t hfront ht
    have hlast : s.taken .answer = Composition.taken s.js (.answer answer) := by simp only [System.taken, hcall]
    rw [hlast] at hfront
    rcases taken_last hcalling hfront with hfront | ⟨rfl, htaken'⟩
    · exact htaken front t hfront ht
    · obtain ⟨promise, hpromise⟩ := Option.isSome_iff_exists.1 ht
      obtain ⟨rfl, -, rfl⟩ := taken_queued hcalling htaken' hpromise
      have hprogress : s.progress = [t].map Taken.call := by
        unfold System.progress
        rw [hcall, hcalling]
        rfl
      have hagenda := h.queued hcall
      rw [hprogress] at hagenda
      exact (asked_append front [t] ▸ hagenda).trans hgrows
  | native hi hn =>
    rename_i i n nOut
    show Handed (calls ++ []) _ _
    rw [show s.taken (.native i) = [] from rfl, List.append_nil] at haccepted
    rw [List.append_nil]
    have hlog : agenda (outputs ++ nOut.map .native) n = log (natives outputs) ++ (log nOut ++ n.owed) := by
      rw [agenda, natives_append, natives_native, Native.log_append, List.append_assoc]
    have hsame : n.call = s.native.call → (n.receiving = true → s.native.receiving = true) →
        log nOut ++ n.owed = s.native.owed → Handed calls (outputs ++ nOut.map .native) ⟨s.js, n⟩ := by
      intro hcall hreceiving howed
      have hagenda : agenda (outputs ++ nOut.map .native) n = agenda outputs s.native := by rw [hlog, howed, agenda]
      have hprogress : System.progress ⟨s.js, n⟩ = s.progress := by rw [System.progress, System.progress, hcall]
      refine ⟨htrying, haccepted, ?_, ?_, htaken⟩
      · show ∀ c, n.call = _ ∨ n.call = _ → n.receiving = true → agenda _ n ++ _ = _
        rw [hagenda, hprogress, hcall]
        exact fun c hc hr => h.handing c hc (hreceiving hr)
      · show n.call = _ → _ <+: agenda _ n
        rw [hagenda, hprogress, hcall]
        exact h.queued
    cases native_nativeStep hl.attuned.fits hi hn with
    | reactor hm => exact hsame hm.apart.call hm.apart.receiving (hm.owed hl.attuned.fits (hl.room hteardown))
    | stop => exact hsame rfl id rfl
    | teardown => exact hsame rfl id rfl
    | call hcall hstepCall => exact h.call hl hteardown hlive hcall hstepCall htrying haccepted htaken

end Handed

/-! ### What was resolved is done -/

theorem prefix_of_not_mem {α : Type*} {front before after : List α} {a : α} (h : front ++ [a] <+: before ++ after)
    (ha : a ∉ after) : front ++ [a] <+: before := by
  obtain ⟨rest, heq⟩ := h
  rcases List.append_eq_append_iff.1 heq with ⟨more, hbefore, -⟩ | ⟨more, hfront, hafter⟩
  · exact ⟨more, hbefore.symm⟩
  · cases more using List.reverseRecOn with
    | nil =>
      rw [List.append_nil] at hfront
      exact hfront ▸ List.prefix_rfl
    | append_singleton more last =>
      rw [← List.append_assoc] at hfront
      obtain ⟨-, hlast⟩ := List.append_inj' hfront rfl
      obtain rfl : a = last := by simpa using hlast
      refine absurd ?_ ha
      rw [hafter]
      simp

/-- **A request that was resolved is done**, and all that was taken before it. -/
def Honored (calls : List Taken) (outputs : List Output) (s : System) : Prop :=
  ∀ front t id op value promise, front ++ [t] <+: calls → t.promise = some promise → t.call = .request id op value →
    promise < s.js.promises ∧ s.js.Ticket id promise ∧
      ∀ event, s.js.result (.promise promise) = some (.ok event) → asked (front ++ [t]) <+: log (natives outputs)

namespace Honored

theorem asked_request {front : List Taken} {t : Taken} {id value : ℕ} {op : Binding.ControlOperation}
    (hcall : t.call = .request id op value) :
    asked (front ++ [t]) = asked front ++ [.control (command (.request id op value))] := by
  rw [asked_append]
  congr 1
  show effects [t.call] = _
  rw [hcall, effects_singleton]
  cases op <;> rfl

theorem resolved (hl : Linked s) (hhanded : Handed calls outputs s) {allocate : ℕ → Native.Allocation} {event : CallbackEvent}
    {callbacks : List CallbackEvent} (hcallbacks : s.native.callbacks = event :: callbacks) {front : List Taken} {t : Taken}
    (hfront : front ++ [t] <+: calls) {promise : ℕ} (hpromise : t.promise = some promise) {id value : ℕ}
    {op : Binding.ControlOperation} (hcall : t.call = .request id op value)
    (hresolves : Client.Resolves id (.callback (event.callback allocate))) :
    asked (front ++ [t]) <+: log (natives outputs) := by
  obtain ⟨nativeEvent, hinput, hid, hopened, hclosed⟩ := hresolves
  obtain rfl := Tracked.callback_event (Binding.Input.callback.inj hinput)
  have hreplies : id ∈ s.native.replies := by
    have heqs := (Tracked.callback_eqs (s := s) s.js [] hcallbacks).2.2
    rw [heqs, (Native.reply_event hopened hclosed).1, ← hid]
    exact List.mem_cons_self
  have hunfinished : s.js.port.finished = false := by
    by_contra hfinished
    have hnil := (hl.tracked.finished (by simpa using hfinished)).1
    rw [hcallbacks] at hnil
    cases hnil
  have hagenda := hhanded.taken front t hfront (by rw [hpromise]; rfl)
  rw [asked_request hcall] at hagenda ⊢
  refine prefix_of_not_mem hagenda fun hmem => ?_
  -- it would still be queued
  have hqueued := Native.mem_owed hmem
  rw [Native.command_id] at hqueued
  have hnodup := (hl.tracked.tracks hunfinished).perm.nodup_iff.2 hl.attuned.records_nodup
  rw [List.append_assoc] at hnodup
  exact (List.nodup_append.1 hnodup).2.2 id hreplies id (List.mem_append_left _ hqueued) rfl

theorem start (path : String) (nextId : ℕ) : Honored [] [] (System.new path nextId) := by
  intro front t id op value promise hfront
  exact absurd (List.prefix_nil.1 hfront) (by simp)

theorem js (h : Honored calls outputs s) {w : Binding.Writer} (hat : s.js.At w) {i : Binding.Input} {js : Client}
    {n : NativePort} {jsOut : List Binding.Output} (hstep : client.step s.js i = some (js, jsOut)) {out : List Output}
    (hresolves : ∀ front t id op value promise, front ++ [t] <+: calls → t.promise = some promise →
      t.call = .request id op value → Client.Resolves id i → asked (front ++ [t]) <+: log (natives outputs)) :
    Honored calls (outputs ++ out) ⟨js, n⟩ := by
  intro front t id op value promise hfront hpromise hcall
  obtain ⟨hmade, hticket, hdone⟩ := h front t id op value promise hfront hpromise hcall
  obtain ⟨hticket', hresult⟩ := Client.step_ticket hat hmade hticket hstep
  refine ⟨hmade.trans_le (Client.promises_mono hstep), hticket', fun event hevent => ?_⟩
  rw [natives_append, Native.log_append]
  refine List.IsPrefix.trans ?_ (List.prefix_append _ _)
  rcases hresult event hevent with hevent | hi
  · exact hdone event hevent
  · exact hresolves front t id op value promise hfront hpromise hcall hi

/-- **A request is queued.** -/
theorem queued {call : NativeCall} {site : Site} {js : Client} {jsOut : List Binding.Output} {w : Binding.Writer}
    (hat : s.js.At w) (hcalled : Called s.js) (hcalling : s.js.calling = some (call, site))
    (hstep : client.step s.js (.answer .queued) = some (js, jsOut)) {id value : ℕ} {op : Binding.ControlOperation}
    (hcall : call = .request id op value) :
    s.js.promises < js.promises ∧ js.Ticket id s.js.promises ∧
      ∀ event, js.result (.promise s.js.promises) ≠ some (.ok event) := by
  subst hcall
  have hordered : site.ordered = true := by
    rcases hcalled _ _ hcalling with ⟨length, bytes, slots, heq, -⟩ | ⟨op', id', heq, hsite, -⟩
    · cases heq
    · rw [hsite, ← operation_ordered op' id' (s.js.port.ordered == 1), ← heq]
      rfl
  obtain ⟨answer, hi, hanswered, -⟩ := Client.step_calling (i := .answer .queued) hstep hcalling
  obtain rfl := Binding.Input.answer.inj hi
  have hresults : js.results = s.js.results := by
    have h := Client.answered_results { s.js with calling := none } (.request id op value) site .queued
    rw [hanswered] at h
    exact h
  have hnone : js.results.lookup s.js.promises = none := by
    rw [hresults]
    exact hat.made.lookup_none (le_refl _)
  cases Client.step_requestStep hstep with
  | queued hc hsite ha =>
    rw [hcalling] at hc
    cases hc
    have hpending : js.port.pending = s.js.port.pending ++ [(id, ⟨s.js.promises, true⟩)] := hordered ▸ ha.pending
    refine ⟨ha.promises, .waiting hnone ?_ fun record hmem heq => ?_, fun event hevent => ?_⟩
    · rw [hpending]
      exact List.mem_append_right _ (List.mem_singleton_self _)
    · rw [hpending] at hmem
      rcases List.mem_append.1 hmem with hmem | hmem
      · exact absurd heq (hat.made.pending record hmem).ne
      · exact List.mem_singleton.1 hmem
    · cases hnone.symm.trans hevent
  | method hi hc => rw [hcalling] at hc; cases hc
  | dropped hc hsite ha => exact absurd rfl ha
  | credited hc => rw [hcalling] at hc; cases hc; cases hordered
  | other hc hsame hout hi ha => exact absurd rfl (ha _)

/-- **Every step keeps it.** -/
theorem step (h : Honored calls outputs s) (hl : Linked s) (hhanded : Handed calls outputs s) {w : Binding.Writer}
    (hat : s.js.At w) {i : Input} (hstep : system.step s i = some (s', out)) :
    Honored (calls ++ s.taken i) (outputs ++ out) s' := by
  cases system_step hstep with
  | js hi hjs =>
    show Honored (calls ++ []) _ _
    rw [List.append_nil]
    refine h.js hat hjs ?_
    rintro front t id op value promise hfront hpromise hcall ⟨event, rfl, -⟩
    cases hi
  | native hi hn =>
    rename_i i n nOut
    show Honored (calls ++ []) _ _
    rw [List.append_nil]
    intro front t id op value promise hfront hpromise hcall
    obtain ⟨hmade, hticket, hdone⟩ := h front t id op value promise hfront hpromise hcall
    refine ⟨hmade, hticket, fun event hevent => ?_⟩
    rw [natives_append, Native.log_append]
    exact (hdone event hevent).trans (List.prefix_append _ _)
  | callback hcallbacks hjs =>
    show Honored (calls ++ []) _ _
    rw [List.append_nil]
    exact h.js hat hjs fun front t id op value promise hfront hpromise hcall hresolves =>
      resolved hl hhanded hcallbacks hfront hpromise hcall hresolves
  | answer hcall hcalling hjs =>
    rename_i answer call site js jsOut
    have hold : Honored calls (outputs ++ .answered call answer :: jsOut.map .js)
        ⟨js, enter { s.native with call := none } js jsOut⟩ := by
      refine h.js hat hjs ?_
      rintro front t id op value promise hfront hpromise hcall ⟨event, hi, -⟩
      cases hi
    intro front t id op value promise hfront hpromise hrequest
    have hlast : s.taken .answer = Composition.taken s.js (.answer answer) := by simp only [System.taken, hcall]
    rw [hlast] at hfront
    rcases taken_last hcalling hfront with hfront | ⟨rfl, htaken⟩
    · exact hold front t id op value promise hfront hpromise hrequest
    · obtain ⟨rfl, rfl, hcall'⟩ := taken_queued hcalling htaken hpromise
      obtain ⟨hmade, hticket, hnot⟩ := queued hat hl.attuned.called hcalling hjs (hcall'.symm.trans hrequest)
      exact ⟨hmade, hticket, fun event hevent => absurd hevent (hnot event)⟩

end Honored

/-! ### Over a run -/

/-- The writes a step calls. -/
def System.begun (s : System) : Input → List (ℕ × Method)
  | .js input => Composition.begun s.js input
  | _ => []

/-- What JavaScript emitted. -/
def jsOutputs (outputs : List Output) : List Binding.Output := outputs.filterMap Output.js?

@[simp] theorem jsOutputs_append (a b : List Output) : jsOutputs (a ++ b) = jsOutputs a ++ jsOutputs b :=
  List.filterMap_append

@[simp] theorem jsOutputs_js (outputs : List Binding.Output) : jsOutputs (outputs.map .js) = outputs := by
  have hcomp : Output.js? ∘ Output.js = some := rfl
  rw [jsOutputs, List.filterMap_map, hcomp, List.filterMap_some]

@[simp] theorem jsOutputs_native (outputs : List Native.Output) : jsOutputs (outputs.map .native) = [] := by
  simp [jsOutputs, Output.js?]

theorem mem_jsOutputs {o : Binding.Output} : o ∈ jsOutputs outputs ↔ .js o ∈ outputs := by
  simp only [jsOutputs, List.mem_filterMap]
  constructor
  · rintro ⟨output, hmem, ho⟩
    cases output with
    | js output =>
      cases ho
      exact hmem
    | _ => cases ho
  · exact fun hmem => ⟨_, hmem, rfl⟩

theorem completions_js (s : System) (event : CallbackEvent) : jsOutputs (s.completions event) = [] := by
  unfold System.completions
  split
  · split
    · rfl
    · rfl
    · split <;> rfl
  · rfl

theorem step_follows {i : Input} (hstep : system.step s i = some (s', out)) :
    (∃ j, client.step s.js j = some (s'.js, jsOutputs out) ∧ s.taken i = taken s.js j ∧ s.begun i = begun s.js j) ∨
      s'.js = s.js ∧ jsOutputs out = [] ∧ s.taken i = [] ∧ s.begun i = [] := by
  cases system_step hstep with
  | js hi hjs =>
    rename_i i js jsOut
    refine .inl ⟨i, by rwa [jsOutputs_js], ?_, rfl⟩
    cases i with
    | answer => cases hi
    | _ => rfl
  | native hi hn => exact .inr ⟨rfl, jsOutputs_native _, rfl, rfl⟩
  | answer hcall hcalling hjs =>
    rename_i answer call site js jsOut
    refine .inl ⟨.answer answer, ?_, by simp only [System.taken, hcall], rfl⟩
    have hout : jsOutputs (.answered call answer :: jsOut.map .js) = jsOut := jsOutputs_js jsOut
    rwa [hout]
  | callback hcallbacks hjs =>
    rename_i allocate event callbacks js jsOut
    refine .inl ⟨.callback (event.callback allocate), ?_, rfl, rfl⟩
    rwa [jsOutputs_append, completions_js, jsOutputs_js]

/-- **What a run keeps**, as long as the callback queue is not torn down. -/
structure Serving (inputs : List Input) (path : String) (nextId : ℕ) (outputs : List Output) (s : System) : Prop where
  linked : Linked s
  handed : Handed (system.collect System.taken (System.new path nextId) inputs) outputs s
  honored : Honored (system.collect System.taken (System.new path nextId) inputs) outputs s

/-- **Every reachable state.** -/
theorem Serving.run {path : String} {nextId : ℕ} (hnextId : Binding.BindingPort.InRange nextId) {inputs : List Input}
    (hrun : system.run (System.new path nextId) inputs = some (s, outputs)) :
    Writes (system.collect System.begun (System.new path nextId) inputs)
        (system.collect System.taken (System.new path nextId) inputs) (jsOutputs outputs) s.js ∧
      (s.native.teardown = false → Serving inputs path nextId outputs s) := by
  have hP := Machine.run_rule_all (fun inputs outputs (s : System) =>
    system.run (System.new path nextId) inputs = some (s, outputs) ∧ Attuned s ∧
      Writes (system.collect System.begun (System.new path nextId) inputs)
        (system.collect System.taken (System.new path nextId) inputs) (jsOutputs outputs) s.js ∧
      (s.native.teardown = false → Serving inputs path nextId outputs s)) ?_ ?_ hrun
  · exact hP.2.2
  · exact ⟨rfl, .start path hnextId, .start path nextId,
      fun _ => ⟨.start path hnextId, .start path nextId, .start path nextId⟩⟩
  · rintro inputs outputs s i s' out ⟨hrun, hattuned, hwrites, h⟩ hstep
    refine ⟨Machine.run_append hrun (Machine.run_singleton hstep), hattuned.step hstep, ?_, fun hteardown' => ?_⟩
    · rw [Machine.collect_snoc hrun, Machine.collect_snoc hrun, jsOutputs_append]
      rcases step_follows hstep with ⟨j, hjs, htaken, hbegun⟩ | ⟨hjs, hout, htaken, hbegun⟩
      · rw [htaken, hbegun]
        exact hwrites.step hjs
      · rw [htaken, hbegun, hout, hjs, List.append_nil, List.append_nil, List.append_nil]
        exact hwrites
    · have hteardown := step_teardown hattuned hstep hteardown'
      obtain ⟨hlinked, hhanded, hhonored⟩ := h hteardown
      obtain ⟨⟨w, hat, -⟩, -⟩ := hwrites
      refine ⟨hlinked.step hteardown hstep, ?_, ?_⟩
      · rw [Machine.collect_snoc hrun]
        exact hhanded.step hlinked hteardown (fun hlive => Ordered.run hnextId hrun hlive) hstep
      · rw [Machine.collect_snoc hrun]
        exact hhonored.step hlinked hhanded hat hstep

theorem DrainRun.run {path : String} {nextId : ℕ} {before : List Input} {out₀ : List Output}
    {s₀ : System} (hrun₀ : system.run (System.new path nextId) before = some (s₀, out₀)) {method : ℕ}
    {writes : List (ℕ × Method)}
    (h : DrainRun method writes (system.collect System.taken (System.new path nextId) before) (jsOutputs out₀) [] s₀.js)
    {inputs : List Input} (hrun : system.run s₀ inputs = some (s, outputs)) :
    DrainRun method writes (system.collect System.taken (System.new path nextId) (before ++ inputs))
      (jsOutputs (out₀ ++ outputs)) (jsOutputs outputs) s.js := by
  refine (Machine.run_rule_all (fun inputs outputs (s : System) =>
    system.run (System.new path nextId) (before ++ inputs) = some (s, out₀ ++ outputs) ∧
    DrainRun method writes (system.collect System.taken (System.new path nextId) (before ++ inputs))
      (jsOutputs (out₀ ++ outputs)) (jsOutputs outputs) s.js) ?_ ?_ hrun).2
  · rw [List.append_nil, List.append_nil]
    exact ⟨hrun₀, h⟩
  · rintro inputs outputs s i s' out ⟨hrun, h⟩ hstep
    rw [← List.append_assoc, ← List.append_assoc]
    refine ⟨Machine.run_append hrun (Machine.run_singleton hstep), ?_⟩
    rw [Machine.collect_snoc hrun, jsOutputs_append _ out, jsOutputs_append outputs]
    rcases step_follows hstep with ⟨j, hjs, htaken, -⟩ | ⟨hjs, hout, htaken, -⟩
    · rw [htaken]
      exact h.step hjs
    · rw [htaken, hout, hjs, List.append_nil, List.append_nil, List.append_nil]
      exact h

/-- **`drain` waits for everything written before it.**  Over every run of a port and its native side, as long as the
callback queue is not torn down: where a call of `drain` resolves, its request was taken by the native handle, and what
the device did begins with all that was taken before it, followed by the drain of the device.  This includes every byte of
every call of `write` or `writev` before the call of `drain` that was not rejected. -/
theorem drain_waits (path : String) (nextId : ℕ) (hnextId : Binding.BindingPort.InRange nextId) (before : List Input)
    (s₀ : System) (out₀ : List Output) (hrun₀ : system.run (System.new path nextId) before = some (s₀, out₀)) (s₁ : System)
    (out₁ : List Output) (hdrain : system.step s₀ (.js (.invoke .drain)) = some (s₁, out₁)) (after : List Input)
    (s₂ : System) (out₂ : List Output) (hrun₂ : system.run s₁ after = some (s₂, out₂))
    (hteardown : s₂.native.teardown = false) (result : Option NativeEvent)
    (hresolved : .js (.returned s₀.js.promises (.ok result)) ∈ out₂) :
    ∃ front id promise,
      front ++ [⟨.request true (.method s₀.js.promises), .request id .drain 0, some promise⟩] <+:
        system.collect System.taken (System.new path nextId) (before ++ .js (.invoke .drain) :: after) ∧
      effects (front.map Taken.call) ++ [.control ⟨id, .drain⟩] <+: log (natives (out₀ ++ out₁ ++ out₂)) ∧
      ∀ method write, (method, write) ∈ system.collect System.begun (System.new path nextId) before →
        (∀ error, .js (.returned method (.error error)) ∉ out₀ ++ out₁ ++ out₂) →
        carried method front = write.data ∧
          ((∀ buffer ∈ write.buffers, buffer.length = buffer.bytes.length) →
            write.data = write.buffers.flatMap Binding.JsBuffer.bytes) := by
  have hrun₁ : system.run (System.new path nextId) (before ++ [.js (.invoke .drain)]) = some (s₁, out₀ ++ out₁) :=
    Machine.run_append hrun₀ (Machine.run_singleton hdrain)
  obtain ⟨hwrites, -⟩ := Serving.run hnextId hrun₀
  have hstart : DrainRun s₀.js.promises (system.collect System.begun (System.new path nextId) before)
      (system.collect System.taken (System.new path nextId) (before ++ [.js (.invoke .drain)])) (jsOutputs (out₀ ++ out₁)) []
      s₁.js := by
    rw [Machine.collect_snoc hrun₀, jsOutputs_append]
    cases system_step hdrain with
    | js hi hjs =>
      rw [jsOutputs_js]
      show DrainRun _ _ (_ ++ []) _ _ _
      rw [List.append_nil]
      exact hwrites.drain hjs
  have hdrained := DrainRun.run hrun₁ hstart hrun₂
  obtain ⟨promise, ⟨front, id, hfront, hcovered⟩, hresult⟩ := hdrained.returned result (mem_jsOutputs.2 hresolved)
  obtain ⟨-, hserving⟩ := Serving.run hnextId (Machine.run_append hrun₁ hrun₂)
  obtain ⟨-, -, hdone⟩ := (hserving hteardown).honored front _ id .drain 0 promise hfront rfl rfl
  refine ⟨front, id, promise, ?_, ?_, fun method write hmem hnot => ⟨?_, Method.data_eq⟩⟩
  · rw [List.append_assoc] at hfront
    exact hfront
  · have hasked := hdone result hresult
    rw [Honored.asked_request rfl] at hasked
    exact hasked
  · rcases hcovered _ hmem with hdata | ⟨error, herror⟩
    · exact hdata
    · exact absurd (mem_jsOutputs.1 herror) (hnot error)

/-- A write of three bytes, of which the device takes one at once. -/
def partialWrite : List Input :=
  [.native (.reactor (.opened (.ok ()))), .native (.reactor .run), .callback (fun _ => .ok 0),
    .js (.invoke (.write (.ofBytes [1, 2, 3]))), .native (.advance .pending), .native (.advance .pending),
    .native (.advance (.ready 1)), .native (.advance .pending), .native (.advance .pending), .native (.advance .pending),
    .answer]

/-- The write is done, and the drain that waited for it. -/
def writeAndDrain : List Input :=
  [.native (.reactor .run), .native (.reactor .run), .native (.reactor .received), .native (.reactor .run),
    .native (.reactor .run), .native (.reactor (.transfer .pending (.ready 2))), .native (.reactor .run),
    .native (.reactor .run), .native (.reactor .run), .native (.reactor .run), .callback (fun _ => .ok 0), .js (.resume 1),
    .native (.advance .pending), .native (.advance .pending), .native (.advance .pending), .native (.advance .pending),
    .answer, .native (.reactor .run), .native (.reactor .received), .native (.reactor .run), .native (.reactor .run),
    .native (.reactor (.bytesToWrite (.ok 0))), .native (.reactor (.drained (.ok ()))), .native (.reactor .run),
    .native (.reactor .run), .callback (fun _ => .ok 0), .js (.resume 1)]

theorem drain_waits_partial : ∃ s₀ out₀ s₁ out₁ s₂ out₂,
    system.run (System.new "/dev/ttyS0" 1) partialWrite = some (s₀, out₀) ∧
    system.step s₀ (.js (.invoke .drain)) = some (s₁, out₁) ∧ system.run s₁ writeAndDrain = some (s₂, out₂) ∧
    log (natives (out₀ ++ out₁ ++ out₂)) = [.byte 1, .byte 2, .byte 3, .control ⟨2, .drain⟩] ∧
    ∃ front id, effects (front.map Taken.call) ++ [.control ⟨id, .drain⟩] <+: log (natives (out₀ ++ out₁ ++ out₂)) ∧
      carried 1 front = [1, 2, 3] := by
  obtain ⟨s₀, out₀, s₁, out₁, s₂, out₂, hrun₀, hdrain, hrun₂, hteardown, hpromises, hresolved, hreturns, hlog⟩ :
      ∃ s₀ out₀ s₁ out₁ s₂ out₂, system.run (System.new "/dev/ttyS0" 1) partialWrite = some (s₀, out₀) ∧
        system.step s₀ (.js (.invoke .drain)) = some (s₁, out₁) ∧ system.run s₁ writeAndDrain = some (s₂, out₂) ∧
        s₂.native.teardown = false ∧ s₀.js.promises = 3 ∧
        (jsOutputs out₂)[4]? = some (.returned 3 (.ok (some { kind := .ok, id := 2 }))) ∧
        Binding.returns (jsOutputs (out₀ ++ out₁ ++ out₂)) = [3] ∧
        log (natives (out₀ ++ out₁ ++ out₂)) = [.byte 1, .byte 2, .byte 3, .control ⟨2, .drain⟩] :=
    ⟨_, _, _, _, _, _, rfl, rfl, rfl, rfl, rfl, rfl, rfl, by decide⟩
  obtain ⟨front, id, promise, -, hdone, hwrites⟩ := drain_waits "/dev/ttyS0" 1 ⟨by decide, by decide⟩ partialWrite s₀ out₀
    hrun₀ s₁ out₁ hdrain writeAndDrain s₂ out₂ hrun₂ hteardown _
    (mem_jsOutputs.1 (hpromises ▸ List.mem_of_getElem? hresolved))
  have hbegun : (1, .write (.ofBytes [1, 2, 3])) ∈
      system.collect System.begun (System.new "/dev/ttyS0" 1) partialWrite := List.mem_singleton_self _
  obtain ⟨hwrite, -⟩ := hwrites 1 _ hbegun fun error hmem => by
    have hmem' := Binding.mem_returns (mem_jsOutputs.2 hmem)
    rw [hreturns] at hmem'
    cases List.mem_singleton.1 hmem'
  exact ⟨s₀, out₀, s₁, out₁, s₂, out₂, hrun₀, hdrain, hrun₂, hlog, front, id, hdone, hwrite⟩

end NodeSerialport.Composition
