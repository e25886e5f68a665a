import NodeSerialport.Binding.Healthy
import NodeSerialport.Composition.Drain
/-!
# A write that resolves is on the device

Ordered commands are done in the order they were submitted, and the event of one of them says that the device did all that
was asked of it up to there.

* `NativePort.line` — the ordered commands that are not done;
* `Fate` — what is asked up to a command is done, or the command is in the line;
* `Fated` — the invariant: what was taken, with its promises;
* `Filling` — how far a write is, by what the device did;
* `write_waits` — over every run.
-/

namespace NodeSerialport.Native

variable {n n' : NativePort} {out : List Output}

/-! ### The line -/

/-- The ordered commands that are not done, in order. -/
def NativePort.line (n : NativePort) : List Command := n.reactor.commands ++ n.channel.filter Command.ordered

theorem NativePort.queued_line (n : NativePort) : n.queued = n.line.map Command.id := by
  have hchannel : n.channel.filterMap Command.ordered? = (n.channel.filter Command.ordered).map Command.id := by
    induction n.channel with
    | nil => rfl
    | cons c channel ih =>
      cases h : c.ordered with
      | true => rw [List.filterMap_cons_some (show c.ordered? = some c.id from if_pos h), List.filter_cons_of_pos h, ih]; rfl
      | false =>
        have hno : c.ordered? = none := if_neg (by simp [h])
        rw [List.filterMap_cons_none hno, List.filter_cons_of_neg (by simp [h]), ih]
  rw [queued, line, List.map_append, hchannel]

theorem filter_atoms (channel : List Command) : (channel.filter Command.ordered).flatMap atoms = channel.flatMap atoms := by
  induction channel with
  | nil => rfl
  | cons c channel ih =>
    cases h : c.ordered with
    | true => rw [List.filter_cons_of_pos h, List.flatMap_cons, List.flatMap_cons, ih]
    | false => rw [List.filter_cons_of_neg (by simp [h]), List.flatMap_cons, atoms_unordered h, List.nil_append, ih]

theorem NativePort.owed_line (n : NativePort) : n.owed = n.owing ++ (n.channel.filter Command.ordered).flatMap atoms := by
  rw [owed, filter_atoms]

theorem filter_unordered {c : Command} (h : c.ordered = false) (channel : List Command) :
    (c :: channel).filter Command.ordered = channel.filter Command.ordered := List.filter_cons_of_neg (by simp [h])

/-- **The line stays, or its first command is done**, and what is owed then is what the others ask. -/
theorem Moves.line (h : Moves n n' out) (hfits : Fits n) :
    n'.line = n.line ∨ ∃ c, n.line = c :: n'.line ∧ out = [] ∧ n.owed = n'.line.flatMap atoms := by
  have hkept {n' : NativePort} (k : Kept n n') : n'.line = n.line := by
    rw [NativePort.line, NativePort.line, k.commands, k.channel]
  -- a command that is not ordered leaves the channel
  have hchannel {c : Command} {channel : List Command} (hc : c.ordered = false) (heq : n.channel = c :: channel) :
      n.reactor.commands ++ channel.filter Command.ordered = n.line := by
    rw [NativePort.line, heq, filter_unordered hc]
  cases h with
  | calm k | refused k | unpublished hpc k => exact .inl (hkept k)
  | published hpc hevent k => exact .inl (by rw [NativePort.line, NativePort.line, k.commands, k.channel]; rfl)
  | @popped event hpc =>
    obtain ⟨⟨c, rest, hcommands, -⟩, -, -⟩ := hfits.complete hpc
    refine .inr ⟨c, ?_, rfl, ?_⟩
    · show n.reactor.commands ++ _ = c :: (n.reactor.commands.tail ++ _)
      rw [hcommands]
      rfl
    · rw [NativePort.owed_line, NativePort.owing, hpc]
      exact List.flatMap_append.symm
  | @busy c channel length error hpc heq hoperation => exact .inl (hchannel (by rw [Command.ordered, hoperation]) heq)
  | reading hpc heq | credited hpc heq | overdrawn hpc heq => exact .inl (hchannel rfl heq)
  | @enlisted c channel hpc heq hordered =>
    refine .inl ?_
    rw [NativePort.line, NativePort.line, heq, List.filter_cons_of_pos hordered]
    exact List.append_assoc _ _ _
  | _ => exact .inl rfl

theorem stepCall_completed {stage : Call} {writer : Io ℕ} (hstep : n.stepCall stage writer = some (n', out))
    (hcall : n'.call = some (.returned .completed)) : ∃ id data, stage = .tryWrite id data ∧ out = [.wrote data] := by
  cases stepCall_moves hstep with
  | completed => exact ⟨_, _, rfl, rfl⟩
  | goes hgoes =>
    cases hgoes with
    | checked =>
      rename_i call
      rcases checkCall_cases n call with ⟨error, h⟩ | h | ⟨-, -, h | h⟩ <;>
      · rw [h] at hcall
        cases hcall
    | _ => cases hcall
  | _ => cases hcall

theorem stepCall_queued {stage : Call} {writer : Io ℕ} (hstep : n.stepCall stage writer = some (n', out))
    (hcall : n'.call = some (.returned .queued)) : ∃ c, stage = .send c ∧ n.receiving = true ∧
      n' = { n with channel := n.channel ++ [c], call := some (.returned .queued) } ∧ out = [] := by
  cases stepCall_moves hstep with
  | pushed hreceiving => exact ⟨_, rfl, hreceiving, rfl, rfl⟩
  | goes hgoes =>
    cases hgoes with
    | checked =>
      rename_i call
      rcases checkCall_cases n call with ⟨error, h⟩ | h | ⟨-, -, h | h⟩ <;>
      · rw [h] at hcall
        cases hcall
    | _ => cases hcall
  | _ => cases hcall

end NodeSerialport.Native

namespace NodeSerialport.Composition

open Lib (Machine)
open Parsers (Buffer)
open Binding (Client NativeCall NativeEvent Answer SerialError JsBuffer Batch Method Site Stage Writer WriterStep Methodical
  Awaited Settlement client)
open Native (NativePort CallbackEvent Command Atom atoms command log)

variable {s s' : System} {outputs out : List Output} {calls : List Taken} {want : List Atom} {id : ℕ}

/-! ### What becomes of a command -/

/-- **What is asked up to a command is done, or the command is in the line**, with everything up to it on the agenda.  The
device may have done more: the first bytes of a write that was refused then. -/
def Fate (want : List Atom) (id : ℕ) (outputs : List Output) (n : NativePort) : Prop :=
  want.Sublist (log (natives outputs)) ∨ ∃ before c after front, n.line = before ++ c :: after ∧ c.id = id ∧
    agenda outputs n = front ++ after.flatMap atoms ∧ want.Sublist front

theorem log_sublist (outputs out : List Output) : (log (natives outputs)).Sublist (log (natives (outputs ++ out))) := by
  rw [natives_append, Native.log_append]
  exact List.sublist_append_left _ _

namespace Fate

theorem done (h : Fate want id outputs s.native) (hid : id ∉ s.native.queued) : want.Sublist (log (natives outputs)) := by
  rcases h with hdone | ⟨before, c, after, front, hline, rfl, -⟩
  · exact hdone
  · refine absurd ?_ hid
    rw [NativePort.queued_line, hline]
    exact List.mem_map.2 ⟨c, List.mem_append_right _ List.mem_cons_self, rfl⟩

theorem of_done {n : NativePort} (h : want.Sublist (log (natives outputs))) : Fate want id (outputs ++ out) n :=
  .inl (h.trans (log_sublist outputs out))

theorem same {n n' : NativePort} (h : Fate want id outputs n) (hline : n'.line = n.line)
    (hagenda : agenda (outputs ++ out) n' = agenda outputs n) : Fate want id (outputs ++ out) n' := by
  rcases h with hdone | ⟨before, c, after, front, heq, hid, hfront, hwant⟩
  · exact .of_done hdone
  · exact .inr ⟨before, c, after, front, hline.trans heq, hid, hagenda.trans hfront, hwant⟩

/-- **The reactor goes on.** -/
theorem moves {n n' : NativePort} {nOut : List Native.Output} (h : Fate want id outputs n) (hm : Native.Moves n n' nOut)
    (hfits : Native.Fits n) (hroom : n.Room) : Fate want id (outputs ++ nOut.map .native) n' := by
  have howed := hm.owed hfits hroom
  have hagenda : agenda (outputs ++ nOut.map .native) n' = agenda outputs n := by
    rw [agenda, natives_append, natives_native, Native.log_append, List.append_assoc, howed, agenda]
  rcases hm.line hfits with hline | ⟨first, hline, rfl, hrest⟩
  · exact h.same hline hagenda
  rcases h with hdone | ⟨before, c, after, front, heq, hid, hfront, hwant⟩
  · exact .of_done hdone
  cases before with
  | nil =>
    -- its own turn is over
    obtain ⟨rfl, hafter⟩ := List.cons.inj (hline.symm.trans heq)
    rw [agenda, hrest, hafter] at hfront
    exact .of_done (List.append_cancel_right hfront ▸ hwant)
  | cons other before =>
    obtain ⟨-, hafter⟩ := List.cons.inj (hline.symm.trans heq)
    exact .inr ⟨before, c, after, front, hafter, hid, hagenda.trans hfront, hwant⟩

theorem enlist {n n' : NativePort} {c' : Command} (h : Fate want id outputs n) (hreactor : n'.reactor = n.reactor)
    (hchannel : n'.channel = n.channel ++ [c']) : Fate want id (outputs ++ [].map .native) n' := by
  rcases h with hdone | ⟨before, c, after, front, heq, hid, hfront, hwant⟩
  · exact .of_done hdone
  have howed : n'.owed = n.owed ++ ([c'].filter Command.ordered).flatMap atoms := by
    rw [NativePort.owed_line, NativePort.owed_line, NativePort.owing, NativePort.owing, hreactor, hchannel, List.filter_append,
      List.flatMap_append, List.append_assoc]
  refine .inr ⟨before, c, after ++ [c'].filter Command.ordered, front, ?_, hid, ?_, hwant⟩
  · rw [NativePort.line, hreactor, hchannel, List.filter_append, ← List.append_assoc, ← NativePort.line, heq,
      List.append_assoc]
    rfl
  · rw [agenda, howed, List.flatMap_append, ← List.append_assoc _ (after.flatMap atoms), ← hfront, agenda, natives_append,
      ← List.append_assoc]
    exact congrArg (fun l => log l ++ _ ++ _) (List.append_nil _)

/-- **Every step of the port and its native side.** -/
theorem step (h : Fate want id outputs s.native) (hl : Linked s) (htrying : Trying s.native)
    (hteardown : s.native.teardown = false) {i : Input} (hstep : system.step s i = some (s', out)) :
    Fate want id (outputs ++ out) s'.native := by
  -- JavaScript leaves the commands alone
  have henter {n : NativePort} {f : List Output} {js : Client} {jsOut : List Binding.Output}
      (hreactor : n.reactor = s.native.reactor) (hchannel : n.channel = s.native.channel) (hf : natives f = []) :
      Fate want id (outputs ++ (f ++ jsOut.map .js)) (enter n js jsOut) := by
    refine h.same ?_ (agenda_enter hreactor hchannel hf js jsOut)
    show n.reactor.commands ++ n.channel.filter _ = _
    rw [hreactor, hchannel]
    rfl
  cases system_step hstep with
  | js hi hjs => exact henter (f := []) rfl rfl rfl
  | answer hcall hcalling hjs => exact henter (f := [.answered _ _]) rfl rfl rfl
  | callback hcallbacks hjs => exact henter rfl rfl (Ordered.completions_quiet s _).1
  | native hi hn =>
    have hstays {n : NativePort} (hreactor : n.reactor = s.native.reactor) (hchannel : n.channel = s.native.channel) :
        Fate want id (outputs ++ [].map .native) n := by
      refine h.same (by rw [NativePort.line, NativePort.line, hreactor, hchannel]) ?_
      rw [agenda, agenda, NativePort.owed, NativePort.owed, NativePort.owing, NativePort.owing, hreactor, hchannel,
        natives_append, natives_native, List.append_nil]
    cases native_nativeStep hl.attuned.fits hi hn with
    | reactor hm => exact h.moves hm hl.attuned.fits (hl.room hteardown)
    | stop | teardown => exact hstays rfl rfl
    | call hcall hstepCall =>
      obtain ⟨call, site, stage', -, -, -, -, hcallStep⟩ := hl.attuned.callStep hcall hstepCall
      cases hcallStep with
      | wrote hstage =>
        -- nothing is on its way
        have hops := hl.tracked.pendingOps
        rw [htrying _ _ (hstage ▸ hcall)] at hops
        have hnone : s.native.queued = [] := List.length_eq_zero_iff.1 (by omega)
        exact .of_done (h.done (hnone ▸ List.not_mem_nil))
      | pushed hstage hsub => exact h.enlist rfl rfl
      | goes | reserved | refused | undone => exact hstays rfl rfl

end Fate

/-! ### What was taken -/

theorem asked_unordered {front : List Taken} {t : Taken} (h : Native.ordered t.call = false) : asked (front ++ [t]) = asked front := by
  have hnone : asked [t] = [] := by
    show effects [t.call] = []
    rw [effects_singleton, Native.atoms_unordered ((Native.command_ordered _).trans h)]
  rw [asked_append, hnone, List.append_nil]

/-- The call that is taken without a promise is done at once, or it tops the credit up. -/
theorem taken_inline {c : Client} {call : NativeCall} {site : Site} (hcalling : c.calling = some (call, site)) {answer : Answer}
    {t : Taken} (h : taken c (.answer answer) = [t]) (hpromise : t.promise = none) :
    t.call = call ∧ (answer = .completed ∨ answer = .queued ∧ ∃ bytes slots, site = .credit bytes slots) := by
  cases answer with
  | thrown error => cases h
  | completed =>
    simp only [taken, hcalling] at h
    cases h
    exact ⟨rfl, .inl rfl⟩
  | queued =>
    cases site with
    | credit bytes slots =>
      simp only [taken, hcalling] at h
      cases h
      exact ⟨rfl, .inr ⟨rfl, bytes, slots, rfl⟩⟩
    | write | request =>
      simp only [taken, hcalling] at h
      cases h
      cases hpromise

/-- **What was taken is done, or in the line**, and a promise of it resolves where it is done. -/
structure Fated (calls : List Taken) (outputs : List Output) (s : System) : Prop where
  queued : ∀ call site, s.js.calling = some (call, site) → s.native.call = some (.returned .queued) →
    Native.ordered call = true → Fate (asked calls ++ effects [call]) call.id outputs s.native
  completed : ∀ call site, s.js.calling = some (call, site) → s.native.call = some (.returned .completed) →
    (asked calls ++ effects [call]).Sublist (log (natives outputs))
  inline : ∀ front t, front ++ [t] <+: calls → t.promise = none → Native.ordered t.call = true →
    (asked (front ++ [t])).Sublist (log (natives outputs))
  promised : ∀ front t promise, front ++ [t] <+: calls → t.promise = some promise → Native.ordered t.call = true →
    promise < s.js.promises ∧ s.js.Ticket t.call.id promise ∧ Fate (asked (front ++ [t])) t.call.id outputs s.native ∧
      ∀ event, s.js.result (.promise promise) = some (.ok event) → (asked (front ++ [t])).Sublist (log (natives outputs))

namespace Fated

theorem start (path : String) (nextId : ℕ) : Fated [] [] (System.new path nextId) := by
  refine ⟨nofun, nofun, fun front t h => ?_, fun front t promise h => ?_⟩ <;>
    exact absurd (List.prefix_nil.1 h) (by simp)

theorem idle (h : Fated calls outputs s) (hqueued : s.native.queued = []) {front : List Taken} (hfront : front <+: calls) :
    (asked front).Sublist (log (natives outputs)) := by
  induction front using List.reverseRecOn with
  | nil => exact List.nil_sublist _
  | append_singleton front t ih =>
    cases hordered : Native.ordered t.call with
    | false =>
      rw [asked_unordered hordered]
      exact ih ((List.prefix_append _ _).trans hfront)
    | true =>
      cases hpromise : t.promise with
      | none => exact h.inline front t hfront hpromise hordered
      | some promise =>
        obtain ⟨-, -, hfate, -⟩ := h.promised front t promise hfront hpromise hordered
        exact hfate.done (hqueued ▸ List.not_mem_nil)

/-- **A call of the native handle goes on.** -/
theorem called (h : Fated calls outputs s) (hl : Linked s) (hhanded : Handed calls outputs s) {stage : Native.Call}
    {writer : Native.Io ℕ} {n : NativePort} {nOut : List Native.Output} (hcall : s.native.call = some stage)
    (hstep : s.native.stepCall stage writer = some (n, nOut)) {call : NativeCall} {site : Site}
    (hcalling : s.js.calling = some (call, site)) :
    (n.call = some (.returned .queued) → Native.ordered call = true →
      Fate (asked calls ++ effects [call]) call.id (outputs ++ nOut.map .native) n) ∧
    (n.call = some (.returned .completed) →
      (asked calls ++ effects [call]).Sublist (log (natives (outputs ++ nOut.map .native)))) := by
  obtain ⟨call', site', hcalling', hstaged⟩ := hl.attuned.staged hcall
  obtain ⟨rfl, rfl⟩ := Prod.mk.inj (Option.some.inj (hcalling'.symm.trans hcalling))
  refine ⟨fun hc hordered => ?_, fun hc => ?_⟩
  · obtain ⟨c, rfl, hreceiving, rfl, rfl⟩ := Native.stepCall_queued hstep hc
    have hsub : Native.Submits call' c := by
      cases hstaged with
      | send hsub => exact hsub
    have hhanding := hhanded.handing c (.inr hcall) hreceiving
    have hprogress : s.progress = [call'] := by
      unfold System.progress
      rw [hcall, hcalling]
      rfl
    rw [hprogress] at hhanding
    have hc : [c].filter Command.ordered = [c] := List.filter_cons_of_pos (hsub.ordered.trans hordered)
    refine .inr ⟨s.native.line, c, [], asked calls ++ effects [call'], ?_, hsub.id, ?_, List.Sublist.refl _⟩
    · rw [NativePort.line, NativePort.line, List.filter_append, hc, ← List.append_assoc]
    · rw [← hhanding]
      show log (natives (outputs ++ [])) ++ (s.native.owing ++ (s.native.channel ++ [c]).flatMap atoms) = _
      rw [List.append_nil, List.flatMap_append, List.flatMap_singleton, ← List.append_assoc s.native.owing,
        ← List.append_assoc, List.flatMap_nil, List.append_nil]
      rfl
  · obtain ⟨id, data, rfl, rfl⟩ := Native.stepCall_completed hstep hc
    -- nothing else is on its way
    have hops := hl.tracked.pendingOps
    rw [hhanded.trying _ _ hcall] at hops
    have hdone := h.idle (List.length_eq_zero_iff.1 (by omega)) List.prefix_rfl
    have heffects : effects [call'] = Native.bytes (Native.payload call') := by
      cases hstaged with
      | tryWrite hmay =>
        rw [effects_singleton, Native.command_of_mayComplete hmay]
        rfl
    cases hstaged
    rw [heffects, natives_append, natives_native, Native.log_append]
    refine hdone.append ?_
    show (Native.bytes (Native.payload call')).Sublist (Native.bytes (Native.payload call') ++ [])
    rw [List.append_nil]

/-- **A step of JavaScript that takes nothing.** -/
theorem js (h : Fated calls outputs s) {w : Binding.Writer} (hat : s.js.At w) {i : Binding.Input} {js : Client} {n : NativePort}
    {jsOut : List Binding.Output} (hstep : client.step s.js i = some (js, jsOut))
    (hfate : ∀ {want id}, Fate want id outputs s.native → Fate want id (outputs ++ out) n)
    (hreplied : ∀ id, Client.Resolves id i → id ∉ s.native.queued)
    (hqueued : n.call ≠ some (.returned .queued)) (hcompleted : n.call ≠ some (.returned .completed)) :
    Fated calls (outputs ++ out) ⟨js, n⟩ := by
  refine ⟨fun _ _ _ hc => absurd hc hqueued, fun _ _ _ hc => absurd hc hcompleted, fun front t hfront hpromise hordered =>
    (h.inline front t hfront hpromise hordered).trans (log_sublist _ _), fun front t promise hfront hpromise hordered => ?_⟩
  obtain ⟨hmade, hticket, hold, hdone⟩ := h.promised front t promise hfront hpromise hordered
  obtain ⟨hticket', hresult⟩ := Client.step_ticket hat hmade hticket hstep
  refine ⟨hmade.trans_le (Client.promises_mono hstep), hticket', hfate hold, fun event hevent => ?_⟩
  refine List.Sublist.trans ?_ (log_sublist _ _)
  rcases hresult event hevent with hevent | hi
  · exact hdone event hevent
  · exact hold.done (hreplied _ hi)

/-- **The promise of an ordered call that is queued.** -/
theorem ticket {call : NativeCall} {site : Site} {js : Client} {jsOut : List Binding.Output} {w : Binding.Writer}
    (hat : s.js.At w) (hcalled : Called s.js) (hcalling : s.js.calling = some (call, site))
    (hstep : client.step s.js (.answer .queued) = some (js, jsOut)) (hordered : Native.ordered call = true) :
    s.js.promises < js.promises ∧ js.Ticket call.id s.js.promises ∧ js.result (.promise s.js.promises) = none := by
  have hsite : site.ordered = true := by
    rcases hcalled _ _ hcalling with ⟨length, bytes, slots, rfl, -⟩ | ⟨op, id, rfl, hsite, -⟩
    · cases hordered
    · rw [hsite, ← operation_ordered op id (s.js.port.ordered == 1), hordered]
  obtain ⟨answer, hi, hanswered, -⟩ := Client.step_calling (i := .answer .queued) hstep hcalling
  obtain rfl := Binding.Input.answer.inj hi
  have hresults : js.results = s.js.results := by
    have h := Client.answered_results { s.js with calling := none } call site .queued
    rw [hanswered] at h
    exact h
  have hnone : js.results.lookup s.js.promises = none := by
    rw [hresults]
    exact hat.made.lookup_none (le_refl _)
  cases Client.step_requestStep hstep with
  | queued hc hsite' ha =>
    rw [hcalling] at hc
    cases hc
    have hpending : js.port.pending = s.js.port.pending ++ [(call.id, ⟨s.js.promises, true⟩)] := hsite ▸ ha.pending
    refine ⟨ha.promises, .waiting hnone ?_ fun record hmem heq => ?_, hnone⟩
    · rw [hpending]
      exact List.mem_append_right _ (List.mem_singleton_self _)
    · rw [hpending] at hmem
      rcases List.mem_append.1 hmem with hmem | hmem
      · exact absurd heq (hat.made.pending record hmem).ne
      · exact List.mem_singleton.1 hmem
  | method hi hc => rw [hcalling] at hc; cases hc
  | dropped hc hsite ha => exact absurd rfl ha
  | credited hc => rw [hcalling] at hc; cases hc; cases hsite
  | other hc hsame hout hi ha => exact absurd rfl (ha _)

/-- The command of an event that resolves a promise is not in the line. -/
theorem replied (hl : Linked s) {allocate : ℕ → Native.Allocation} {event : CallbackEvent} {callbacks : List CallbackEvent}
    (hcallbacks : s.native.callbacks = event :: callbacks) (hresolves : Client.Resolves id (.callback (event.callback allocate))) :
    id ∉ s.native.queued := by
  obtain ⟨nativeEvent, hinput, hid, hopened, hclosed⟩ := hresolves
  obtain rfl := Tracked.callback_event (Binding.Input.callback.inj hinput)
  have hreplies : id ∈ s.native.replies := by
    have heqs := (Tracked.callback_eqs (s := s) s.js [] hcallbacks).2.2
    rw [heqs, (Native.reply_event hopened hclosed).1, ← hid]
    exact List.mem_cons_self
  have hunfinished : s.js.port.finished = false := by
    by_contra hfinished
    have hnil := (hl.tracked.finished (by simpa using hfinished)).1
    rw [hcallbacks] at hnil
    cases hnil
  have hnodup := (hl.tracked.tracks hunfinished).perm.nodup_iff.2 hl.attuned.records_nodup
  rw [List.append_assoc] at hnodup
  exact fun hqueued => (List.nodup_append.1 hnodup).2.2 id hreplies id (List.mem_append_left _ hqueued) rfl

theorem entered {n : NativePort} (hcall : n.call = none) (js : Client) (jsOut : List Binding.Output) (answer : Answer) :
    (enter n js jsOut).call ≠ some (.returned answer) := by
  intro h
  obtain ⟨call, heq⟩ := enter_check hcall js jsOut _ h
  cases heq

/-- **Every step keeps it.** -/
theorem step (h : Fated calls outputs s) (hl : Linked s) (hhanded : Handed calls outputs s)
    (hteardown : s.native.teardown = false) {w : Binding.Writer} (hat : s.js.At w) {i : Input}
    (hstep : system.step s i = some (s', out)) : Fated (calls ++ s.taken i) (outputs ++ out) s' := by
  have hfate {want : List Atom} {id : ℕ} (hold : Fate want id outputs s.native) : Fate want id (outputs ++ out) s'.native :=
    hold.step hl hhanded.trying hteardown hstep
  have hnothing : s.taken i = [] → Fated calls (outputs ++ out) s' → Fated (calls ++ s.taken i) (outputs ++ out) s' := by
    intro hnone hkept
    rwa [hnone, List.append_nil]
  cases system_step hstep with
  | js hi hjs =>
    have hidle := hl.attuned.call.idle (jsInput_calling hi hjs)
    refine hnothing rfl (h.js hat hjs hfate ?_ (entered hidle _ _ _) (entered hidle _ _ _))
    rintro id ⟨event, rfl, -⟩
    cases hi
  | callback hcallbacks hjs =>
    rename_i allocate event callbacks js jsOut
    have hidle := hl.attuned.call.idle (calling_none hjs (fun _ h => nomatch h))
    exact hnothing rfl (h.js hat hjs hfate (fun id hresolves => replied hl hcallbacks hresolves)
      (entered (n := { s.native with callbacks := callbacks }) hidle _ _ _)
      (entered (n := { s.native with callbacks := callbacks }) hidle _ _ _))
  | native hi hn =>
    rename_i i n nOut
    refine hnothing rfl ?_
    have hkept (hqueued : ∀ call site, s.js.calling = some (call, site) → n.call = some (.returned .queued) →
          Native.ordered call = true → Fate (asked calls ++ effects [call]) call.id (outputs ++ nOut.map .native) n)
        (hcompleted : ∀ call site, s.js.calling = some (call, site) → n.call = some (.returned .completed) →
          (asked calls ++ effects [call]).Sublist (log (natives (outputs ++ nOut.map .native)))) :
        Fated calls (outputs ++ nOut.map .native) ⟨s.js, n⟩ := by
      refine ⟨hqueued, hcompleted, fun front t hfront hpromise hordered =>
        (h.inline front t hfront hpromise hordered).trans (log_sublist _ _), ?_⟩
      intro front t promise hfront hpromise hordered
      obtain ⟨hmade, hticket, hold, hdone⟩ := h.promised front t promise hfront hpromise hordered
      exact ⟨hmade, hticket, hfate hold, fun event hevent => (hdone event hevent).trans (log_sublist _ _)⟩
    have hsame (hcall : n.call = s.native.call) : Fated calls (outputs ++ nOut.map .native) ⟨s.js, n⟩ :=
      hkept (fun call site hcalling hc hordered => hfate (h.queued call site hcalling (hcall.symm.trans hc) hordered))
        (fun call site hcalling hc => (h.completed call site hcalling (hcall.symm.trans hc)).trans (log_sublist _ _))
    cases native_nativeStep hl.attuned.fits hi hn with
    | reactor hm => exact hsame hm.apart.call
    | stop | teardown => exact hsame rfl
    | call hcall hstepCall =>
      exact hkept (fun call site hcalling => (h.called hl hhanded hcall hstepCall hcalling).1)
        (fun call site hcalling => (h.called hl hhanded hcall hstepCall hcalling).2)
  | answer hcall hcalling hjs =>
    rename_i answer call site js jsOut
    have hno := entered (n := { s.native with call := none }) rfl js jsOut
    have hkept := h.js hat hjs hfate (by rintro id ⟨event, hi, -⟩; cases hi) (hno _) (hno _)
    have hlast : s.taken .answer = Composition.taken s.js (.answer answer) := by simp only [System.taken, hcall]
    have hasked (t : Taken) : asked (calls ++ [t]) = asked calls ++ effects [t.call] := asked_append calls [t]
    rw [hlast]
    refine ⟨fun _ _ _ hc => absurd hc (hno _), fun _ _ _ hc => absurd hc (hno _), fun front t hfront hpromise hordered => ?_,
      fun front t promise hfront hpromise hordered => ?_⟩
    · rcases taken_last hcalling hfront with hfront | ⟨rfl, htaken⟩
      · exact hkept.inline front t hfront hpromise hordered
      · obtain ⟨rfl, rfl | ⟨rfl, bytes, slots, rfl⟩⟩ := taken_inline hcalling htaken hpromise
        · exact hasked t ▸ (h.completed t.call site hcalling hcall).trans (log_sublist _ _)
        · -- a credit is not ordered
          rcases hl.attuned.called _ _ hcalling with ⟨length, bytes', slots', heq, -⟩ | ⟨op, id, -, -, hsite⟩
          · rw [heq] at hordered
            cases hordered
          · exact absurd rfl (hsite bytes slots)
    · rcases taken_last hcalling hfront with hfront | ⟨rfl, htaken⟩
      · exact hkept.promised front t promise hfront hpromise hordered
      · obtain ⟨rfl, rfl, rfl⟩ := taken_queued hcalling htaken hpromise
        obtain ⟨hmade, hticket, hnone⟩ := ticket hat hl.attuned.called hcalling hjs hordered
        refine ⟨hmade, hticket, hasked t ▸ hfate (h.queued t.call site hcalling hcall hordered), fun event hevent => ?_⟩
        cases hnone.symm.trans hevent

end Fated

/-! ### How far a write is on the device -/

section

variable {c c' : Client} {w w' : Writer} {method : ℕ} {done done' : List Atom} {jsOutputs jsOut : List Binding.Output}
  {writes : List (ℕ × Method)}

/-- What was taken of a write is done. -/
def Backed (method : ℕ) (calls : List Taken) (done : List Atom) : Prop :=
  ∃ front, front <+: calls ∧ carried method front = carried method calls ∧ (asked front).Sublist done

theorem Backed.mono (h : Backed method calls done) {more : List Taken} (hmore : carried method more = [])
    (hdone : done.Sublist done') : Backed method (calls ++ more) done' := by
  obtain ⟨front, hfront, hcarried, hasked⟩ := h
  refine ⟨front, hfront.trans (List.prefix_append _ _), ?_, hasked.trans hdone⟩
  rw [carried_append, hmore, List.append_nil, hcarried]

theorem Backed.fresh (h : carried method calls = []) : Backed method calls done :=
  ⟨[], List.nil_prefix, h.symm, List.nil_sublist _⟩

/-- **What a write waits for**: what was taken of it is done, or is done where the promise resolves. -/
inductive Awaits (method : ℕ) (calls : List Taken) (done : List Atom) (c : Client) : Awaited → Prop
  | backed {awaited : Awaited} (h : Backed method calls done) : Awaits method calls done c awaited
  | ticket {front : List Taken} {t : Taken} {promise : ℕ} (hfront : front ++ [t] <+: calls)
      (hcarried : carried method (front ++ [t]) = carried method calls) (hpromise : t.promise = some promise)
      (hordered : Native.ordered t.call = true) : Awaits method calls done c (.promise promise)
  | failed {awaited : Awaited} {error : SerialError} (h : c.result awaited = some (.error error)) :
      Awaits method calls done c awaited

namespace Awaits

variable {awaited : Awaited}

theorem mono (h : Awaits method calls done c awaited) {more : List Taken} (hmore : carried method more = [])
    (hdone : done.Sublist done') (hresult : ∀ result, c.result awaited = some result → c'.result awaited = some result) :
    Awaits method (calls ++ more) done' c' awaited := by
  cases h with
  | backed h => exact .backed (h.mono hmore hdone)
  | ticket hfront hcarried hpromise hordered =>
    refine .ticket (hfront.trans (List.prefix_append _ _)) ?_ hpromise hordered
    rw [hcarried, carried_append, hmore, List.append_nil]
  | failed h => exact .failed (hresult _ h)

theorem resolved (h : Awaits method calls done c awaited) {event : Option NativeEvent} (hresult : c.result awaited = some (.ok event))
    (hbacked : ∀ front t promise, front ++ [t] <+: calls → t.promise = some promise → Native.ordered t.call = true →
      ∀ event, c.result (.promise promise) = some (.ok event) → (asked (front ++ [t])).Sublist done) :
    Backed method calls done := by
  cases h with
  | backed h => exact h
  | ticket hfront hcarried hpromise hordered =>
    exact ⟨_, hfront, hcarried, hbacked _ _ _ hfront hpromise hordered _ hresult⟩
  | failed h => cases h.symm.trans hresult

end Awaits

/-- **How far the write in progress is on the device.** -/
inductive Filling (calls : List Taken) (done : List Atom) (c : Client) : Writer → Prop
  | idle : Filling calls done c .idle
  | submitting {method : ℕ} {buffer : JsBuffer} : Filling calls done c (.submitting method buffer)
  | waiting {method : ℕ} {awaited : Awaited} (h : Awaits method calls done c awaited) : Filling calls done c (.waiting method awaited)
  | calling {method promise : ℕ} {rest : List Batch} {batch : Batch} :
      Filling calls done c (.batching method promise rest (.calling batch))
  | awaiting {method promise : ℕ} {rest : List Batch} {awaited : Awaited} (h : Awaits method calls done c awaited) :
      Filling calls done c (.batching method promise rest (.awaiting awaited))

namespace Filling

theorem advances {promise : ℕ} {rest : List Batch} (hbacked : Backed method calls done)
    (h : Client.Advances c method promise rest w) : Filling calls done c w := by
  cases h with
  | done hresult => exact .waiting (.backed hbacked)
  | called => exact .calling
  | refused => exact .awaiting (.failed rfl)

theorem ordered_batch (batch : Batch) (id : ℕ) (inline : Bool) : Native.ordered (batch.operation.call id inline) = true := by
  rw [operation_ordered, Client.operation_ordered_batch]

theorem submitted {call : NativeCall} {site : Site} (hcalling : c.calling = some (call, site))
    (hsite : ∀ bytes slots, site ≠ .credit bytes slots) (hordered : Native.ordered call = true) :
    Awaits method (calls ++ taken c (.answer .queued)) done' c' (.promise c.promises) := by
  have htaken : taken c (.answer .queued) = [⟨site, call, some c.promises⟩] := by
    cases site with
    | credit bytes slots => exact absurd rfl (hsite bytes slots)
    | write | request => simp only [taken, hcalling]
  rw [htaken]
  exact .ticket List.prefix_rfl rfl rfl hordered

theorem completed {call : NativeCall} {site : Site} (hcalling : c.calling = some (call, site))
    (h : (asked calls ++ effects [call]).Sublist done') : Backed method (calls ++ taken c (.answer .completed)) done' := by
  have htaken : taken c (.answer .completed) = [⟨site, call, none⟩] := by simp [taken, hcalling]
  refine ⟨_, List.prefix_rfl, rfl, ?_⟩
  rw [htaken, asked_append]
  exact h

theorem awaited_queued {promise : ℕ} {rest : List Batch} {batch : Batch} {awaited : Awaited}
    (hat : c.At (.batching method promise rest (.calling batch))) (hat' : c'.At (.batching method promise rest (.awaiting awaited)))
    (hstep : client.step c (.answer .queued) = some (c', jsOut)) : awaited = .promise c.promises := by
  obtain ⟨id, inline, hcalling⟩ := hat.calling_batch
  obtain ⟨answer, hi, hanswered, -⟩ := Client.step_calling (i := .answer .queued) hstep hcalling
  obtain rfl := Binding.Input.answer.inj hi
  obtain ⟨rfl, -⟩ := Prod.mk.inj hanswered
  have htasks : (c.tasks ++ [(Awaited.promise c.promises, Binding.Task.batches rest promise)]).filter (·.2.writes) =
      [(.promise promise, .write method), (awaited, .batches rest promise)] := hat'.tasks
  have hwriters : c.tasks.filter (·.2.writes) = [(.promise promise, .write method)] := hat.tasks
  have hloop : [(Awaited.promise c.promises, Binding.Task.batches rest promise)].filter (·.2.writes) =
      [(.promise c.promises, .batches rest promise)] := rfl
  rw [List.filter_append, hwriters, hloop] at htasks
  simpa using htasks.symm

/-- **One step of the port.** -/
theorem step (h : Filling calls done c w) (hat : c.At w) (hat' : c'.At w') (hn : w.Numbered)
    (hfresh : carried c.promises calls = []) {i : Binding.Input} (hstep : client.step c i = some (c', jsOut))
    (hw : WriterStep c i c' jsOut w w') (hdone : done.Sublist done')
    (hbacked : ∀ front t promise, front ++ [t] <+: calls → t.promise = some promise → Native.ordered t.call = true →
      ∀ event, c.result (.promise promise) = some (.ok event) → (asked (front ++ [t])).Sublist done)
    (hinline : i = .answer .completed → ∀ call site, c.calling = some (call, site) →
      (asked calls ++ effects [call]).Sublist done') : Filling (calls ++ taken c i) done' c' w' := by
  have hresult {awaited : Awaited} (result) (h : c.result awaited = some result) : c'.result awaited = some result :=
    Client.step_result (i := i) hstep h
  have hstays (hmore : ∀ method, w.method? = some method → carried method (taken c i) = []) :
      Filling (calls ++ taken c i) done' c' w := by
    cases h with
    | idle => exact .idle
    | submitting => exact .submitting
    | waiting h => exact .waiting (h.mono (hmore _ rfl) hdone hresult)
    | calling => exact .calling
    | awaiting h => exact .awaiting (h.mono (hmore _ rfl) hdone hresult)
  cases hw with
  | stays hmoves => exact hstays fun _ _ => carried_aside hmoves
  | refused hi =>
    subst hi
    exact hstays fun _ _ => rfl
  | loops hi hbuffers hadvances =>
    subst hi
    exact advances (.fresh (by rw [carried_append, hfresh]; rfl)) hadvances
  | begins => exact .submitting
  | empty hi =>
    subst hi
    exact .waiting (.backed (.fresh (by rw [carried_append, hfresh]; rfl)))
  | thrown | ends => exact .idle
  | completed hi =>
    obtain ⟨id, inline, hwriting⟩ := hat.calls
    have hcalling := (Option.filter_eq_some_iff.1 hwriting).1
    have hdone' := hinline hi _ _ hcalling
    subst hi
    exact .waiting (.backed (completed hcalling hdone'))
  | queued hi =>
    obtain ⟨id, inline, hwriting⟩ := hat.calls
    subst hi
    exact .waiting (submitted (Option.filter_eq_some_iff.1 hwriting).1 nofun rfl)
  | @answered method promise rest batch answer awaited hi ha =>
    subst hi
    obtain ⟨id, inline, hcalling⟩ := hat.calling_batch
    cases answer with
    | thrown error =>
      rw [ha error rfl]
      exact .awaiting (.failed rfl)
    | completed => exact .awaiting (.backed (completed hcalling (hinline rfl _ _ hcalling)))
    | queued =>
      rw [awaited_queued hat hat' hstep]
      exact .awaiting (submitted hcalling nofun (ordered_batch _ _ _))
  | failed hi htask hresult' h' => exact .waiting (.failed h')
  | goes hi htask hresult' hadvances =>
    subst hi
    cases h with
    | awaiting h => exact advances ((h.resolved hresult' hbacked).mono rfl hdone) hadvances

end Filling

/-- A write that resolves had waited for a promise that resolved. -/
theorem waited {i : Binding.Input} (hw : WriterStep c i c' jsOut w w') (hmethod : w.method? = some method)
    (hends : w'.method? ≠ some method) {result : Option NativeEvent} (hmem : .returned method (.ok result) ∈ jsOut) :
    ∃ awaited, w = .waiting method awaited ∧ c.result awaited = some (.ok result) := by
  rcases hw.goes_on hmethod with hgoes | -
  · exact absurd hgoes hends
  cases hw with
  | stays | refused => exact absurd hmethod hends
  | loops | begins | empty => cases hmethod
  | thrown hi hout =>
    rw [hout] at hmem
    cases List.mem_singleton.1 hmem
  | completed | queued | answered | failed => exact absurd hmethod hends
  | goes hi htask hresult ha => exact absurd (ha.method_eq.trans hmethod) hends
  | ends hi hresult hout =>
    rw [hout] at hmem
    cases List.mem_singleton.1 hmem
    exact ⟨_, rfl, hresult⟩

/-- **The writes that were called**: one is in progress, the others are over, and what resolved is on the device. -/
structure Filled (writes : List (ℕ × Method)) (calls : List Taken) (outputs : List Binding.Output) (done : List Atom)
    (c : Client) : Prop where
  writer : ∃ w, c.At w ∧ w.Numbered ∧ Filling calls done c w ∧ ∀ write ∈ writes,
    Written write.1 write.2.data calls outputs c w ∧
      (w.method? = some write.1 ∧ write.1 ∉ Binding.returns outputs ∨ write.1 ∉ c.methods)
  returned : ∀ method ∈ Binding.returns outputs, method < c.promises
  settled : ∀ write ∈ writes, ∀ result, .returned write.1 (.ok result) ∈ outputs →
    ∃ front, front <+: calls ∧ carried write.1 front = write.2.data ∧ (asked front).Sublist done

namespace Filled

theorem start (path : String) (nextId : ℕ) : Filled [] [] [] [] (Client.new path nextId) := by
  refine ⟨⟨.idle, .start path nextId, ?_, .idle, fun _ hmem => absurd hmem List.not_mem_nil⟩, fun _ h => absurd h List.not_mem_nil,
    fun _ h => absurd h List.not_mem_nil⟩
  intro _ _ _ _ hw
  cases hw

theorem mono (h : Filled writes calls jsOutputs done c) (hdone : done.Sublist done') : Filled writes calls jsOutputs done' c := by
  obtain ⟨⟨w, hat, hn, hfilling, hwritten⟩, hreturned, hsettled⟩ := h
  refine ⟨⟨w, hat, hn, ?_, hwritten⟩, hreturned, fun write hmem result hresult => ?_⟩
  · have hawaits {method : ℕ} {awaited : Awaited} (h : Awaits method calls done c awaited) : Awaits method calls done' c awaited :=
      List.append_nil calls ▸ h.mono (show carried method [] = [] from rfl) hdone (fun _ h => h)
    cases hfilling with
    | idle => exact .idle
    | submitting => exact .submitting
    | waiting h => exact .waiting (hawaits h)
    | calling => exact .calling
    | awaiting h => exact .awaiting (hawaits h)
  · obtain ⟨front, hfront, hcarried, hasked⟩ := hsettled write hmem result hresult
    exact ⟨front, hfront, hcarried, hasked.trans hdone⟩

theorem begun_eq {i : Binding.Input} {write : ℕ × Method} (h : write ∈ begun c i) :
    write.1 = c.promises ∧ i = .invoke write.2 ∧ write.2.writes = true := by
  cases i with
  | invoke m =>
    simp only [begun] at h
    split at h
    · rename_i hwrites
      obtain rfl := List.mem_singleton.1 h
      exact ⟨rfl, rfl, hwrites⟩
    · cases h
  | _ => cases h

/-- **Every step of the port keeps it.** -/
theorem step (h : Filled writes calls jsOutputs done c) (hwrites : Writes writes calls jsOutputs c) {i : Binding.Input}
    (hstep : client.step c i = some (c', jsOut)) (hdone : done.Sublist done')
    (hbacked : ∀ front t promise, front ++ [t] <+: calls → t.promise = some promise → Native.ordered t.call = true →
      ∀ event, c.result (.promise promise) = some (.ok event) → (asked (front ++ [t])).Sublist done)
    (hinline : i = .answer .completed → ∀ call site, c.calling = some (call, site) →
      (asked calls ++ effects [call]).Sublist done') :
    Filled (writes ++ begun c i) (calls ++ taken c i) (jsOutputs ++ jsOut) done' c' := by
  obtain ⟨⟨w, hat, hn, hfilling, hwritten⟩, hreturned, hsettled⟩ := h
  obtain ⟨w', hat', hw⟩ := Client.step_writer (i := i) hat hstep
  have hm := hwrites.methodical
  have hfresh : c.promises ∉ Binding.returns jsOutputs := fun hmem => lt_irrefl _ (hreturned _ hmem)
  -- what returns in this step was not over
  have hhands {method : ℕ} (hmem : method ∈ Binding.returns jsOut) : method ∈ c.methods ++ c.starts i :=
    (Client.step_hands (i := i) hstep).subset (List.mem_append_right _ hmem)
  have hprogress {method : ℕ} (hmethod : w'.method? = some method) : method ∉ Binding.returns jsOut :=
    hm.not_returns hstep (hat'.method_mem hmethod)
  refine ⟨⟨w', hat', hw.numbered hn, hfilling.step hat hat' hn (hwrites.fresh _ le_rfl) hstep hw hdone hbacked hinline, ?_⟩, ?_, ?_⟩
  · intro write hmem
    have hplace (hmethod : w'.method? = some write.1) (hnot : write.1 ∉ Binding.returns jsOutputs) :
        write.1 ∉ Binding.returns (jsOutputs ++ jsOut) := by
      rw [Binding.returns_append, List.mem_append]
      exact not_or.2 ⟨hnot, hprogress hmethod⟩
    rcases List.mem_append.1 hmem with hmem | hmem
    · obtain ⟨hold, hplaced⟩ := hwritten write hmem
      refine ⟨hold.step hat hn (hwrites.made write hmem) hstep hw, ?_⟩
      rcases hplaced with ⟨hmethod, hnot⟩ | hnot
      · rcases hw.goes_on hmethod with hmethod' | ⟨result, hresult⟩
        · exact .inl ⟨hmethod', hplace hmethod' hnot⟩
        · exact .inr (hm.ended hstep (Binding.mem_returns hresult))
      · refine .inr fun hmem' => ?_
        rcases List.mem_append.1 ((Client.step_hands (i := i) hstep).subset (List.mem_append_left _ hmem')) with hmem' | hmem'
        · exact hnot hmem'
        · have := (Client.starts_lt hstep hmem').1
          have := hwrites.made write hmem
          omega
    · obtain ⟨hmethod, rfl, hm'⟩ := begun_eq hmem
      obtain ⟨method, m⟩ := write
      obtain rfl : method = c.promises := hmethod
      refine ⟨?_, ?_⟩
      · show Written c.promises m.data (calls ++ []) _ c' w'
        rw [List.append_nil]
        exact .start hw hm' (hwrites.fresh _ le_rfl)
      · by_cases hrefused : ∃ result, .returned c.promises result ∈ jsOut
        · obtain ⟨result, hresult⟩ := hrefused
          exact .inr (hm.ended hstep (Binding.mem_returns hresult))
        · have hmethod' := hw.invoked rfl hm' (not_exists.1 hrefused)
          exact .inl ⟨hmethod', hplace hmethod' hfresh⟩
  · intro method hmem
    rw [Binding.returns_append] at hmem
    rcases List.mem_append.1 hmem with hmem | hmem
    · exact (hreturned method hmem).trans_le (Client.promises_mono hstep)
    · rcases List.mem_append.1 (hhands hmem) with hmem | hmem
      · exact (hm.made method hmem).trans_le (Client.promises_mono hstep)
      · exact (Client.starts_lt hstep hmem).2
  · intro write hmem result hresult
    rcases List.mem_append.1 hmem with hmem | hmem
    · rcases List.mem_append.1 hresult with hresult | hresult
      · obtain ⟨front, hfront, hcarried, hasked⟩ := hsettled write hmem result hresult
        exact ⟨front, hfront.trans (List.prefix_append _ _), hcarried, hasked.trans hdone⟩
      · have hreturns := Binding.mem_returns hresult
        obtain ⟨hold, hplaced⟩ := hwritten write hmem
        rcases hplaced with ⟨hmethod, hnot⟩ | hnot
        · obtain ⟨awaited, rfl, hok⟩ := waited hw hmethod (fun h => hprogress h hreturns) hresult
          have hdata : carried write.1 calls = write.2.data := by
            cases hold with
            | complete hdata => exact hdata
            | rejected herror => exact absurd (Binding.mem_returns herror) hnot
            | failed herror => cases herror.symm.trans hok
          cases hfilling with
          | waiting hawaits =>
            obtain ⟨front, hfront, hcarried, hasked⟩ := hawaits.resolved hok hbacked
            exact ⟨front, hfront.trans (List.prefix_append _ _), hcarried.trans hdata, hasked.trans hdone⟩
        · rcases List.mem_append.1 (hhands hreturns) with hmem' | hmem'
          · exact absurd hmem' hnot
          · have := (Client.starts_lt hstep hmem').1
            have := hwrites.made write hmem
            omega
    · obtain ⟨hmethod, rfl, -⟩ := begun_eq hmem
      rw [hmethod] at hresult
      rcases List.mem_append.1 hresult with hresult | hresult
      · exact absurd (Binding.mem_returns hresult) hfresh
      · cases Client.step_returned (i := .invoke write.2) hstep hresult with
        | refused _ hresult => cases hresult

end Filled

end

/-! ### Over a run -/

theorem Fated.filled {writes : List (ℕ × Method)} (h : Fated calls outputs s)
    (hfilled : Filled writes calls (jsOutputs outputs) (log (natives outputs)) s.js)
    (hwrites : Writes writes calls (jsOutputs outputs) s.js) {i : Input} (hstep : system.step s i = some (s', out)) :
    Filled (writes ++ s.begun i) (calls ++ s.taken i) (jsOutputs (outputs ++ out)) (log (natives (outputs ++ out))) s'.js := by
  have hbacked : ∀ front t promise, front ++ [t] <+: calls → t.promise = some promise → Native.ordered t.call = true →
      ∀ event, s.js.result (.promise promise) = some (.ok event) → (asked (front ++ [t])).Sublist (log (natives outputs)) :=
    fun front t promise hfront hpromise hordered => (h.promised front t promise hfront hpromise hordered).2.2.2
  rw [jsOutputs_append]
  cases system_step hstep with
  | js hi hjs =>
    rename_i j js jsOut
    have hnone : s.taken (.js j) = taken s.js j := by
      cases j with
      | answer => cases hi
      | _ => rfl
    rw [hnone, jsOutputs_js]
    refine hfilled.step hwrites hjs (log_sublist _ _) hbacked ?_
    rintro rfl
    cases hi
  | native hi hn =>
    show Filled (writes ++ []) (calls ++ []) _ _ _
    rw [List.append_nil, List.append_nil, jsOutputs_native, List.append_nil]
    exact hfilled.mono (log_sublist _ _)
  | answer hcall hcalling hjs =>
    rename_i answer call site js jsOut
    have hlast : s.taken .answer = taken s.js (.answer answer) := by simp only [System.taken, hcall]
    have hout : Composition.jsOutputs (.answered call answer :: jsOut.map .js) = jsOut := jsOutputs_js jsOut
    rw [hlast, hout]
    refine hfilled.step hwrites hjs (log_sublist _ _) hbacked fun hi call' site' hcalling' => ?_
    obtain rfl := Binding.Input.answer.inj hi
    exact (h.completed call' site' hcalling' hcall).trans (log_sublist _ _)
  | callback hcallbacks hjs =>
    rw [jsOutputs_append (s.completions _), completions_js, List.nil_append, jsOutputs_js]
    exact hfilled.step hwrites hjs (log_sublist _ _) hbacked fun hi => by cases hi

/-- **Every reachable state.** -/
theorem Filled.run {path : String} {nextId : ℕ} (hnextId : Binding.BindingPort.InRange nextId) {inputs : List Input}
    (hrun : system.run (System.new path nextId) inputs = some (s, outputs)) (hteardown : s.native.teardown = false) :
    Filled (system.collect System.begun (System.new path nextId) inputs)
      (system.collect System.taken (System.new path nextId) inputs) (jsOutputs outputs) (log (natives outputs)) s.js := by
  have hP := Machine.run_rule_all (fun inputs outputs (s : System) =>
    system.run (System.new path nextId) inputs = some (s, outputs) ∧ Attuned s ∧ (s.native.teardown = false →
      Fated (system.collect System.taken (System.new path nextId) inputs) outputs s ∧
      Filled (system.collect System.begun (System.new path nextId) inputs)
        (system.collect System.taken (System.new path nextId) inputs) (jsOutputs outputs) (log (natives outputs)) s.js)) ?_ ?_
    hrun
  · exact (hP.2.2 hteardown).2
  · exact ⟨rfl, .start path hnextId, fun _ => ⟨.start path nextId, .start path nextId⟩⟩
  · rintro inputs outputs s i s' out ⟨hrun, hattuned, h⟩ hstep
    refine ⟨Machine.run_append hrun (Machine.run_singleton hstep), hattuned.step hstep, fun hteardown' => ?_⟩
    have hteardown := step_teardown hattuned hstep hteardown'
    obtain ⟨hfated, hfilled⟩ := h hteardown
    obtain ⟨hwrites, hserving⟩ := Serving.run hnextId hrun
    obtain ⟨hlinked, hhanded, -⟩ := hserving hteardown
    obtain ⟨w, hat, -⟩ := hwrites.writer
    rw [Machine.collect_snoc hrun, Machine.collect_snoc hrun]
    exact ⟨hfated.step hlinked hhanded hteardown hat hstep, hfated.filled hfilled hwrites hstep⟩

/-- **A write that resolves is on the device.**  Over every run of a port and its native side, as long as the callback queue
is not torn down: where a call of `write` or `writev` resolves, its bytes were taken by the native handle, and the device did
all that was taken up to the last of them, in order.  As long as the port is open for work, nothing else came in between. -/
theorem write_waits (path : String) (nextId : ℕ) (hnextId : Binding.BindingPort.InRange nextId) (inputs : List Input)
    (s : System) (outputs : List Output) (hrun : system.run (System.new path nextId) inputs = some (s, outputs))
    (hteardown : s.native.teardown = false) (method : ℕ) (write : Method)
    (hbegun : (method, write) ∈ system.collect System.begun (System.new path nextId) inputs) (result : Option NativeEvent)
    (hresolved : .js (.returned method (.ok result)) ∈ outputs) :
    ∃ front, front <+: system.collect System.taken (System.new path nextId) inputs ∧ carried method front = write.data ∧
      (asked front).Sublist (log (natives outputs)) ∧ (Live s.native → asked front <+: log (natives outputs)) ∧
      ((∀ buffer ∈ write.buffers, buffer.length = buffer.bytes.length) →
        write.data = write.buffers.flatMap JsBuffer.bytes) := by
  obtain ⟨front, hfront, hcarried, hasked⟩ :=
    (Filled.run hnextId hrun hteardown).settled _ hbegun result (mem_jsOutputs.2 hresolved)
  refine ⟨front, hfront, hcarried, hasked, fun hlive => ?_, Method.data_eq⟩
  obtain ⟨-, hserving⟩ := Serving.run hnextId hrun
  have hdevice := (Ordered.run hnextId hrun hlive).device
  -- both are what was taken, up to somewhere
  have hcalls : asked (system.collect System.taken (System.new path nextId) inputs) = effects (accepted outputs) :=
    congrArg effects (hserving hteardown).handed.accepted
  have htaken : asked front <+: effects (accepted outputs) ++ effects s.progress := by
    obtain ⟨more, hmore⟩ := hfront
    refine List.IsPrefix.trans ?_ (List.prefix_append _ _)
    rw [← hcalls, ← hmore, asked_append]
    exact List.prefix_append _ _
  have hlog : log (natives outputs) <+: effects (accepted outputs) ++ effects s.progress := by
    rw [← hdevice, List.append_assoc]
    exact List.prefix_append _ _
  exact List.prefix_of_prefix_length_le htaken hlog hasked.length_le

/-- The write of which the device takes one byte at once is done, and resolves. -/
def writeAndResolve : List Input :=
  partialWrite ++ [.native (.reactor .run), .native (.reactor .run), .native (.reactor .received), .native (.reactor .run),
    .native (.reactor .run), .native (.reactor (.transfer .pending (.ready 2))), .native (.reactor .run),
    .native (.reactor .run), .native (.reactor .run), .native (.reactor .run), .callback (fun _ => .ok 0), .js (.resume 0)]

theorem write_waits_partial : ∃ s outputs, system.run (System.new "/dev/ttyS0" 1) writeAndResolve = some (s, outputs) ∧
    Live s.native ∧ log (natives outputs) = [.byte 1, .byte 2, .byte 3] ∧ ∃ front,
      asked front <+: log (natives outputs) ∧ carried 1 front = [1, 2, 3] := by
  obtain ⟨s, outputs, hrun, hstop, hreceiving, hteardown, hresolved, hlog⟩ :
      ∃ s outputs, system.run (System.new "/dev/ttyS0" 1) writeAndResolve = some (s, outputs) ∧ s.native.stop = false ∧
        s.native.receiving = true ∧ s.native.teardown = false ∧
        (jsOutputs outputs).getLast? = some (.returned 1 (.ok (some { kind := .ok, id := 1 }))) ∧
        log (natives outputs) = [.byte 1, .byte 2, .byte 3] := ⟨_, _, rfl, rfl, rfl, rfl, rfl, by decide⟩
  have hbegun : (1, .write (.ofBytes [1, 2, 3])) ∈
      system.collect System.begun (System.new "/dev/ttyS0" 1) writeAndResolve := List.mem_singleton_self _
  obtain ⟨front, -, hcarried, -, hprefix, -⟩ := write_waits "/dev/ttyS0" 1 ⟨by decide, by decide⟩ writeAndResolve s outputs hrun
    hteardown 1 _ hbegun _ (mem_jsOutputs.1 (List.mem_of_getLast? hresolved))
  exact ⟨s, outputs, hrun, ⟨hstop, hreceiving, hteardown⟩, hlog, front, hprefix ⟨hstop, hreceiving, hteardown⟩, hcarried⟩

end NodeSerialport.Composition
