import NodeSerialport.Binding.Delivery
import Mathlib.Data.List.Perm.Basic
/-!
# Requests and their promises

An operation the native handle queues gets a record under its id and a promise; the completion event with that id, or
the close event, settles the promise and takes the record away.

* `Client.submitting` — the operation in the hands of the native handle;
* `Counted`, `Promised` — the invariants of the counters, and of the promises;
* `requests_settle_once` — no request is settled twice, or by the event of another.
-/

namespace NodeSerialport.Binding

open Parsers (Buffer)
open Lib (Machine)
open BindingPort (InRange)

/-! ### The operation being submitted -/

theorem Operation.call_id (op : Operation) (id : ℕ) (inline : Bool) : (op.call id inline).id = id := by
  cases op <;> rfl

theorem Operation.ordered_of_mayComplete {op : Operation} {id : ℕ} {inline : Bool}
    (h : (op.call id inline).mayComplete = true) : op.ordered = true := by
  cases op with
  | read length => cases h
  | _ => rfl

/-- The id of the operation in the hands of the native handle, and whether it is ordered. -/
def Client.submitting (c : Client) : Option (ℕ × Bool) :=
  match c.calling with
  | none | some (_, .credit ..) => none
  | some (call, site) => some (call.id, site.ordered)

theorem Client.submitting_none {c : Client} (h : c.calling = none) : c.submitting = none := by
  rw [submitting, h]

theorem Client.submitting_credit {c : Client} {call : NativeCall} {bytes slots : ℤ}
    (h : c.calling = some (call, .credit bytes slots)) : c.submitting = none := by
  rw [submitting, h]

theorem Client.submitting_some {c : Client} {call : NativeCall} {site : Site} (h : c.calling = some (call, site))
    (hsite : ∀ bytes slots, site ≠ .credit bytes slots) : c.submitting = some (call.id, site.ordered) := by
  rw [submitting, h]
  cases site with
  | credit bytes slots => exact absurd rfl (hsite bytes slots)
  | _ => rfl

/-- How many ordered records there are. -/
def BindingPort.orderedRecords (p : BindingPort) : ℕ := p.pending.countP (·.2.ordered)

/-- **The counters**: `_ordered` counts the ordered records and the operation being submitted, whose id is free. -/
structure Counted (c : Client) : Prop where
  ordered : c.port.ordered = c.port.orderedRecords + match c.submitting with
    | some (_, true) => 1
    | _ => 0
  room : c.port.pending.length + (if c.submitting.isSome then 1 else 0) ≤ 64
  fresh : ∀ id ordered, c.submitting = some (id, ordered) → id ∉ c.port.ids ∧ InRange id
  completes : ∀ call site, c.calling = some (call, site) → (∀ bytes slots, site ≠ .credit bytes slots) →
    call.mayComplete = true → site.ordered = true
  nextId : InRange c.port.nextId
  ids_nodup : c.port.ids.Nodup
  ids_inRange : ∀ id ∈ c.port.ids, InRange id

namespace Counted

variable {c c' : Client}

theorem start (path : String) {nextId : ℕ} (h : InRange nextId) : Counted (Client.new path nextId) := by
  refine ⟨rfl, Nat.zero_le _, ?_, ?_, h, List.nodup_nil, ?_⟩
  · intro id ordered hs
    cases hs
  · intro call site hs
    cases hs
  · intro id hid
    cases hid

theorem of_idle (h : Counted c) (hpending : c'.port.pending = c.port.pending) (hnextId : InRange c'.port.nextId)
    (hsubmitting : c'.submitting = none) (hcalling : ∀ call site, c'.calling = some (call, site) →
      ∃ bytes slots, site = .credit bytes slots)
    (hordered : c'.port.ordered = c.port.orderedRecords) : Counted c' := by
  have hids : c'.port.ids = c.port.ids := by rw [BindingPort.ids, hpending]; rfl
  have hroom := h.room
  refine ⟨?_, ?_, ?_, ?_, hnextId, hids ▸ h.ids_nodup, hids ▸ h.ids_inRange⟩
  · rw [hsubmitting, BindingPort.orderedRecords, hpending, hordered]
    exact (Int.add_zero _).symm
  · rw [hsubmitting, hpending]
    exact (Nat.le_add_right _ _).trans hroom
  · intro id ordered hs
    rw [hsubmitting] at hs
    cases hs
  · intro call site hc hsite
    obtain ⟨bytes, slots, rfl⟩ := hcalling call site hc
    exact absurd rfl (hsite bytes slots)

theorem ordered_idle (h : Counted c) (hs : c.submitting = none) : c.port.ordered = c.port.orderedRecords := by
  have := h.ordered
  rw [hs] at this
  rw [this]
  exact Int.add_zero _

/-- A method, before it waits or while the native handle is called. -/
theorem submits (h : Counted c) (hcalling : c.calling = none) {asked : Ask} {out : List Output}
    (hsub : Submits asked c (c', out)) : Counted c' := by
  have hidle := h.ordered_idle (Client.submitting_none hcalling)
  have hnextId := hsub.frame.nextId h.nextId
  cases hsub.submission with
  | none hc ho =>
    exact h.of_idle hsub.frame.pending hnextId (Client.submitting_none hc) (fun call site hs => nomatch hc ▸ hs)
      (ho.trans hidle)
  | credit length bytes slots hasked hcredit hc hopen ho =>
    refine h.of_idle hsub.frame.pending hnextId (Client.submitting_credit hc) (fun call site hs => ?_) (ho.trans hidle)
    rw [hc] at hs
    exact ⟨bytes, slots, by cases hs; rfl⟩
  | operation op site room hsite hcredit hasked hc hopen ho =>
    have hpending := hsub.frame.pending
    have hids : c'.port.ids = c.port.ids := by rw [BindingPort.ids, hpending]; rfl
    have hsubmitting := Client.submitting_some hc hcredit
    rw [Operation.call_id] at hsubmitting
    refine ⟨?_, ?_, ?_, ?_, hnextId, hids ▸ h.ids_nodup, hids ▸ h.ids_inRange⟩
    · rw [hsubmitting, BindingPort.orderedRecords, hpending, ho, hidle, hsite]
      cases op.ordered <;> rfl
    · rw [hsubmitting, hpending]
      exact room
    · intro id ordered hs
      rw [hsubmitting] at hs
      cases hs
      rw [hids]
      exact ⟨BindingPort._id_free h.nextId (by omega), BindingPort._id_inRange h.nextId⟩
    · intro call site' hs _ hmay
      rw [hc] at hs
      cases hs
      rw [hsite]
      exact Operation.ordered_of_mayComplete hmay

theorem dropped (h : Counted c) {call : NativeCall} {site : Site} {answer : Answer} (hcalling : c.calling = some (call, site))
    (hsite : ∀ bytes slots, site ≠ .credit bytes slots) (ha : answer ≠ .queued)
    (hmay : answer = .completed → call.mayComplete = true) :
    Counted ({ c with calling := none }.answered call site answer).1 := by
  obtain ⟨-, hf, hnone⟩ := Client.answered_dropped (c := c) call hsite ha
  have hcompleted : answer = .completed → site.ordered = true := fun hc => h.completes call site hcalling hsite (hmay hc)
  have ho := Client.answered_dropped_ordered (c := c) call hsite ha hcompleted
  refine h.of_idle hf.pending (hf.nextId h.nextId) (Client.submitting_none hnone) (fun _ _ hs => nomatch hnone ▸ hs) ?_
  rw [ho, h.ordered, Client.submitting_some hcalling hsite]
  cases site.ordered <;> simp

theorem queued (h : Counted c) {call : NativeCall} {site : Site} (hcalling : c.calling = some (call, site))
    (hsite : ∀ bytes slots, site ≠ .credit bytes slots) (ha : Alike (c.recorded call.id site.ordered) c') : Counted c' := by
  have hsubmitting := Client.submitting_some hcalling hsite
  have hnone : c'.calling = none := ha.calling
  have hpending : c'.port.pending = c.port.pending ++ [(call.id, ⟨c.promises, site.ordered⟩)] := ha.pending
  have hids : c'.port.ids = c.port.ids ++ [call.id] := by
    rw [BindingPort.ids, hpending, List.map_append]
    rfl
  obtain ⟨hfree, hrange⟩ := h.fresh _ _ hsubmitting
  have hroom := h.room
  rw [hsubmitting] at hroom
  refine ⟨?_, ?_, ?_, ?_, ?_, ?_, ?_⟩
  · rw [Client.submitting_none hnone, ha.ordered, BindingPort.orderedRecords, hpending, List.countP_append]
    show c.port.ordered = _
    rw [h.ordered, hsubmitting, BindingPort.orderedRecords]
    cases site.ordered <;> simp
  · rw [Client.submitting_none hnone, hpending, List.length_append]
    exact hroom
  · intro id ordered hs
    rw [Client.submitting_none hnone] at hs
    cases hs
  · intro call site hs
    rw [hnone] at hs
    cases hs
  · rw [ha.nextId]
    exact h.nextId
  · rw [hids]
    exact List.nodup_append.2 ⟨h.ids_nodup, List.nodup_singleton _, fun a ha b hb => by
      rw [List.mem_singleton.1 hb]
      rintro rfl
      exact hfree ha⟩
  · intro id hid
    rw [hids, List.mem_append, List.mem_singleton] at hid
    rcases hid with hid | rfl
    · exact h.ids_inRange id hid
    · exact hrange

end Counted

/-! ### What an event does to the records -/

/-- **What an event does to the records**: nothing, or it settles the operation with its id, or it is the close event
and settles them all. -/
inductive EventStep (c : Client) (event : NativeEvent) : Client → List Output → Prop
  | none {c' : Client} {out : List Output} (pending : c'.port.pending = c.port.pending)
      (ordered : c'.port.ordered = c.port.ordered) (finished : c'.port.finished = c.port.finished)
      (settlements : settlements out = []) (hclosed : event.kind = .closed → c.port.finished = true)
      (hfree : event.kind ≠ .opened → event.kind ≠ .closed → event.id ∉ c.port.ids) : EventStep c event c' out
  | settled {c' : Client} {out : List Output} {before after : List (ℕ × Pending)} {pending : Pending}
      (hsplit : c.port.pending = before ++ (event.id, pending) :: after) (pending' : c'.port.pending = before ++ after)
      (ordered : c'.port.ordered = c.port.ordered - if pending.ordered then 1 else 0)
      (finished : c'.port.finished = c.port.finished)
      (settlements : settlements out = [(pending.promise, .event event.id)]) (hclosed : event.kind ≠ .closed)
      (hopened : event.kind ≠ .opened) : EventStep c event c' out
  | closed {c' : Client} {out : List Output} (pending : c'.port.pending = []) (ordered : c'.port.ordered = 0)
      (finished : c'.port.finished = true)
      (settlements : settlements out = c.port.pending.map fun record => (record.2.promise, Cause.close))
      (hkind : event.kind = .closed) : EventStep c event c' out

namespace Client

variable {c : Client}

/-- The part of the state an event leaves alone. -/
structure SameCalls (c c' : Client) : Prop where
  nextId : c'.port.nextId = c.port.nextId
  calling : c'.calling = c.calling
  promises : c'.promises = c.promises

theorem SameCalls.submitting {c' : Client} (h : SameCalls c c') : c'.submitting = c.submitting := by
  unfold Client.submitting
  rw [h.calling]

theorem settle_eventStep (c : Client) (event : NativeEvent) (hkind : event.kind ≠ .closed)
    (hopened : event.kind ≠ .opened) (error : Option SerialError) :
    EventStep c event (c._settle event.id error event).1 (c._settle event.id error event).2 ∧
      acceptances (c._settle event.id error event).2 = [] ∧ SameCalls c (c._settle event.id error event).1 := by
  unfold _settle
  cases hlookup : c.port.pending.lookup event.id with
  | none =>
    have hfree : event.id ∉ c.port.ids := by
      rw [List.lookup_eq_none_iff] at hlookup
      intro hmem
      obtain ⟨record, hrecord, hid⟩ := List.mem_map.1 hmem
      exact bne_iff_ne.1 (hlookup record hrecord) hid.symm
    exact ⟨.none rfl rfl rfl rfl (fun hc => absurd hc hkind) (fun _ _ => hfree), rfl, rfl, rfl, rfl⟩
  | some pending =>
    obtain ⟨before, after, hsplit, hbefore⟩ := List.lookup_eq_some_iff.1 hlookup
    have herase : c.port.pending.eraseP (·.1 == event.id) = before ++ after := by
      rw [hsplit, List.eraseP_append_right, List.eraseP_cons_of_pos (by simp)]
      intro record hrecord
      have hne := hbefore record hrecord
      rw [bne_iff_ne] at hne
      exact fun h => hne (beq_iff_eq.1 h).symm
    refine ⟨.settled hsplit ?_ ?_ ?_ rfl hkind hopened, rfl, ?_⟩
    all_goals
      simp only [BindingPort.unrecord, BindingPort.release, Client.settle]
      cases pending.ordered
    · exact herase
    · exact herase
    · exact (Int.sub_zero _).symm
    · rfl
    · rfl
    · rfl
    · exact ⟨rfl, rfl, rfl⟩
    · exact ⟨rfl, rfl, rfl⟩

theorem event_eventStep (c : Client) (event : NativeEvent) :
    EventStep c event (c._event event).1 (c._event event).2 ∧ acceptances (c._event event).2 = [] ∧
      SameCalls c (c._event event).1 := by
  unfold _event
  cases hkind : event.kind with
  | opened =>
    have hclosed : event.kind = .closed → c.port.finished = true := by
      intro hc
      rw [hkind] at hc
      cases hc
    dsimp only
    split
    · exact ⟨.none rfl rfl rfl rfl hclosed (fun h => absurd hkind h), rfl, rfl, rfl, rfl⟩
    · have hopened := openedOutputs_quiet (c.port.opened = none) (.ok ())
      exact ⟨.none rfl rfl rfl hopened.settlements hclosed (fun h => absurd hkind h), hopened.acceptances, rfl, rfl, rfl⟩
  | closed =>
    obtain ⟨-, -, hacceptances⟩ := finishClose_quiet c (c.port.failure.or
      (if event.message.getD "" = "" then none else some (c.port._nativeError event)))
    refine ⟨?_, hacceptances, ?_⟩
    all_goals
      simp only [_finishClose]
      split
    · rename_i hfinished
      exact .none rfl rfl rfl rfl (fun _ => hfinished) fun _ h => absurd hkind h
    · refine .closed rfl rfl rfl ?_ hkind
      have hopened := openedOutputs_quiet (c.port.opened = none) (.error (c.port.closeReason (c.port.failure.or
        (if event.message.getD "" = "" then none else some (c.port._nativeError event)))))
      rw [settlements_append, settlements_append, hopened.settlements]
      simp [settlements, Output.settled?, List.filterMap_map, Function.comp_def]
    · exact ⟨rfl, rfl, rfl⟩
    · exact ⟨rfl, rfl, rfl⟩
  | read => exact settle_eventStep c event (by rw [hkind]; decide) (by rw [hkind]; decide) _
  | ok => exact settle_eventStep c event (by rw [hkind]; decide) (by rw [hkind]; decide) _
  | error => exact settle_eventStep c event (by rw [hkind]; decide) (by rw [hkind]; decide) _

/-- **An event with the id of a record** settles its promise. -/
theorem event_settles (hnodup : c.port.ids.Nodup) {event : NativeEvent} (hopened : event.kind ≠ .opened)
    (hclosed : event.kind ≠ .closed) {record : Pending} (hmem : (event.id, record) ∈ c.port.pending) :
    (c._event event).2 = [.settled record.promise (.event event.id)
      (if event.kind = .error then .error (c.port._nativeError event) else .ok (some event))] := by
  have hlookup : c.port.pending.lookup event.id = some record := by
    cases hfound : c.port.pending.lookup event.id with
    | none =>
      rw [List.lookup_eq_none_iff] at hfound
      exact absurd rfl (bne_iff_ne.1 (hfound _ hmem))
    | some pending =>
      obtain ⟨before, after, hsplit, -⟩ := List.lookup_eq_some_iff.1 hfound
      have hmem' : (event.id, pending) ∈ c.port.pending := hsplit ▸ List.mem_append_right _ List.mem_cons_self
      have hsame := List.inj_on_of_nodup_map hnodup hmem' hmem rfl
      rw [(Prod.mk.inj hsame).2]
  have hsettle : c._event event = c._settle event.id
      (if event.kind = .error then some (c.port._nativeError event) else none) event := by
    unfold _event
    cases hkind : event.kind with
    | opened => exact absurd hkind hopened
    | closed => exact absurd hkind hclosed
    | _ => rfl
  rw [hsettle]
  unfold _settle
  rw [hlookup]
  by_cases hkind : event.kind = .error
  · simp only [if_pos hkind]
  · simp only [if_neg hkind]

end Client

theorem Counted.event {c c' : Client} (h : Counted c) (hcalling : c.calling = none) {event : NativeEvent}
    {out : List Output} (hstep : EventStep c event c' out) (hsame : c.SameCalls c') : Counted c' := by
  have hidle := h.ordered_idle (Client.submitting_none hcalling)
  have hnone : c'.calling = none := hsame.calling.trans hcalling
  have hnextId : InRange c'.port.nextId := by
    rw [hsame.nextId]
    exact h.nextId
  have hsub : c'.port.pending.Sublist c.port.pending → c'.port.ordered = c'.port.orderedRecords → Counted c' := by
    intro hpending hordered
    have hids : c'.port.ids.Sublist c.port.ids := hpending.map _
    have hroom := h.room
    refine ⟨?_, ?_, ?_, ?_, hnextId, h.ids_nodup.sublist hids, fun id hid => h.ids_inRange id (hids.subset hid)⟩
    · rw [Client.submitting_none hnone]
      exact hordered.trans (Int.add_zero _).symm
    · rw [Client.submitting_none hnone]
      exact hpending.length_le.trans ((Nat.le_add_right _ _).trans hroom)
    · intro id ordered hs
      rw [Client.submitting_none hnone] at hs
      cases hs
    · intro call site hs
      rw [hnone] at hs
      cases hs
  cases hstep with
  | none hpending hordered hfinished hsettlements =>
    refine hsub (by rw [hpending]) ?_
    rw [hordered, hidle, BindingPort.orderedRecords, BindingPort.orderedRecords, hpending]
  | settled hsplit hpending hordered hfinished hsettlements =>
    refine hsub ?_ ?_
    · rw [hpending, hsplit]
      exact (List.Sublist.refl _).append (List.sublist_cons_self _ _)
    · rw [hordered, hidle, BindingPort.orderedRecords, BindingPort.orderedRecords, hpending, hsplit, List.countP_append,
        List.countP_append, List.countP_cons]
      push_cast
      split <;> omega
  | closed hpending hordered hfinished hsettlements =>
    refine hsub (by rw [hpending]; exact List.nil_sublist _) ?_
    rw [hordered, BindingPort.orderedRecords, hpending]
    rfl

/-! ### Deliveries leave the records alone -/

namespace Client

variable {c c' : Client}

/-- The records, the counters and the promises are the same. -/
structure SameRequests (c c' : Client) : Prop extends SameCalls c c' where
  pending : c'.port.pending = c.port.pending
  ordered : c'.port.ordered = c.port.ordered
  finished : c'.port.finished = c.port.finished

/-- Outputs that concern no request. -/
def NoRequest (out : List Output) : Prop := acceptances out = [] ∧ settlements out = []

theorem SameRequests.refl (c : Client) : SameRequests c c := ⟨⟨rfl, rfl, rfl⟩, rfl, rfl, rfl⟩

theorem Passes.requests (h : c.Passes c' out) : SameRequests c c' ∧ NoRequest out := by
  cases h <;> exact ⟨⟨⟨rfl, rfl, rfl⟩, rfl, rfl, rfl⟩, rfl, rfl⟩

theorem queueRead_requests (c : Client) (item : Item) : SameRequests c (c.queueRead item) := by
  obtain ⟨pendingRead, queuedReads, heq⟩ := queueRead_queues c item
  rw [heq]
  exact ⟨⟨rfl, rfl, rfl⟩, rfl, rfl, rfl⟩

theorem throws_requests (c : Client) (rest : List Buffer) : SameRequests c
    (if rest ≠ [] ∧ c.port.isOpen then { c with onData := none }.retainRead rest else { c with onData := none }) := by
  split <;> exact ⟨⟨rfl, rfl, rfl⟩, rfl, rfl, rfl⟩

/-- **What a step does to the requests**: a method submits, an answer records or drops, an event settles, and every
other step does nothing. -/
inductive RequestStep (c : Client) : Input → Client → List Output → Prop
  | method {i : Input} {c' : Client} {out : List Output} (hi : (∃ m, i = .invoke m) ∨ ∃ index, i = .resume index)
      (hcalling : c.calling = none) (h : Submits i.asked c (c', out)) : RequestStep c i c' out
  | dropped {answer : Answer} {call : NativeCall} {site : Site} {c' : Client} {out : List Output}
      (hcalling : c.calling = some (call, site)) (hsite : ∀ bytes slots, site ≠ .credit bytes slots)
      (ha : answer ≠ .queued) (hmay : answer = .completed → call.mayComplete = true)
      (h : c' = ({ c with calling := none }.answered call site answer).1)
      (hout : out = ({ c with calling := none }.answered call site answer).2) :
      RequestStep c (.answer answer) c' out
  | queued {call : NativeCall} {site : Site} {c' : Client} (hcalling : c.calling = some (call, site))
      (hsite : ∀ bytes slots, site ≠ .credit bytes slots) (h : Alike (c.recorded call.id site.ordered) c') :
      RequestStep c (.answer .queued) c' [.accepted call.id c.promises site.ordered]
  | credited {answer : Answer} {call : NativeCall} {bytes slots : ℤ} {c' : Client} {out : List Output}
      (hcalling : c.calling = some (call, .credit bytes slots)) (hnone : c'.calling = none)
      (h : SameRequests { c with calling := none } c') (hout : NoRequest out) : RequestStep c (.answer answer) c' out
  | event {event : NativeEvent} {c' : Client} {out : List Output} (hidle : c.idle = true) (h : EventStep c event c' out)
      (hsame : SameCalls c c') (hout : acceptances out = []) : RequestStep c (.callback (.event event)) c' out
  | other {i : Input} {c' : Client} {out : List Output} (hcalling : c.calling = none) (h : SameRequests c c')
      (hout : NoRequest out) (hi : ∀ event, i ≠ .callback (.event event)) (ha : ∀ answer, i ≠ .answer answer) :
      RequestStep c i c' out

theorem step_requestStep {i : Input} {out : List Output} (hstep : client.step c i = some (c', out)) :
    RequestStep c i c' out := by
  cases step_stepped hstep with
  | method hi hcalling hsub => exact .method hi hcalling hsub
  | dropped hcalling hsite ha hmay hc hout => exact .dropped hcalling hsite ha hmay hc hout
  | queued hcalling hsite ha => exact .queued hcalling hsite ha
  | creditRefused hcalling => exact .credited hcalling rfl (.refl _) ⟨rfl, rfl⟩
  | creditTaken hcalling ha => exact .credited hcalling rfl ⟨⟨rfl, rfl, rfl⟩, rfl, rfl, rfl⟩ ⟨rfl, rfl⟩
  | failed hidle hout =>
    rename_i error lost
    have hsame : SameRequests c { c with port := { c.port with failure := some error } } :=
      ⟨⟨rfl, rfl, rfl⟩, rfl, rfl, rfl⟩
    exact .other (idle_calling hidle) hsame ⟨hout.acceptances, hout.settlements⟩ (fun _ h => nomatch h)
      (fun _ h => nomatch h)
  | read hidle =>
    exact .other (idle_calling hidle) (queueRead_requests c _) ⟨rfl, rfl⟩ (fun _ h => nomatch h) (fun _ h => nomatch h)
  | event hidle =>
    obtain ⟨h, hout, hsame⟩ := event_eventStep c _
    exact .event hidle h hsame hout
  | microtask hidle hm =>
    obtain ⟨h, hout⟩ := (deliverRead_passes { c with microtasks := c.microtasks - 1 }).requests
    exact .other (idle_calling hidle) ⟨⟨h.nextId, h.calling, h.promises⟩, h.pending, h.ordered, h.finished⟩ hout
      (fun _ h => nomatch h) (fun _ h => nomatch h)
  | returns hcalling hrest =>
    obtain ⟨h, hout⟩ := (deliverBatch_passes c _).requests
    exact .other hcalling h hout (fun _ h => nomatch h) (fun _ h => nomatch h)
  | throws hcalling hrest =>
    exact .other hcalling (throws_requests c _) ⟨rfl, rfl⟩ (fun _ h => nomatch h) (fun _ h => nomatch h)

end Client

/-- **Every step keeps the counters.** -/
theorem Counted.step {c c' : Client} (h : Counted c) {i : Input} {out : List Output}
    (hstep : client.step c i = some (c', out)) : Counted c' := by
  cases Client.step_requestStep hstep with
  | method hi hcalling hsub => exact h.submits hcalling hsub
  | dropped hcalling hsite ha hmay hc hout =>
    rw [hc]
    exact h.dropped hcalling hsite ha hmay
  | queued hcalling hsite ha => exact h.queued hcalling hsite ha
  | credited hcalling hnone hsame hout =>
    refine h.of_idle hsame.pending (hsame.nextId.symm ▸ h.nextId) (Client.submitting_none hnone)
      (fun _ _ hs => nomatch hnone ▸ hs) ?_
    exact hsame.ordered.trans (h.ordered_idle (Client.submitting_credit hcalling))
  | event hidle hev hsame hout => exact h.event (Client.idle_calling hidle) hev hsame
  | other hcalling hsame hout hi ha =>
    refine h.of_idle hsame.pending (hsame.nextId.symm ▸ h.nextId) (hsame.submitting.trans (Client.submitting_none hcalling))
      (fun _ _ hs => nomatch (hsame.calling.trans hcalling) ▸ hs) ?_
    exact hsame.ordered.trans (h.ordered_idle (Client.submitting_none hcalling))

/-! ### Promises -/

/-- **The promises**: each was made for one accepted operation, and is either settled, once, or held by the record of
its operation. -/
structure Promised (outputs : List Output) (c : Client) : Prop where
  made : ∀ e ∈ acceptances outputs, e.2.promise < c.promises
  nodup : ((acceptances outputs).map fun e => e.2.promise).Nodup
  split : ((acceptances outputs).map fun e => e.2.promise).Perm
    ((settlements outputs).map Prod.fst ++ c.port.pending.map fun e => e.2.promise)
  recorded : ∀ e ∈ c.port.pending, e ∈ acceptances outputs
  own : ∀ s ∈ settlements outputs, ∃ e ∈ acceptances outputs,
    e.2.promise = s.1 ∧ (s.2 = .event e.1 ∨ s.2 = .close)

namespace Promised

variable {outputs out : List Output} {c c' : Client}

theorem start {c : Client} (h : c.port.pending = []) : Promised [] c :=
  ⟨nofun, List.nodup_nil, by rw [h]; exact List.Perm.refl _, by rw [h]; nofun, nofun⟩

theorem same (h : Promised outputs c) (hpending : c'.port.pending = c.port.pending) (hpromises : c.promises ≤ c'.promises)
    (hout : Client.NoRequest out) : Promised (outputs ++ out) c' := by
  have ha : acceptances (outputs ++ out) = acceptances outputs := by rw [acceptances_append, hout.1, List.append_nil]
  have hs : settlements (outputs ++ out) = settlements outputs := by rw [settlements_append, hout.2, List.append_nil]
  refine ⟨?_, by rw [ha]; exact h.nodup, by rw [ha, hs, hpending]; exact h.split, by rw [ha, hpending]; exact h.recorded,
    by rw [ha, hs]; exact h.own⟩
  intro e he
  rw [ha] at he
  exact (h.made e he).trans_le hpromises

/-- A step that settles some of the recorded operations, each for its own event or the close event. -/
theorem settles (h : Promised outputs c) (hpromises : c'.promises = c.promises) (hacceptances : acceptances out = [])
    (hsplit : (c.port.pending.map fun e => e.2.promise).Perm
      ((settlements out).map Prod.fst ++ c'.port.pending.map fun e => e.2.promise))
    (hsub : ∀ e ∈ c'.port.pending, e ∈ c.port.pending)
    (hown : ∀ s ∈ settlements out, ∃ e ∈ c.port.pending, e.2.promise = s.1 ∧ (s.2 = .event e.1 ∨ s.2 = .close)) :
    Promised (outputs ++ out) c' := by
  have ha : acceptances (outputs ++ out) = acceptances outputs := by
    rw [acceptances_append, hacceptances, List.append_nil]
  refine ⟨by rw [ha, hpromises]; exact h.made, by rw [ha]; exact h.nodup, ?_, ?_, ?_⟩
  · rw [ha, settlements_append, List.map_append, List.append_assoc]
    exact h.split.trans (hsplit.append_left _)
  · intro e he
    rw [ha]
    exact h.recorded e (hsub e he)
  · intro s hs
    rw [ha]
    rw [settlements_append, List.mem_append] at hs
    rcases hs with hs | hs
    · exact h.own s hs
    · obtain ⟨e, he, hes⟩ := hown s hs
      exact ⟨e, h.recorded e he, hes⟩

/-- **Every step keeps the promises.** -/
theorem step (h : Promised outputs c) {i : Input} (hstep : client.step c i = some (c', out)) :
    Promised (outputs ++ out) c' := by
  cases Client.step_requestStep hstep with
  | method hi hcalling hsub =>
    exact h.same hsub.frame.pending hsub.frame.promises ⟨hsub.silent.acceptances, hsub.silent.settlements⟩
  | dropped hcalling hsite ha hmay hc hout =>
    obtain ⟨hsilent, hf, -⟩ := Client.answered_dropped (c := c) _ hsite ha
    rw [hc, hout]
    exact h.same hf.pending hf.promises ⟨hsilent.acceptances, hsilent.settlements⟩
  | queued hcalling hsite ha =>
    rename_i call site
    have hacc : acceptances (outputs ++ [Output.accepted call.id c.promises site.ordered]) =
        acceptances outputs ++ [(call.id, ⟨c.promises, site.ordered⟩)] := by
      rw [acceptances_append]
      rfl
    have hset : settlements (outputs ++ [Output.accepted call.id c.promises site.ordered]) = settlements outputs := by
      rw [settlements_append]
      exact List.append_nil _
    have hpending : c'.port.pending = c.port.pending ++ [(call.id, ⟨c.promises, site.ordered⟩)] := ha.pending
    have hpromises : c.promises + 1 ≤ c'.promises := ha.promises
    refine ⟨?_, ?_, ?_, ?_, ?_⟩
    · intro e he
      rw [hacc, List.mem_append, List.mem_singleton] at he
      rcases he with he | rfl
      · exact (h.made e he).trans (Nat.lt_of_succ_le hpromises)
      · exact hpromises
    · rw [hacc, List.map_append]
      refine List.nodup_append.2 ⟨h.nodup, List.nodup_singleton _, ?_⟩
      intro a ha b hb
      obtain ⟨e, he, rfl⟩ := List.mem_map.1 ha
      rw [List.mem_singleton.1 hb]
      exact (h.made e he).ne
    · rw [hacc, hset, hpending, List.map_append, List.map_append, ← List.append_assoc]
      exact h.split.append_right _
    · intro e he
      rw [hpending, List.mem_append] at he
      rw [hacc, List.mem_append]
      exact he.imp_left (h.recorded e)
    · intro s hs
      rw [hset] at hs
      obtain ⟨e, he, hes⟩ := h.own s hs
      rw [hacc]
      exact ⟨e, List.mem_append_left _ he, hes⟩
  | credited hcalling hnone hsame hout => exact h.same hsame.pending (le_of_eq hsame.promises.symm) hout
  | event hidle hev hsame hout =>
    cases hev with
    | none hpending hordered hfinished hsettlements =>
      exact h.same hpending (le_of_eq hsame.promises.symm) ⟨hout, hsettlements⟩
    | settled hsplit hpending hordered hfinished hsettlements =>
      rename_i event before after pending hclosed hopened
      refine h.settles hsame.promises hout ?_ ?_ ?_
      · rw [hsettlements, hsplit, hpending, List.map_append, List.map_append, List.map_cons]
        exact List.perm_middle
      · intro e he
        rw [hpending, List.mem_append] at he
        rw [hsplit, List.mem_append, List.mem_cons]
        exact he.imp_right .inr
      · intro s hs
        rw [hsettlements, List.mem_singleton] at hs
        subst hs
        exact ⟨(event.id, pending), by rw [hsplit]; simp, rfl, .inl rfl⟩
    | closed hpending hordered hfinished hsettlements =>
      refine h.settles hsame.promises hout ?_ ?_ ?_
      · rw [hsettlements, hpending, List.map_map]
        simp [Function.comp_def]
      · rw [hpending]
        nofun
      · intro s hs
        rw [hsettlements] at hs
        obtain ⟨e, he, rfl⟩ := List.mem_map.1 hs
        exact ⟨e, he, rfl, .inr rfl⟩
  | other hcalling hsame hout hi ha => exact h.same hsame.pending (le_of_eq hsame.promises.symm) hout

end Promised

/-! ### Rejected submissions, and the close event -/

/-- **A rejected submission** leaves the records and their count as they were, whether it was rejected before the call
of the native handle or by it. -/
theorem Client.rejected_submission {c c₁ : Client} {i : Input}
    (hi : (∃ m, i = .invoke m) ∨ ∃ index, i = .resume index) {out : List Output}
    (hstep : client.step c i = some (c₁, out)) :
    c₁.port.pending = c.port.pending ∧ (c₁.calling = none → c₁.port.ordered = c.port.ordered) ∧
      ∀ error c₂ out', client.step c₁ (.answer (.thrown error)) = some (c₂, out') →
        c₂.port.pending = c.port.pending ∧ c₂.port.ordered = c.port.ordered := by
  have hsub : Submits i.asked c (c₁, out) := by
    rcases hi with ⟨m, rfl⟩ | ⟨index, rfl⟩
    · cases step_stepped hstep with
      | method _ _ hsub => exact hsub
    · cases step_stepped hstep with
      | method _ _ hsub => exact hsub
  have hpending : c₁.port.pending = c.port.pending := hsub.frame.pending
  refine ⟨hpending, ?_, ?_⟩
  · intro hnone
    cases hsub.submission with
    | none _ ho => exact ho
    | credit length bytes slots hasked hcredit hc hopen ho => exact ho
    | operation op site room hsite hcredit hasked hc hopen ho =>
      rw [hnone] at hc
      cases hc
  · intro error c₂ out' hthrown
    cases step_stepped hthrown with
    | method hi _ _ => rcases hi with ⟨m, hm⟩ | ⟨index, hindex⟩ <;> contradiction
    | dropped hc₁ hsite ha hmay hc hout =>
      rename_i call site
      obtain ⟨-, hf, -⟩ := answered_dropped (c := c₁) call hsite ha
      have hcount := answered_dropped_ordered (c := c₁) call hsite ha (fun h => nomatch h)
      rw [hc]
      refine ⟨hf.pending.trans hpending, ?_⟩
      rw [hcount]
      cases hsub.submission with
      | none hnone _ =>
        rw [hnone] at hc₁
        cases hc₁
      | credit length bytes slots hasked hcredit hcall hopen ho =>
        rw [hcall] at hc₁
        cases hc₁
        exact absurd rfl (hsite bytes slots)
      | operation op site' room hsite' hcredit hasked hcall hopen ho =>
        rw [hcall] at hc₁
        cases hc₁
        have ho' : c₁.port.ordered = c.port.ordered + if op.ordered then 1 else 0 := ho
        rw [ho', hsite']
        omega
    | creditRefused hc₁ =>
      refine ⟨hpending, ?_⟩
      cases hsub.submission with
      | none hnone _ =>
        rw [hnone] at hc₁
        cases hc₁
      | credit length bytes slots hasked hcredit hcall hopen ho => exact ho
      | operation op site' room hsite' hcredit hasked hcall hopen ho =>
        rw [hcall] at hc₁
        cases hc₁
        exact absurd rfl (hcredit _ _)
    | creditTaken _ ha => exact absurd rfl (ha error)

/-- The native handle refuses every operation once its close event was processed. -/
def RejectsAfterClose (_ : List Input) (_ : List Output) (c : Client) (i : Input) : Prop :=
  c.port.finished = true → ∀ answer, i = .answer answer → ∃ error, answer = .thrown error

/-- One of the inputs is the close event. -/
def closes (inputs : List Input) : Prop := ∃ event, .callback (.event event) ∈ inputs ∧ event.kind = .closed

/-- **Finished ports**: the close event finishes the port, and a finished port has no record. -/
structure Finished (inputs : List Input) (c : Client) : Prop where
  finished : closes inputs → c.port.finished = true
  pending : c.port.finished = true → c.port.pending = []

theorem Finished.start {c : Client} (h : c.port.pending = []) : Finished [] c := by
  refine ⟨?_, fun _ => h⟩
  rintro ⟨event, hmem, -⟩
  cases hmem

/-- Every step keeps finished ports without a record, if the native handle refuses what comes too late. -/
theorem Finished.step {inputs : List Input} {outputs out : List Output} {c c' : Client} (h : Finished inputs c) {i : Input}
    (hrejects : RejectsAfterClose inputs outputs c i) (hstep : client.step c i = some (c', out)) :
    Finished (inputs ++ [i]) c' := by
  have hcloses : (∀ event, i = .callback (.event event) → event.kind ≠ .closed) → closes (inputs ++ [i]) → closes inputs := by
    rintro hi ⟨event, hmem, hkind⟩
    rw [List.mem_append, List.mem_singleton] at hmem
    rcases hmem with hmem | hmem
    · exact ⟨event, hmem, hkind⟩
    · exact absurd hkind (hi event hmem.symm)
  have hsame : c'.port.finished = c.port.finished → c'.port.pending = c.port.pending →
      (∀ event, i = .callback (.event event) → event.kind ≠ .closed) → Finished (inputs ++ [i]) c' := by
    intro hfinished hpending hi
    exact ⟨fun hc => hfinished.trans (h.finished (hcloses hi hc)), fun hf => hpending.trans (h.pending (hfinished ▸ hf))⟩
  cases Client.step_requestStep hstep with
  | method hi hcalling hsub =>
    refine hsame hsub.frame.finished hsub.frame.pending ?_
    rintro event rfl
    rcases hi with ⟨m, hm⟩ | ⟨index, hindex⟩ <;> contradiction
  | dropped hcalling hsite ha hmay hc hout =>
    obtain ⟨-, hf, -⟩ := Client.answered_dropped (c := c) _ hsite ha
    subst hc
    exact hsame hf.finished hf.pending (fun _ h => nomatch h)
  | queued hcalling hsite ha =>
    -- a finished port takes no record: the handle would have refused
    have hopen : c.port.finished = false := by
      by_contra hfinished
      obtain ⟨error, herror⟩ := hrejects (by simpa using hfinished) _ rfl
      cases herror
    have hfinished : c'.port.finished = false := ha.finished.trans hopen
    refine ⟨fun hc => ?_, fun hf => by rw [hfinished] at hf; cases hf⟩
    have := h.finished (hcloses (fun _ h => nomatch h) hc)
    rw [hopen] at this
    cases this
  | credited hcalling hnone hsame' hout => exact hsame hsame'.finished hsame'.pending (fun _ h => nomatch h)
  | event hidle hev hsame' hout =>
    rename_i event
    cases hev with
    | none hpending hordered hfinished hsettlements hclosed =>
      refine ⟨fun hc => ?_, fun hf => hpending.trans (h.pending (hfinished ▸ hf))⟩
      rw [hfinished]
      by_cases hkind : event.kind = .closed
      · exact hclosed hkind
      · exact h.finished (hcloses (fun e he => by cases he; exact hkind) hc)
    | settled hsplit hpending hordered hfinished hsettlements hclosed =>
      refine ⟨fun hc => ?_, fun hf => ?_⟩
      · rw [hfinished]
        exact h.finished (hcloses (fun e he => by cases he; exact hclosed) hc)
      · rw [hfinished] at hf
        have := h.pending hf
        rw [hsplit] at this
        simp at this
    | closed hpending hordered hfinished hsettlements => exact ⟨fun _ => hfinished, fun _ => hpending⟩
  | other hcalling hsame' hout hi ha => exact hsame hsame'.finished hsame'.pending (fun e he => absurd he (hi e))

/-- **Every request settles once, and is never confused with another.**  Over every run of a port whose ids start
anywhere, with a native handle that refuses what is submitted after its close event:

* the promises of accepted operations are distinct, each is settled at most once, and only by an event with the id of
  its own operation or by the close event;
* the ids of the records are distinct, nonzero and below `2 ^ 32`;
* between two native calls `_ordered` is the number of ordered records, and there are at most 64 records; a rejected
  submission leaves both as they were;
* once the close event was processed there is no record, and every accepted operation is settled;
* an event with the id of a record, when no JavaScript runs, settles its promise at once, with its result or its error. -/
theorem requests_settle_once (path : String) (nextId : ℕ) (hnextId : InRange nextId) (inputs : List Input)
    (hrejects : client.Along RejectsAfterClose (Client.new path nextId) inputs) (c : Client) (outputs : List Output)
    (hrun : client.run (Client.new path nextId) inputs = some (c, outputs)) :
    (((acceptances outputs).map fun e => e.2.promise).Nodup ∧ ((settlements outputs).map Prod.fst).Nodup ∧
      ∀ s ∈ settlements outputs, ∃ e ∈ acceptances outputs, e.2.promise = s.1 ∧ (s.2 = .event e.1 ∨ s.2 = .close)) ∧
    (c.port.ids.Nodup ∧ ∀ id ∈ c.port.ids, 0 < id ∧ id < 2 ^ 32) ∧
    (c.calling = none → c.port.ordered = c.port.orderedRecords) ∧ c.port.pending.length ≤ 64 ∧
    (c.calling = none → ∀ i, ((∃ m, i = .invoke m) ∨ ∃ index, i = .resume index) → ∀ c₁ out,
      client.step c i = some (c₁, out) → c₁.port.pending = c.port.pending ∧
        (c₁.calling = none → c₁.port.ordered = c.port.ordered) ∧
        ∀ error c₂ out', client.step c₁ (.answer (.thrown error)) = some (c₂, out') →
          c₂.port.pending = c.port.pending ∧ c₂.port.ordered = c.port.ordered) ∧
    (closes inputs → c.port.pending = [] ∧
      ((acceptances outputs).map fun e => e.2.promise).Perm ((settlements outputs).map Prod.fst)) ∧
    ∀ event record, event.kind ≠ .opened → event.kind ≠ .closed → (event.id, record) ∈ c.port.pending → c.idle = true →
      ∃ c₁, client.step c (.callback (.event event)) = some (c₁, [.settled record.promise (.event event.id)
        (if event.kind = .error then .error (c.port._nativeError event) else .ok (some event))]) := by
  have hstart : Counted (Client.new path nextId) ∧ Promised [] (Client.new path nextId) ∧
      Finished [] (Client.new path nextId) :=
    ⟨Counted.start path hnextId, Promised.start rfl, Finished.start rfl⟩
  obtain ⟨h₁, h₂, h₃⟩ := Machine.run_rule (C := RejectsAfterClose)
    (fun inputs outputs c => Counted c ∧ Promised outputs c ∧ Finished inputs c) hstart
    (fun _ _ _ _ _ _ h hC hstep => ⟨h.1.step hstep, h.2.1.step hstep, h.2.2.step hC hstep⟩) hrejects hrun
  have hroom := h₁.room
  have hnodup := h₂.split.nodup_iff.1 h₂.nodup
  refine ⟨⟨h₂.nodup, (List.nodup_append.1 hnodup).1, h₂.own⟩, ⟨h₁.ids_nodup, h₁.ids_inRange⟩, ?_, by omega, ?_, ?_, ?_⟩
  · intro hcalling
    exact h₁.ordered_idle (Client.submitting_none hcalling)
  · intro _ i hi c₁ out hstep
    exact Client.rejected_submission hi hstep
  · intro hcloses
    have hpending := h₃.pending (h₃.finished hcloses)
    refine ⟨hpending, ?_⟩
    have hsplit := h₂.split
    rw [hpending, List.map_nil, List.append_nil] at hsplit
    exact hsplit
  · intro event record hopened hclosed hmem hidle
    have hsettles := Client.event_settles h₁.ids_nodup hopened hclosed hmem
    refine ⟨(c._event event).1, ?_⟩
    show (if c.idle then some (c._event event) else none) = _
    rw [if_pos hidle, ← hsettles]

/-- Two requests on both sides of the wrap of the ids; the close event settles the second. -/
theorem requests_settle_once_wrap : ∃ c outputs,
    client.run (Client.new "/dev/ttyS0" 0xffffffff) [.callback (.event { kind := .opened, id := 0 }),
      .invoke (.control .flush 0), .answer .queued, .invoke (.write (.ofBytes [7])), .answer .queued,
      .callback (.event { kind := .ok, id := 0xffffffff }),
      .callback (.event { kind := .closed, id := 0 })] = some (c, outputs) ∧
    ((settlements outputs).map Prod.fst).Nodup ∧ c.port.pending = [] ∧
    acceptances outputs = [(0xffffffff, ⟨2, true⟩), (1, ⟨4, true⟩)] := by
  refine ⟨_, _, rfl, ?_⟩
  have h := requests_settle_once "/dev/ttyS0" 0xffffffff ⟨by decide, by decide⟩
    [.callback (.event { kind := .opened, id := 0 }),
      .invoke (.control .flush 0), .answer .queued, .invoke (.write (.ofBytes [7])), .answer .queued,
      .callback (.event { kind := .ok, id := 0xffffffff }),
      .callback (.event { kind := .closed, id := 0 })] ?_ _ _ rfl
  · obtain ⟨⟨-, hnodup, -⟩, -, -, -, -, hclose, -⟩ := h
    exact ⟨hnodup, (hclose ⟨{ kind := .closed, id := 0 }, by simp, rfl⟩).1, rfl⟩
  · refine ((((((Machine.Along.nil _ _).snoc ?_).snoc ?_).snoc ?_).snoc ?_).snoc ?_).snoc ?_ |>.snoc ?_
    all_goals
      intro c outputs hrun hfinished
      cases hrun
      cases hfinished

end NodeSerialport.Binding
