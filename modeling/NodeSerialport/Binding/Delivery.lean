import NodeSerialport.Binding.Steps
import Mathlib.Data.List.TakeWhile
import Mathlib.Algebra.BigOperators.Group.List.Basic
/-!
# Delivery of reads

The buffers of the native read callbacks wait in `pendingRead` and `queuedReads`, one scheduled `deliverRead` for each
item, and what a throwing listener leaves of its batch is put back at the head.

* `Client.items`, `Client.held` — what waits, as items and as buffers;
* `Client.Handed` — what handing the next buffers to the listener does;
* `Delivery` — the invariant of a run;
* `delivery_fifo` — the order of delivery.
-/

namespace NodeSerialport.Binding

open Parsers (Buffer)
open Lib (Machine)

namespace Client

variable {c : Client}

/-! ### The queue -/

/-- The queued items: the head is kept apart. -/
def items (c : Client) : List Item := c.pendingRead.toList ++ c.queuedReads.getD []

/-- The buffers received and not yet passed on, the rest of the running batch first. -/
def held (c : Client) : List Buffer := c.onData.getD [] ++ c.items.flatMap Item.buffers

/-- The optional array is used behind a head only, and is never empty. -/
structure QueueWF (c : Client) : Prop where
  head : c.pendingRead = none → c.queuedReads = none
  tail : c.queuedReads ≠ some []

theorem queueRead_spec (h : c.QueueWF) (item : Item) :
    (c.queueRead item).QueueWF ∧ (c.queueRead item).items = c.items ++ [item] := by
  unfold queueRead items
  cases hp : c.pendingRead with
  | none =>
    have hq := h.head hp
    exact ⟨⟨nofun, h.tail⟩, by simp [hq]⟩
  | some first =>
    refine ⟨⟨by simp, ?_⟩, by simp⟩
    show some (c.queuedReads.getD [] ++ [item]) ≠ some []
    simp

theorem queueRead_frame (c : Client) (item : Item) :
    (c.queueRead item).port = c.port ∧ (c.queueRead item).onData = c.onData ∧
      (c.queueRead item).microtasks = c.microtasks + 1 ∧ (c.queueRead item).calling = c.calling := by
  obtain ⟨pendingRead, queuedReads, heq⟩ := queueRead_queues c item
  rw [heq]
  exact ⟨rfl, rfl, rfl, rfl⟩

theorem retainRead_spec (h : c.QueueWF) (rest : List Buffer) :
    (c.retainRead rest).QueueWF ∧ (c.retainRead rest).items = .batch rest :: c.items := by
  unfold retainRead items
  cases hp : c.pendingRead with
  | none =>
    have hq := h.head hp
    exact ⟨⟨nofun, h.tail⟩, by simp [hq]⟩
  | some first =>
    refine ⟨⟨nofun, ?_⟩, by simp⟩
    show some (first :: c.queuedReads.getD []) ≠ some []
    simp

/-- The queue without its head. -/
def tailReads (c : Client) : Client :=
  { c with
    pendingRead := c.queuedReads.bind List.head?
    queuedReads := match c.queuedReads with
      | none => none
      | some items => if items.tail = [] then none else some items.tail }

theorem tailReads_spec (h : c.QueueWF) {item : Item} {rest : List Item} (hitems : c.items = item :: rest) :
    c.pendingRead = some item ∧ c.tailReads.QueueWF ∧ c.tailReads.items = rest := by
  unfold items at hitems
  cases hp : c.pendingRead with
  | none =>
    rw [hp, h.head hp] at hitems
    cases hitems
  | some first =>
    rw [hp] at hitems
    obtain ⟨rfl, hrest⟩ : first = item ∧ c.queuedReads.getD [] = rest := by simpa using hitems
    refine ⟨rfl, ?_⟩
    unfold tailReads items
    cases hq : c.queuedReads with
    | none =>
      rw [hq] at hrest
      exact ⟨⟨fun _ => rfl, nofun⟩, hrest⟩
    | some queued =>
      rw [hq] at hrest
      obtain rfl : queued = rest := hrest
      cases queued with
      | nil => exact absurd hq h.tail
      | cons second others =>
        cases others with
        | nil => exact ⟨⟨nofun, nofun⟩, rfl⟩
        | cons third others => exact ⟨⟨nofun, nofun⟩, rfl⟩

/-! ### Handing buffers to the listener -/

/-- **What handing buffers to the listener does**: while the port is open the first is charged and passed on, and the
rest of them waits for the listener to return. -/
inductive Handed (c : Client) (events : List Buffer) : Client → List Output → Prop
  | passed {data : Buffer} {rest : List Buffer} (hopen : c.port.isOpen = true) (h : events = data :: rest) :
      Handed c events { c with port := c.port.debit data, onData := some rest } [.data data]
  | ended (h : c.port.isOpen = false ∨ events = []) : Handed c events { c with onData := none } []

theorem deliverBatch_handed (c : Client) (events : List Buffer) :
    Handed c events (c._deliverBatch events).1 (c._deliverBatch events).2 := by
  cases events with
  | nil => exact .ended (.inr rfl)
  | cons data rest =>
    cases hopen : c.port.isOpen with
    | true =>
      simp only [_deliverBatch, hopen, if_true]
      exact .passed hopen rfl
    | false =>
      simp only [_deliverBatch, hopen, Bool.false_eq_true, if_false]
      exact .ended (.inl hopen)

theorem deliverRead_handed (h : c.QueueWF) (hidle : c.onData = none) {item : Item} {rest : List Item}
    (hitems : c.items = item :: rest) : Handed c.tailReads item.buffers c.deliverRead.1 c.deliverRead.2 := by
  have hhead := (tailReads_spec h hitems).1
  cases item with
  | batch events =>
    have heq : c.deliverRead = c.tailReads._deliverBatch events := by
      unfold deliverRead
      rw [hhead]
      rfl
    rw [heq]
    exact deliverBatch_handed c.tailReads events
  | buffer data =>
    have heq : c.deliverRead = if c.port.isOpen then
        ({ c.tailReads with port := c.port.debit data, onData := some [] }, [.data data]) else (c.tailReads, []) := by
      unfold deliverRead
      rw [hhead]
      rfl
    rw [heq]
    split
    · rename_i hopen
      exact .passed hopen rfl
    · rename_i hopen
      have hnone : { c.tailReads with onData := none } = c.tailReads := by
        show { c.tailReads with onData := none } = { c.tailReads with onData := c.onData }
        rw [hidle]
      have hended : Handed c.tailReads [data] { c.tailReads with onData := none } [] :=
        .ended (.inl (Bool.eq_false_iff.2 hopen))
      rwa [hnone] at hended

/-! ### Events and methods leave the queue alone -/

/-- The queue, the charges and the running listener are the same. -/
structure SameReads (c c' : Client) : Prop where
  pendingRead : c'.pendingRead = c.pendingRead
  queuedReads : c'.queuedReads = c.queuedReads
  microtasks : c'.microtasks = c.microtasks
  onData : c'.onData = c.onData
  readBytes : c'.port.readBytes = c.port.readBytes
  readSlots : c'.port.readSlots = c.port.readSlots

theorem SameReads.items {c' : Client} (h : SameReads c c') : c'.items = c.items := by
  unfold Client.items
  rw [h.pendingRead, h.queuedReads]

theorem SameReads.held {c' : Client} (h : SameReads c c') : c'.held = c.held := by
  unfold Client.held
  rw [h.items, h.onData]

theorem SameReads.queueWF {c' : Client} (h : SameReads c c') (hwf : c.QueueWF) : c'.QueueWF :=
  ⟨by rw [h.pendingRead, h.queuedReads]; exact hwf.head, by rw [h.queuedReads]; exact hwf.tail⟩

end Client

theorem Frame.sameReads {c c' : Client} (h : Frame c c') : c.SameReads c' :=
  ⟨h.pendingRead, h.queuedReads, h.microtasks, h.onData, h.readBytes, h.readSlots⟩

namespace Client

variable {c : Client}

theorem openedOutputs_quiet (p : Prop) [Decidable p] (result : Settlement Unit) :
    Silent (if p then [.opened result] else []) := by
  split <;> exact ⟨rfl, rfl, rfl, rfl⟩

theorem finishClose_quiet (c : Client) (error : Option SerialError) :
    passed (c._finishClose error).2 = [] ∧ credits (c._finishClose error).2 = [] ∧
      acceptances (c._finishClose error).2 = [] := by
  unfold _finishClose
  split
  · exact ⟨rfl, rfl, rfl⟩
  · have hopened := openedOutputs_quiet (c.port.opened = none) (.error (c.port.closeReason error))
    simp only [passed_append, credits_append, acceptances_append, hopened.passed, hopened.credits, hopened.acceptances]
    refine ⟨?_, ?_, ?_⟩
    · simp [passed, Output.data?]
    · simp [credits, Output.credited?]
    · simp [acceptances, Output.accepted?]

/-- An event neither queues nor passes on a buffer, and opens the port only where no closure was requested. -/
theorem event_reads (c : Client) (event : NativeEvent) :
    c.SameReads (c._event event).1 ∧ passed (c._event event).2 = [] ∧ credits (c._event event).2 = [] ∧
      (c._event event).1.port.closing = c.port.closing ∧
      ((c._event event).1.port.isOpen = c.port.isOpen ∨
        c.port.closing = false ∧ (c._event event).1.port.isOpen = true) := by
  have hsettle : ∀ error, c.SameReads (c._settle event.id error event).1 ∧
      passed (c._settle event.id error event).2 = [] ∧ credits (c._settle event.id error event).2 = [] ∧
      (c._settle event.id error event).1.port.closing = c.port.closing ∧
      ((c._settle event.id error event).1.port.isOpen = c.port.isOpen ∨
        c.port.closing = false ∧ (c._settle event.id error event).1.port.isOpen = true) := by
    intro error
    unfold _settle
    cases c.port.pending.lookup event.id with
    | none => exact ⟨⟨rfl, rfl, rfl, rfl, rfl, rfl⟩, rfl, rfl, rfl, .inl rfl⟩
    | some pending =>
      simp only [BindingPort.unrecord, BindingPort.release]
      split <;> exact ⟨⟨rfl, rfl, rfl, rfl, rfl, rfl⟩, rfl, rfl, rfl, .inl rfl⟩
  unfold _event
  cases event.kind with
  | opened =>
    dsimp only
    split
    · exact ⟨⟨rfl, rfl, rfl, rfl, rfl, rfl⟩, rfl, rfl, rfl, .inl rfl⟩
    · rename_i hclosing
      have hopened := openedOutputs_quiet (c.port.opened = none) (.ok ())
      exact ⟨⟨rfl, rfl, rfl, rfl, rfl, rfl⟩, hopened.passed, hopened.credits, rfl,
        .inr ⟨Bool.eq_false_iff.2 hclosing, rfl⟩⟩
  | closed =>
    obtain ⟨hpassed, hcredits, -⟩ := finishClose_quiet c (c.port.failure.or
      (if event.message.getD "" = "" then none else some (c.port._nativeError event)))
    refine ⟨?_, hpassed, hcredits, ?_⟩
    all_goals
      simp only [_finishClose]
      split
    · exact ⟨rfl, rfl, rfl, rfl, rfl, rfl⟩
    · exact ⟨rfl, rfl, rfl, rfl, rfl, rfl⟩
    · exact ⟨rfl, .inl rfl⟩
    · exact ⟨rfl, .inl rfl⟩
  | read => exact hsettle _
  | ok => exact hsettle _
  | error => exact hsettle _

end Client

/-! ### Runs -/

/-- The buffers one input brings. -/
def Input.received : Input → List Buffer
  | .callback (.read item) => item.buffers
  | _ => []

/-- The buffers received over a run, in the order of their callbacks. -/
def received (inputs : List Input) : List Buffer := inputs.flatMap Input.received

@[simp] theorem received_append (a b : List Input) : received (a ++ b) = received a ++ received b :=
  List.flatMap_append

@[simp] theorem received_singleton (i : Input) : received [i] = i.received := List.append_nil _

/-- The number of bytes of all these buffers. -/
def totalLength (buffers : List Buffer) : ℤ := (buffers.map fun b => (b.length : ℤ)).sum

theorem totalLength_append (a b : List Buffer) : totalLength (a ++ b) = totalLength a + totalLength b := by
  unfold totalLength
  rw [List.map_append, List.sum_append]

theorem totalLength_singleton (b : Buffer) : totalLength [b] = b.length := by
  simp [totalLength]

/-! ### Steps -/

/-- **What a step does to the reads**: it keeps what is held, and adds what it received; it counts a credit; it passes a
buffer on; or, on a closed port, it drops some buffers. -/
inductive ReadStep (c : Client) (i : Input) (c' : Client) (out : List Output) : Prop
  | kept (hpassed : passed out = []) (hcredits : credits out = []) (held : c'.held = c.held ++ i.received)
      (readBytes : c'.port.readBytes = c.port.readBytes) (readSlots : c'.port.readSlots = c.port.readSlots)
      (hrefused : ∀ call bytes slots, c.calling = some (call, .credit bytes slots) →
        ∃ error, i = .answer (.thrown error))
  | credited {call : NativeCall} (bytes slots : ℤ) (hcalling : c.calling = some (call, .credit bytes slots))
      (hi : ∃ answer, i = .answer answer ∧ ∀ error, answer ≠ .thrown error) (hpassed : passed out = [])
      (hcredits : credits out = [(bytes, slots)]) (held : c'.held = c.held)
      (readBytes : c'.port.readBytes = c.port.readBytes + bytes)
      (readSlots : c'.port.readSlots = c.port.readSlots + slots)
  | passed (data : Buffer) (hcalling : c.calling = none) (hopen : c.port.isOpen = true)
      (hi : ∀ callback, i ≠ .callback callback) (hreceived : i.received = []) (hpassed : passed out = [data])
      (hcredits : credits out = []) (held : c.held = data :: c'.held)
      (readBytes : c'.port.readBytes = c.port.readBytes - data.length)
      (readSlots : c'.port.readSlots = c.port.readSlots - 1)
  | dropped (lost : List Buffer) (hcalling : c.calling = none) (hclosed : c.port.isOpen = false)
      (hi : ∀ callback, i ≠ .callback callback) (hreceived : i.received = []) (hpassed : passed out = [])
      (hcredits : credits out = [])
      (held : c.held = lost ++ c'.held) (readBytes : c'.port.readBytes = c.port.readBytes)
      (readSlots : c'.port.readSlots = c.port.readSlots)

/-- **What a step does to the flags**: only an event opens a port, and a port that is closed asked for its closure. -/
structure FlagStep (c : Client) (i : Input) (c' : Client) : Prop where
  closing : c.port.closing = true → c'.port.closing = true
  isOpen : c'.port.isOpen = c.port.isOpen ∨ c'.port.isOpen = false ∧ c'.port.closing = true ∨
    c.port.closing = false ∧ c'.port.isOpen = true
  failure : (∀ error lost, i ≠ .callback (.failed error lost)) → c'.port.failure = c.port.failure
  failed : ∀ error lost, i = .callback (.failed error lost) → c'.port.failure = some error

namespace Client

variable {c c' : Client} {i : Input} {out : List Output}

theorem SameReads.readStep (h : c.SameReads c') (hpassed : passed out = []) (hcredits : credits out = [])
    (hreceived : i.received = []) (hrefused : ∀ call bytes slots, c.calling = some (call, .credit bytes slots) →
      ∃ error, i = .answer (.thrown error)) : ReadStep c i c' out :=
  .kept hpassed hcredits (by rw [h.held, hreceived, List.append_nil]) h.readBytes h.readSlots hrefused

/-- A step that hands buffers to the listener, from a state `c₁` that keeps them apart from the queue. -/
theorem Handed.readStep {c₁ : Client} {events : List Buffer} (h : c₁.Handed events c' out) (hport : c₁.port = c.port)
    (hheld : c.held = events ++ c₁.items.flatMap Item.buffers) (hi : ∀ callback, i ≠ .callback callback)
    (hreceived : i.received = []) (hcalling : c.calling = none) : ReadStep c i c' out := by
  have hrefused : ∀ call bytes slots, c.calling = some (call, .credit bytes slots) →
      ∃ error, i = .answer (.thrown error) := by
    intro call bytes slots hcall
    rw [hcalling] at hcall
    cases hcall
  rcases h with ⟨hopen, rfl⟩ | hended
  · refine .passed _ hcalling (hport ▸ hopen) hi hreceived rfl rfl ?_ ?_ ?_
    · rw [hheld]
      rfl
    · show c₁.port.readBytes - _ = _
      rw [hport]
    · show c₁.port.readSlots - 1 = _
      rw [hport]
  · have hbytes : c₁.port.readBytes = c.port.readBytes := by rw [hport]
    have hslots : c₁.port.readSlots = c.port.readSlots := by rw [hport]
    rcases hended with hclosed | rfl
    · exact .dropped events hcalling (hport ▸ hclosed) hi hreceived rfl rfl hheld hbytes hslots
    · refine .kept rfl rfl ?_ hbytes hslots hrefused
      rw [hheld, hreceived]
      exact (List.append_nil _).symm

theorem Handed.queue {c₁ : Client} {events : List Buffer} (h : c₁.Handed events c' out) (hwf : c₁.QueueWF)
    (hscheduled : c₁.microtasks = c₁.items.length) : c'.QueueWF ∧ c'.microtasks = c'.items.length := by
  rcases h with ⟨hopen, rfl⟩ | hended
  · exact ⟨⟨hwf.head, hwf.tail⟩, hscheduled⟩
  · exact ⟨⟨hwf.head, hwf.tail⟩, hscheduled⟩

/-- **Every step** keeps one scheduled `deliverRead` for each item. -/
theorem step_readStep (hwf : c.QueueWF) (hscheduled : c.microtasks = c.items.length)
    (hstep : client.step c i = some (c', out)) :
    (c'.QueueWF ∧ c'.microtasks = c'.items.length) ∧ ReadStep c i c' out := by
  have hqueue : ∀ {c' : Client}, c.SameReads c' → c'.QueueWF ∧ c'.microtasks = c'.items.length := fun h =>
    ⟨h.queueWF hwf, by rw [h.microtasks, h.items]; exact hscheduled⟩
  have hnone : c.calling = none → ∀ call bytes slots, c.calling = some (call, .credit bytes slots) →
      ∃ error, i = .answer (.thrown error) := by
    intro hcalling call bytes slots hcall
    rw [hcalling] at hcall
    cases hcall
  have hother : ∀ {call : NativeCall} {site : Site}, c.calling = some (call, site) →
      (∀ bytes slots, site ≠ .credit bytes slots) → ∀ call bytes slots, c.calling = some (call, .credit bytes slots) →
      ∃ error, i = .answer (.thrown error) := by
    intro call site hcalling hsite call' bytes slots hcall
    rw [hcalling] at hcall
    cases hcall
    exact absurd rfl (hsite bytes slots)
  cases step_stepped hstep with
  | method hi hcalling hsub =>
    have hsame := hsub.frame.sameReads
    refine ⟨hqueue hsame, hsame.readStep hsub.silent.passed hsub.silent.credits ?_ (hnone hcalling)⟩
    rcases hi with ⟨m, rfl⟩ | ⟨index, rfl⟩ <;> rfl
  | dropped hcalling hsite ha hmay hc hout =>
    obtain ⟨hsilent, hf, -⟩ := answered_dropped (c := c) _ hsite ha
    rw [hc, hout]
    exact ⟨hqueue hf.sameReads, hf.sameReads.readStep hsilent.passed hsilent.credits rfl (hother hcalling hsite)⟩
  | queued hcalling hsite ha =>
    have hsame : c.SameReads c' :=
      ⟨ha.pendingRead, ha.queuedReads, ha.microtasks, ha.onData, ha.readBytes, ha.readSlots⟩
    exact ⟨hqueue hsame, hsame.readStep rfl rfl rfl (hother hcalling hsite)⟩
  | creditRefused hcalling =>
    have hsame : c.SameReads { c with calling := none } := ⟨rfl, rfl, rfl, rfl, rfl, rfl⟩
    exact ⟨hqueue hsame, hsame.readStep rfl rfl rfl fun _ _ _ _ => ⟨_, rfl⟩⟩
  | creditTaken hcalling ha =>
    exact ⟨⟨⟨hwf.head, hwf.tail⟩, hscheduled⟩, .credited _ _ hcalling ⟨_, rfl, ha⟩ rfl rfl rfl rfl rfl⟩
  | failed hidle hout =>
    rename_i error lost
    have hsame : c.SameReads { c with port := { c.port with failure := some error } } := ⟨rfl, rfl, rfl, rfl, rfl, rfl⟩
    refine ⟨hqueue hsame, hsame.readStep hout.passed hout.credits rfl (hnone (idle_calling hidle))⟩
  | read hidle =>
    rename_i item
    obtain ⟨hwf', hitems⟩ := queueRead_spec hwf item
    obtain ⟨hport, honData, hmicrotasks, -⟩ := queueRead_frame c item
    refine ⟨⟨hwf', ?_⟩, .kept rfl rfl ?_ (by rw [hport]) (by rw [hport]) (hnone (idle_calling hidle))⟩
    · rw [hmicrotasks, hitems, List.length_append, hscheduled]
      rfl
    · rw [held, held, hitems, honData, List.flatMap_append]
      simp [Input.received]
  | event hidle =>
    obtain ⟨hsame, hpassed, hcredits, -⟩ := event_reads c _
    refine ⟨hqueue hsame, hsame.readStep hpassed hcredits rfl (hnone (idle_calling hidle))⟩
  | microtask hidle hm =>
    rw [idle, Bool.and_eq_true] at hidle
    have honData : c.onData = none := Option.isNone_iff_eq_none.1 hidle.1
    rw [hscheduled] at hm
    obtain ⟨item, rest, hitems⟩ := List.exists_cons_of_length_pos hm
    set c₁ : Client := { c with microtasks := c.microtasks - 1 } with hc₁
    have hwf₁ : c₁.QueueWF := ⟨hwf.head, hwf.tail⟩
    have hitems₁ : c₁.items = item :: rest := hitems
    obtain ⟨-, htail, hrest⟩ := tailReads_spec hwf₁ hitems₁
    have hh := deliverRead_handed hwf₁ honData hitems₁
    refine ⟨hh.queue htail ?_, hh.readStep rfl ?_ (by simp) rfl (Option.isNone_iff_eq_none.1 hidle.2)⟩
    · show c.microtasks - 1 = _
      rw [hrest, hscheduled, hitems]
      rfl
    · rw [held, honData, hitems, hrest]
      rfl
  | returns hcalling hrest =>
    rename_i rest
    have hh := deliverBatch_handed c rest
    refine ⟨hh.queue hwf hscheduled, hh.readStep rfl ?_ (by simp) rfl hcalling⟩
    rw [held, hrest]
    rfl
  | throws hcalling hrest =>
    rename_i rest
    have hheld : c.held = rest ++ c.items.flatMap Item.buffers := by
      rw [held, hrest]
      rfl
    split
    · obtain ⟨hwf', hitems⟩ := retainRead_spec (c := { c with onData := none }) ⟨hwf.head, hwf.tail⟩ rest
      refine ⟨⟨hwf', ?_⟩, .kept rfl rfl ?_ rfl rfl (hnone hcalling)⟩
      · rw [hitems]
        exact congrArg (· + 1) hscheduled
      · rw [hheld, held, hitems]
        exact (List.append_nil _).symm
    · rename_i hno
      refine ⟨⟨⟨hwf.head, hwf.tail⟩, hscheduled⟩, ?_⟩
      cases hopen : c.port.isOpen with
      | false => exact .dropped rest hcalling hopen (by simp) rfl rfl rfl hheld rfl rfl
      | true =>
        have hnil : rest = [] := by
          by_contra hne
          exact hno ⟨hne, hopen⟩
        refine .kept rfl rfl ?_ rfl rfl (hnone hcalling)
        rw [hheld, hnil]
        exact (List.append_nil _).symm

theorem Passes.port (h : c.Passes c' out) :
    c'.port.isOpen = c.port.isOpen ∧ c'.port.closing = c.port.closing ∧ c'.port.failure = c.port.failure := by
  cases h <;> exact ⟨rfl, rfl, rfl⟩

theorem event_failure (c : Client) (event : NativeEvent) : (c._event event).1.port.failure = c.port.failure := by
  have hsettle : ∀ error, (c._settle event.id error event).1.port.failure = c.port.failure := by
    intro error
    unfold _settle
    cases c.port.pending.lookup event.id with
    | none => rfl
    | some pending =>
      simp only [BindingPort.unrecord, BindingPort.release]
      split <;> rfl
  unfold _event
  cases event.kind with
  | opened =>
    dsimp only
    split <;> rfl
  | closed =>
    simp only [_finishClose]
    split <;> rfl
  | read => exact hsettle _
  | ok => exact hsettle _
  | error => exact hsettle _

theorem step_flagStep (hstep : client.step c i = some (c', out)) : FlagStep c i c' := by
  have hof : ∀ {i : Input} {c' : Client}, (∀ error lost, i ≠ .callback (.failed error lost)) →
      c'.port.isOpen = c.port.isOpen ∧ c'.port.closing = c.port.closing ∧ c'.port.failure = c.port.failure →
      FlagStep c i c' :=
    fun hi h => ⟨fun hc => h.2.1.trans hc, .inl h.1, fun _ => h.2.2, fun error lost he => absurd he (hi error lost)⟩
  have hframe : ∀ {i : Input} {c' : Client}, (∀ error lost, i ≠ .callback (.failed error lost)) → Frame c c' →
      FlagStep c i c' := fun hi h =>
    ⟨h.closing, h.isOpen.elim .inl fun hclosed => .inr (.inl hclosed), fun _ => h.failure,
      fun error lost he => absurd he (hi error lost)⟩
  cases step_stepped hstep with
  | method hi hcalling hsub =>
    refine hframe ?_ hsub.frame
    rintro error lost rfl
    rcases hi with ⟨m, hm⟩ | ⟨index, hindex⟩ <;> contradiction
  | dropped hcalling hsite ha hmay hc hout =>
    obtain ⟨-, hf, -⟩ := answered_dropped (c := c) _ hsite ha
    rw [hc]
    exact hframe (fun _ _ h => nomatch h) hf
  | queued hcalling hsite ha => exact hof (fun _ _ h => nomatch h) ⟨ha.isOpen, ha.closing, ha.failure⟩
  | creditRefused hcalling => exact hof (fun _ _ h => nomatch h) ⟨rfl, rfl, rfl⟩
  | creditTaken hcalling ha => exact hof (fun _ _ h => nomatch h) ⟨rfl, rfl, rfl⟩
  | failed hidle hout =>
    refine ⟨id, .inl rfl, fun hno => absurd rfl (hno _ _), ?_⟩
    intro error lost he
    cases he
    rfl
  | read hidle =>
    obtain ⟨hport, -⟩ := queueRead_frame c _
    exact hof (fun _ _ h => nomatch h) ⟨by rw [hport], by rw [hport], by rw [hport]⟩
  | event hidle =>
    obtain ⟨-, -, -, hclosing, hopen⟩ := event_reads c _
    refine ⟨fun hc => hclosing.trans hc, hopen.elim .inl fun ho => .inr (.inr ho), fun _ => event_failure c _, ?_⟩
    intro error lost he
    cases he
  | microtask hidle hm =>
    exact hof (fun _ _ h => nomatch h) (deliverRead_passes { c with microtasks := c.microtasks - 1 }).port
  | returns hcalling hrest => exact hof (fun _ _ h => nomatch h) (deliverBatch_passes c _).port
  | throws hcalling hrest =>
    split <;> exact hof (fun _ _ h => nomatch h) ⟨rfl, rfl, rfl⟩

/-- A port that is closed for good: its closure was asked for. -/
structure Shut (c : Client) : Prop where
  isOpen : c.port.isOpen = false
  closing : c.port.closing = true

theorem Shut.flagStep (h : c.Shut) (hf : FlagStep c i c') : c'.Shut := by
  refine ⟨?_, hf.closing h.closing⟩
  rcases hf.isOpen with ho | ⟨ho, -⟩ | ⟨hclosing, -⟩
  · exact ho.trans h.isOpen
  · exact ho
  · rw [h.closing] at hclosing
    cases hclosing

end Client

/-! ### The invariant -/

/-- **The invariant of delivery**: one scheduled `deliverRead` for each item; while the port is open, what was received
is what was passed on, then what is held; every buffer is charged when it is passed on. -/
structure Delivery (c₀ : Client) (inputs : List Input) (outputs : List Output) (c : Client) : Prop where
  wf : c.QueueWF
  scheduled : c.microtasks = c.items.length
  closing : c.port.isOpen = false → c.port.closing = true
  fifo : c.port.isOpen = true → received inputs = passed outputs ++ c.held
  sub : passed outputs <+: received inputs
  bytes : c.port.readBytes + totalLength (passed outputs) = c₀.port.readBytes + ((credits outputs).map Prod.fst).sum
  slots : c.port.readSlots + (passed outputs).length = c₀.port.readSlots + ((credits outputs).map Prod.snd).sum

/-- Nothing is queued, scheduled or being passed on. -/
structure Client.Quiet (c : Client) : Prop where
  pendingRead : c.pendingRead = none
  queuedReads : c.queuedReads = none
  microtasks : c.microtasks = 0
  onData : c.onData = none

namespace Delivery

variable {c₀ c c' : Client} {inputs : List Input} {outputs out : List Output} {i : Input}

theorem start (hopen : c₀.port.isOpen = true) (h : c₀.Quiet) : Delivery c₀ [] [] c₀ := by
  have hitems : c₀.items = [] := by rw [Client.items, h.pendingRead, h.queuedReads]; rfl
  refine ⟨⟨fun _ => h.queuedReads, by rw [h.queuedReads]; nofun⟩, by rw [h.microtasks, hitems]; rfl, ?_, ?_,
    List.prefix_refl _, rfl, rfl⟩
  · intro hclosed
    rw [hopen] at hclosed
    cases hclosed
  · intro _
    rw [Client.held, hitems, h.onData]
    rfl

/-- **Every step keeps the invariant.** -/
theorem step (h : Delivery c₀ inputs outputs c) (hstep : client.step c i = some (c', out)) :
    Delivery c₀ (inputs ++ [i]) (outputs ++ out) c' := by
  obtain ⟨⟨hwf, hscheduled⟩, hread⟩ := Client.step_readStep h.wf h.scheduled hstep
  have hflags := Client.step_flagStep hstep
  -- a port that was closed asked for its closure
  have hclosing : c'.port.isOpen = false → c'.port.closing = true := by
    intro hclosed
    rcases hflags.isOpen with ho | ⟨-, hc⟩ | ⟨-, ho⟩
    · exact hflags.closing (h.closing (ho.symm.trans hclosed))
    · exact hc
    · rw [hclosed] at ho
      cases ho
  have hopen : c'.port.isOpen = true → c.port.isOpen = true := by
    intro hopen'
    by_contra hclosed
    have hshut : c.Shut := ⟨Bool.eq_false_iff.2 hclosed, h.closing (Bool.eq_false_iff.2 hclosed)⟩
    rw [(hshut.flagStep hflags).isOpen] at hopen'
    cases hopen'
  have hb := h.bytes
  have hs := h.slots
  cases hread with
  | kept hpassed hcredits hheld hbytes hslots =>
    refine ⟨hwf, hscheduled, hclosing, ?_, ?_, ?_, ?_⟩
    · intro ho
      rw [received_append, received_singleton, passed_append, hpassed, hheld, h.fifo (hopen ho), List.append_nil,
        List.append_assoc]
    · rw [received_append, passed_append, hpassed, List.append_nil]
      exact h.sub.trans (List.prefix_append _ _)
    · rw [passed_append, credits_append, hpassed, hcredits, hbytes, List.append_nil, List.append_nil]
      exact hb
    · rw [passed_append, credits_append, hpassed, hcredits, hslots, List.append_nil, List.append_nil]
      exact hs
  | credited bytes slots hcalling hi hpassed hcredits hheld hbytes hslots =>
    have hreceived : i.received = [] := by
      obtain ⟨answer, rfl, -⟩ := hi
      rfl
    refine ⟨hwf, hscheduled, hclosing, ?_, ?_, ?_, ?_⟩
    · intro ho
      rw [received_append, received_singleton, passed_append, hpassed, hheld, hreceived, h.fifo (hopen ho),
        List.append_nil, List.append_nil]
    · rw [received_append, passed_append, hpassed, List.append_nil]
      exact h.sub.trans (List.prefix_append _ _)
    · rw [passed_append, credits_append, hpassed, hcredits, hbytes, List.append_nil, List.map_append, List.sum_append,
        List.map_singleton, List.sum_singleton]
      omega
    · rw [passed_append, credits_append, hpassed, hcredits, hslots, List.append_nil, List.map_append, List.sum_append,
        List.map_singleton, List.sum_singleton]
      omega
  | passed data hcalling ho hi hreceived hpassed hcredits hheld hbytes hslots =>
    have hfifo := h.fifo ho
    rw [hheld] at hfifo
    have hsplit : received (inputs ++ [i]) = passed (outputs ++ out) ++ c'.held := by
      rw [received_append, received_singleton, passed_append, hpassed, hreceived, hfifo, List.append_nil]
      simp
    refine ⟨hwf, hscheduled, hclosing, fun _ => hsplit, ?_, ?_, ?_⟩
    · rw [hsplit]
      exact List.prefix_append _ _
    · rw [passed_append, credits_append, hpassed, hcredits, hbytes, totalLength_append, totalLength_singleton,
        List.append_nil]
      omega
    · rw [passed_append, credits_append, hpassed, hcredits, hslots, List.length_append, List.length_singleton,
        List.append_nil]
      push_cast
      omega
  | dropped lost hcalling hclosed hi hreceived hpassed hcredits hheld hbytes hslots =>
    refine ⟨hwf, hscheduled, hclosing, ?_, ?_, ?_, ?_⟩
    · intro ho
      rw [hopen ho] at hclosed
      cases hclosed
    · rw [received_append, passed_append, hpassed, List.append_nil]
      exact h.sub.trans (List.prefix_append _ _)
    · rw [passed_append, credits_append, hpassed, hcredits, hbytes, List.append_nil, List.append_nil]
      exact hb
    · rw [passed_append, credits_append, hpassed, hcredits, hslots, List.append_nil, List.append_nil]
      exact hs

theorem run (hopen : c₀.port.isOpen = true) (hquiet : c₀.Quiet) (hrun : client.run c₀ inputs = some (c, outputs)) :
    Delivery c₀ inputs outputs c :=
  Machine.run_rule_all (Delivery c₀) (start hopen hquiet) (fun _ _ _ _ _ _ h hstep => h.step hstep) hrun

end Delivery

/-! ### A closed port -/

namespace Client

variable {c : Client}

theorem Passes.closed {c' : Client} {out : List Output} (h : c.Passes c' out) (hclosed : c.port.isOpen = false) :
    passed out = [] := by
  cases h with
  | nothing => rfl
  | data data hopen => exact absurd (hopen.symm.trans hclosed) nofun

theorem Shut.step (h : c.Shut) {i : Input} {c' : Client} {out : List Output} (hstep : client.step c i = some (c', out)) :
    c'.Shut ∧ passed out = [] := by
  refine ⟨h.flagStep (step_flagStep hstep), ?_⟩
  cases step_stepped hstep with
  | method hi hcalling hsub => exact hsub.silent.passed
  | dropped hcalling hsite ha hmay hc hout =>
    rw [hout]
    exact (answered_dropped (c := c) _ hsite ha).1.passed
  | queued hcalling hsite ha => rfl
  | creditRefused hcalling => rfl
  | creditTaken hcalling ha => rfl
  | failed hidle hout => exact hout.passed
  | read hidle => rfl
  | event hidle => exact (event_reads c _).2.1
  | microtask hidle hm => exact (deliverRead_passes { c with microtasks := c.microtasks - 1 }).closed h.isOpen
  | returns hcalling hrest => exact (deliverBatch_passes c _).closed h.isOpen
  | throws hcalling hrest => rfl

theorem Shut.run (h : c.Shut) {inputs : List Input} {c' : Client} {outputs : List Output}
    (hrun : client.run c inputs = some (c', outputs)) : passed outputs = [] := by
  have hstart : c.Shut ∧ passed [] = [] := ⟨h, rfl⟩
  have hP := Machine.run_rule_all (fun _ outputs (c : Client) => c.Shut ∧ passed outputs = []) hstart
    (fun _ outputs _ _ _ out hP hstep => by
      obtain ⟨hshut, hout⟩ := hP.1.step hstep
      exact ⟨hshut, by rw [passed_append, hP.2, hout]; rfl⟩) hrun
  exact hP.2

end Client

/-! ### Order of delivery -/

/-- **Delivery is a lossless FIFO, whatever the listeners do.**  From any open port with nothing queued, over every run:
while the port is open, the buffers received are those passed to `onData`, in order, then those held, each charged
with its length and one slot when it is passed on; there is one scheduled `deliverRead` for each queued item, so
that with none left everything has been passed on; and once the port is not open, nothing more is. -/
theorem delivery_fifo (c₀ : Client) (hopen : c₀.port.isOpen = true) (hquiet : c₀.Quiet) (inputs : List Input) (c : Client)
    (outputs : List Output) (hrun : client.run c₀ inputs = some (c, outputs)) :
    (c.port.isOpen = true → received inputs = passed outputs ++ c.held) ∧
    passed outputs <+: received inputs ∧
    c.port.readBytes + totalLength (passed outputs) = c₀.port.readBytes + ((credits outputs).map Prod.fst).sum ∧
    c.port.readSlots + (passed outputs).length = c₀.port.readSlots + ((credits outputs).map Prod.snd).sum ∧
    c.microtasks = c.items.length ∧
    (c.port.isOpen = true → c.microtasks = 0 → c.onData = none → passed outputs = received inputs) ∧
    (c.port.isOpen = false → ∀ later c' outputs', client.run c later = some (c', outputs') → passed outputs' = []) := by
  have h := Delivery.run hopen hquiet hrun
  refine ⟨h.fifo, h.sub, h.bytes, h.slots, h.scheduled, ?_, ?_⟩
  · intro ho hm hd
    have hitems : c.items = [] := List.length_eq_zero_iff.1 (h.scheduled ▸ hm)
    rw [h.fifo ho, Client.held, hitems, hd]
    exact (List.append_nil _).symm
  · intro hclosed later c' outputs' hlater
    exact Client.Shut.run ⟨hclosed, h.closing hclosed⟩ hlater

/-- A listener throws twice inside a batch, with another read queued behind it. -/
theorem delivery_fifo_throwing :
    (client.run { port := { isOpen := true } } [.callback (.read (.batch [[1], [2, 3], [4]])), .callback (.read (.buffer [5])),
      .microtask, .throws, .microtask, .throws, .microtask, .returns, .microtask]).map (fun r => passed r.2) =
        some [[1], [2, 3], [4], [5]] := by
  have h := delivery_fifo { port := { isOpen := true } } rfl ⟨rfl, rfl, rfl, rfl⟩
    [.callback (.read (.batch [[1], [2, 3], [4]])), .callback (.read (.buffer [5])),
      .microtask, .throws, .microtask, .throws, .microtask, .returns, .microtask] _ _ rfl
  obtain ⟨hfifo, -⟩ := h
  have hall := hfifo rfl
  exact congrArg some ((List.append_nil _).symm.trans hall.symm)

end NodeSerialport.Binding
