import NodeSerialport.Native.Calls
import NodeSerialport.Native.Delivery
/-!
# What is on its way on the native side

Every operation, every byte of a write, every credit and every buffer is in one place between the call that submits it
and the callback that takes it back: the channel, the reactor, or the callback queue.

* `NativePort.queued`, `reading`, `replies` — the ids of the operations on their way;
* `NativePort.owed`, `log` — what the device still has to do, and what it did;
* `NativePort.creditBytes`, `creditSlots` — the credit that is not with JavaScript;
* `Moves.flow`, `Moves.owed`, `Moves.credit` — what a transition of the reactor does to them.
-/

namespace NodeSerialport.Native

open Parsers (Buffer)
open Binding (NativeEvent)

variable {n n' : NativePort} {out : List Output}

/-! ### What the reactor leaves alone -/

/-- What only the calls of the handle and the environment change; the two flags turn once. -/
structure Apart (n n' : NativePort) : Prop where
  call : n'.call = n.call
  teardown : n'.teardown = n.teardown
  stop : n.stop = true → n'.stop = true
  receiving : n'.receiving = true → n.receiving = true

theorem Kept.apart (k : Kept n n') : Apart n n' := ⟨k.call, k.teardown, k.stop, k.receiving⟩

theorem Moves.apart (h : Moves n n' out) : Apart n n' := by
  cases h with
  | calm k => exact k.apart
  | refused k => exact k.apart
  | unpublished hpc k => exact k.apart
  | published hpc hevent k =>
    have ha := k.apart
    exact ⟨ha.call, ha.teardown, ha.stop, ha.receiving⟩
  | overdrawn => exact ⟨rfl, rfl, id, fun hr => nomatch hr⟩
  | _ => exact ⟨rfl, rfl, id, id⟩

/-! ### Operations on their way -/

/-- The id of a completion, or of the answer to a read. -/
def CallbackEvent.reply? : CallbackEvent → Option ℕ
  | .event nativeEvent =>
    match nativeEvent.kind with
    | .opened | .closed => none
    | _ => some nativeEvent.id
  | _ => none

/-- The open and the close event. -/
def CallbackEvent.signal : CallbackEvent → Bool
  | .event nativeEvent =>
    match nativeEvent.kind with
    | .opened | .closed => true
    | _ => false
  | _ => false

theorem reply_event {event : NativeEvent} (hopened : event.kind ≠ .opened) (hclosed : event.kind ≠ .closed) :
    (CallbackEvent.event event).reply? = some event.id ∧ (CallbackEvent.event event).signal = false := by
  unfold CallbackEvent.reply? CallbackEvent.signal
  dsimp only
  split
  · contradiction
  · contradiction
  · exact ⟨rfl, rfl⟩

theorem signal_event {event : NativeEvent} (h : event.kind = .opened ∨ event.kind = .closed) :
    (CallbackEvent.event event).reply? = none ∧ (CallbackEvent.event event).signal = true := by
  unfold CallbackEvent.reply? CallbackEvent.signal
  dsimp only
  rcases h with hkind | hkind <;> rw [hkind] <;> exact ⟨rfl, rfl⟩

theorem IsCompletion.reply {event : NativeEvent} (h : IsCompletion event) :
    (CallbackEvent.event event).reply? = some event.id ∧ (CallbackEvent.event event).signal = false := by
  rcases h.kind with hkind | hkind <;> exact reply_event (by rw [hkind]; nofun) (by rw [hkind]; nofun)

theorem IsReply.reply {event : NativeEvent} (h : IsReply event) :
    (CallbackEvent.event event).reply? = some event.id ∧ (CallbackEvent.event event).signal = false := by
  rcases h.kind with hkind | ⟨hkind, -⟩ <;> exact reply_event (by rw [hkind]; nofun) (by rw [hkind]; nofun)

theorem ofRead_reply (buffer : Buffer) (length : ℕ) :
    (CallbackEvent.ofRead buffer length).1.reply? = none ∧ (CallbackEvent.ofRead buffer length).1.signal = false := by
  unfold CallbackEvent.ofRead
  split <;> exact ⟨rfl, rfl⟩

theorem replies_snoc (events : List CallbackEvent) (event : CallbackEvent) :
    (events ++ [event]).filterMap CallbackEvent.reply? =
      events.filterMap CallbackEvent.reply? ++ event.reply?.toList := by
  rw [List.filterMap_append]
  cases h : event.reply? <;> simp [h]

def Command.read? (c : Command) : Option ℕ :=
  match c.operation with
  | .read _ => some c.id
  | _ => none

def Command.ordered? (c : Command) : Option ℕ := if c.ordered then some c.id else none

/-- An event is in the hands of the reactor. -/
def Pc.replying : Pc → Bool
  | .notify _ | .reply _ => true
  | _ => false

namespace NativePort

/-- The ordered operations that are not done, in the order they were submitted. -/
def queued (n : NativePort) : List ℕ := n.reactor.commands.map Command.id ++ n.channel.filterMap Command.ordered?

/-- The explicit reads that are not done. -/
def reading (n : NativePort) : List ℕ := (n.reactor.read.map Prod.fst).toList ++ n.channel.filterMap Command.read?

/-- The event in the hands of the reactor. -/
def notifying (n : NativePort) : List ℕ :=
  match n.reactor.pc with
  | .notify event | .reply event => [event.id]
  | _ => []

/-- The operations whose events are on their way to JavaScript. -/
def replies (n : NativePort) : List ℕ := n.callbacks.filterMap CallbackEvent.reply? ++ n.notifying

theorem notifying_none {pc : Pc} (hpc : n.reactor.pc = pc) (h : pc.replying = false) : n.notifying = [] := by
  unfold notifying
  rw [hpc]
  cases pc with
  | notify | reply => cases h
  | _ => rfl

theorem notifying_calm (h : n.reactor.pc.calm = true) : n.notifying = [] := by
  unfold notifying
  split <;> first | rfl | (rename_i hpc; rw [hpc] at h; cases h)

end NativePort

/-- **The way of an operation**: it stays where it is, an ordered one is done, or a read is answered. -/
inductive Flow (n n' : NativePort) : Prop
  | same (replies : n'.replies = n.replies) (queued : n'.queued = n.queued) (reading : n'.reading = n.reading)
      (pendingOps : n'.pendingOps = n.pendingOps)
  | done (id : ℕ) (replies : n'.replies = n.replies ++ [id]) (queued : n.queued = id :: n'.queued)
      (reading : n'.reading = n.reading) (pendingOps : n'.pendingOps = n.pendingOps - 1)
  | replied (id : ℕ) (replies : n'.replies = n.replies ++ [id]) (queued : n'.queued = n.queued)
      (reading : n.reading.Perm (id :: n'.reading)) (pendingOps : n'.pendingOps = n.pendingOps)

namespace NativePort

theorem replies_idle (hcallbacks : n'.callbacks = n.callbacks) (before : n.notifying = []) (after : n'.notifying = []) :
    n'.replies = n.replies := by
  rw [replies, replies, hcallbacks, before, after]

theorem replies_pushed {event : CallbackEvent} (hcallbacks : n'.callbacks = n.callbacks ++ [event])
    (before : n.notifying = event.reply?.toList) (after : n'.notifying = []) : n'.replies = n.replies := by
  rw [replies, replies, hcallbacks, replies_snoc, before, after, List.append_nil]

theorem queued_taken {c : Command} (hchannel : n.channel = c :: n'.channel)
    (hcommands : n'.reactor.commands = n.reactor.commands) (h : c.ordered? = none) : n'.queued = n.queued := by
  rw [queued, queued, hcommands, hchannel, List.filterMap_cons_none h]

theorem reading_taken {c : Command} (hchannel : n.channel = c :: n'.channel) (hread : n'.reactor.read = n.reactor.read)
    (h : c.read? = none) : n'.reading = n.reading := by
  rw [reading, reading, hread, hchannel, List.filterMap_cons_none h]

end NativePort

theorem Flow.kept (k : Kept n n') (before : n.notifying = []) (after : n'.reactor.pc.calm = true) : Flow n n' := by
  refine .same ?_ ?_ ?_ k.pendingOps
  · exact NativePort.replies_idle k.callbacks before (NativePort.notifying_calm after)
  · rw [NativePort.queued, NativePort.queued, k.commands, k.channel]
  · rw [NativePort.reading, NativePort.reading, k.read, k.channel]

theorem Flow.idle (hcallbacks : n'.callbacks = n.callbacks) (before : n.notifying = []) (after : n'.notifying = [])
    (queued : n'.queued = n.queued) (reading : n'.reading = n.reading) (pendingOps : n'.pendingOps = n.pendingOps) :
    Flow n n' :=
  .same (NativePort.replies_idle hcallbacks before after) queued reading pendingOps

theorem signalled_flow {event : NativeEvent} {pc : Pc}
    (hsignal : n.reactor.pc = .opened ∧ pc = .top ∧ event.kind = .opened ∨
      (∃ result, n.reactor.pc = .released result) ∧ pc = .reported ∧ event.kind = .closed) :
    Flow n ((n.push (.event event)).goto pc) := by
  have hreply : (CallbackEvent.event event).reply? = none := by
    rcases hsignal with ⟨-, -, hkind⟩ | ⟨-, -, hkind⟩
    · exact (signal_event (.inl hkind)).1
    · exact (signal_event (.inr hkind)).1
  have hbefore : n.notifying = [] := by
    rcases hsignal with ⟨hpc, -, -⟩ | ⟨⟨result, hpc⟩, -, -⟩ <;> exact NativePort.notifying_none hpc rfl
  have hafter : ((n.push (.event event)).goto pc).notifying = [] := by
    rcases hsignal with ⟨-, rfl, -⟩ | ⟨-, rfl, -⟩ <;> rfl
  refine .same (NativePort.replies_pushed rfl ?_ hafter) rfl rfl rfl
  rw [hbefore, hreply]
  rfl

theorem popped_flow {event : NativeEvent} (hfits : Fits n) (hpc : n.reactor.pc = .complete event) :
    Flow n { n with
      pendingOps := n.pendingOps - 1
      reactor := { n.reactor with commands := n.reactor.commands.tail, pc := .notify event } } := by
  obtain ⟨⟨command, rest, hcommands, hid⟩, -, -⟩ := hfits.complete hpc
  refine .done command.id ?_ ?_ rfl rfl
  · rw [NativePort.replies, NativePort.replies, NativePort.notifying_none hpc rfl, List.append_nil, ← hid]
    rfl
  · show n.reactor.commands.map Command.id ++ _ = command.id :: (n.reactor.commands.tail.map Command.id ++ _)
    rw [hcommands]
    rfl

theorem replied_flow {event : NativeEvent} {pc : Pc} (hfits : Fits n)
    (hpc : n.reactor.pc = .notify event ∨ n.reactor.pc = .reply event) (after : pc = .commands ∨ pc = .top) :
    Flow n ((n.push (.event event)).goto pc) := by
  have hreply : (CallbackEvent.event event).reply? = some event.id := by
    rcases hpc with hpc | hpc
    · exact (hfits.notify hpc).reply.1
    · exact (hfits.reply hpc).reply.1
  have hbefore : n.notifying = [event.id] := by
    unfold NativePort.notifying
    rcases hpc with hpc | hpc <;> rw [hpc]
  have hafter : ((n.push (.event event)).goto pc).notifying = [] := by rcases after with rfl | rfl <;> rfl
  refine .same (NativePort.replies_pushed rfl ?_ hafter) rfl rfl rfl
  rw [hbefore, hreply]
  rfl

theorem busy_flow {command : Command} {channel : List Command} {length : ℕ} {error : IoError}
    (hpc : n.reactor.pc = .select) (hchannel : n.channel = command :: channel)
    (hoperation : command.operation = .read length) :
    Flow n ({ n with channel := channel }.goto (.reply (NativeEvent.error command.id error))) := by
  obtain ⟨id, operation⟩ := command
  obtain rfl : operation = .read length := hoperation
  refine .replied id ?_ (NativePort.queued_taken hchannel rfl rfl) ?_ rfl
  · rw [NativePort.replies, NativePort.replies, NativePort.notifying_none hpc rfl, List.append_nil]
    rfl
  · rw [NativePort.reading, NativePort.reading, hchannel]
    exact List.perm_middle

theorem enlisted_flow {command : Command} {channel : List Command} (hpc : n.reactor.pc = .select)
    (hchannel : n.channel = command :: channel) (hordered : command.ordered = true) :
    Flow n { n with
      channel := channel
      reactor := { n.reactor with commands := n.reactor.commands ++ [command], pc := .top } } := by
  have hread : command.read? = none := by
    obtain ⟨id, operation⟩ := command
    cases operation with
    | read => cases hordered
    | _ => rfl
  have hid : command.ordered? = some command.id := if_pos hordered
  refine .idle rfl (NativePort.notifying_none hpc rfl) rfl ?_ (NativePort.reading_taken hchannel rfl hread) rfl
  show (n.reactor.commands ++ [command]).map Command.id ++ _ = n.reactor.commands.map Command.id ++ _
  rw [hchannel, List.filterMap_cons_some hid, List.map_append, List.append_assoc]
  rfl

theorem sent_flow {length : ℕ} {pc : Pc} (hpc : n.reactor.pc = .single length ∨ n.reactor.pc = .first length)
    (after : pc = .top ∨ ∃ left, pc = .burst left none []) :
    Flow n (({ n with reactor := { n.reactor with
      readBuffer := (CallbackEvent.ofRead n.reactor.readBuffer length).2 } }.push
        (CallbackEvent.ofRead n.reactor.readBuffer length).1).goto pc) := by
  have hbefore : n.notifying = [] := by rcases hpc with hpc | hpc <;> exact NativePort.notifying_none hpc rfl
  refine .same (NativePort.replies_pushed rfl ?_ ?_) rfl rfl rfl
  · rw [hbefore, (ofRead_reply _ _).1]
    rfl
  · rcases after with rfl | ⟨left, rfl⟩ <;> rfl

theorem published_flow {result : Except IoError Unit} {first : Option Buffer} {batch : List Buffer}
    {event : CallbackEvent} (hpc : n.reactor.pc = .publish result first batch)
    (hevent : (∃ data, first = some data ∧ event = .read data) ∨ first = none ∧ batch ≠ [] ∧ event = .readBatch batch)
    (k : Kept (n.push event) n') (after : n'.reactor.pc.calm = true) : Flow n n' := by
  have hreply : event.reply? = none := by rcases hevent with ⟨data, -, rfl⟩ | ⟨-, -, rfl⟩ <;> rfl
  refine .same (NativePort.replies_pushed k.callbacks ?_ (NativePort.notifying_calm after)) ?_ ?_ k.pendingOps
  · rw [NativePort.notifying_none hpc rfl, hreply]
    rfl
  · rw [NativePort.queued, NativePort.queued, k.commands, k.channel]
    rfl
  · rw [NativePort.reading, NativePort.reading, k.read, k.channel]
    rfl

theorem Moves.flow (h : Moves n n' out) (hfits : Fits n) (hroom : n.Room) : Flow n n' := by
  cases h with
  | calm k before after => exact .kept k (NativePort.notifying_calm before) after
  | refused k after full => exact absurd hroom full
  | signalled hsignal hdata => exact signalled_flow hsignal
  | executed before => exact .idle rfl (NativePort.notifying_calm before) rfl rfl rfl rfl
  | popped hat => exact popped_flow hfits hat
  | replied hat after => exact replied_flow hfits hat after
  | busy hat hchannel hoperation => exact busy_flow hat hchannel hoperation
  | reading hat hchannel hread hstreaming =>
    refine .idle rfl (NativePort.notifying_none hat rfl) rfl (NativePort.queued_taken hchannel rfl rfl) ?_ rfl
    -- the read leaves the channel for the reactor
    rw [NativePort.reading, NativePort.reading, hchannel, hread]
    rfl
  | credited hat hchannel | overdrawn hat hchannel =>
    exact .idle rfl (NativePort.notifying_none hat rfl) rfl (NativePort.queued_taken hchannel rfl rfl)
      (NativePort.reading_taken hchannel rfl rfl) rfl
  | enlisted hat hchannel hordered => exact enlisted_flow hat hchannel hordered
  | answered hat hread hdata =>
    rename_i data id length size transfers
    refine .replied id ?_ rfl ?_ rfl
    · rw [NativePort.replies, NativePort.replies, NativePort.notifying_none hat rfl, List.append_nil]
      rfl
    · rw [NativePort.reading, NativePort.reading, hread]
      exact .refl _
  | chosen hat after =>
    refine .idle rfl (NativePort.notifying_none hat rfl) ?_ rfl rfl rfl
    rcases after with rfl | rfl <;> rfl
  | sent hat after => exact sent_flow hat after
  | written hat | charged hat | wrote hat | followed hat | collected hat =>
    exact .idle rfl (NativePort.notifying_none hat rfl) rfl rfl rfl rfl
  | published hat hevent k after => exact published_flow hat hevent k after
  | unpublished hat k after => exact .kept k (NativePort.notifying_none hat rfl) after

/-- A command joins the channel. -/
def NativePort.enlist (n : NativePort) (c : Command) (stage : Call) : NativePort :=
  { n with channel := n.channel ++ [c], call := some stage }

theorem enlist_queued (n : NativePort) (c : Command) (stage : Call) :
    (n.enlist c stage).queued = n.queued ++ c.ordered?.toList := by
  show n.reactor.commands.map Command.id ++ (n.channel ++ [c]).filterMap Command.ordered? = _
  rw [List.filterMap_append, ← List.append_assoc]
  unfold NativePort.queued
  cases h : c.ordered? <;> simp [h]

theorem enlist_reading (n : NativePort) (c : Command) (stage : Call) :
    (n.enlist c stage).reading = n.reading ++ c.read?.toList := by
  show (n.reactor.read.map Prod.fst).toList ++ (n.channel ++ [c]).filterMap Command.read? = _
  rw [List.filterMap_append, ← List.append_assoc]
  unfold NativePort.reading
  cases h : c.read? <;> simp [h]

theorem Moves.channel (h : Moves n n' out) : n'.channel = n.channel ∨ ∃ c, n.channel = c :: n'.channel := by
  cases h with
  | calm k => exact .inl k.channel
  | refused k => exact .inl k.channel
  | unpublished hpc k => exact .inl k.channel
  | published hpc hevent k => exact .inl k.channel
  | busy hpc hchannel => exact .inr ⟨_, hchannel⟩
  | reading hpc hchannel => exact .inr ⟨_, hchannel⟩
  | credited hpc hchannel => exact .inr ⟨_, hchannel⟩
  | overdrawn hpc hchannel => exact .inr ⟨_, hchannel⟩
  | enlisted hpc hchannel => exact .inr ⟨_, hchannel⟩
  | _ => exact .inl rfl

/-- A read credit. -/
def Command.credits (c : Command) : Bool :=
  match c.operation with
  | .readCredit .. => true
  | _ => false

theorem channel_commands (n : NativePort) :
    n.channel.countP (fun c => !c.credits) ≤ n.queued.length + n.reading.length := by
  have hcount : ∀ channel : List Command, channel.countP (fun c => !c.credits) =
      (channel.filterMap Command.ordered?).length + (channel.filterMap Command.read?).length := by
    intro channel
    induction channel with
    | nil => rfl
    | cons c channel ih =>
      obtain ⟨id, operation⟩ := c
      rw [List.countP_cons, ih]
      cases operation with
      | read length =>
        rw [List.filterMap_cons_none rfl, List.filterMap_cons_some (show Command.read? _ = some id from rfl)]
        show _ + 1 = _ + (_ + 1)
        omega
      | readCredit bytes slots =>
        rw [List.filterMap_cons_none rfl, List.filterMap_cons_none rfl]
        rfl
      | write | update | set | get | getBaudRate | flush | drain =>
        rw [List.filterMap_cons_some (show Command.ordered? _ = some id from rfl), List.filterMap_cons_none rfl]
        show _ + 1 = _ + 1 + _
        omega
  rw [hcount, NativePort.queued, NativePort.reading, List.length_append, List.length_append]
  omega

/-! ### What the device has to do -/

/-- What the device did, in order: the bytes it accepted, and the control operations. -/
def Output.atoms : Output → List Atom
  | .wrote data => bytes data
  | .executed command => [.control command]
  | _ => []

def log (outputs : List Output) : List Atom := outputs.flatMap Output.atoms

@[simp] theorem log_append (a b : List Output) : log (a ++ b) = log a ++ log b := List.flatMap_append

/-- Streaming reads are in the hands of the reactor. -/
def Pc.charging : Pc → Bool
  | .filled .. | .single _ | .first _ | .burst .. | .publish .. => true
  | _ => false

/-- The command at the front is done. -/
def Pc.completing : Pc → Bool
  | .complete _ => true
  | _ => false

theorem Pc.completing_calm {pc : Pc} (h : pc.calm = true) : pc.completing = false := by
  cases pc with
  | complete => cases h
  | _ => rfl

namespace NativePort

/-- What the commands of the reactor still ask of the device: the front one may be done in part, or done. -/
def owing (n : NativePort) : List Atom :=
  match n.reactor.pc with
  | .complete _ => n.reactor.commands.tail.flatMap atoms
  | _ => (n.reactor.commands.flatMap atoms).drop n.reactor.written

/-- What all commands still ask of the device. -/
def owed (n : NativePort) : List Atom := n.owing ++ n.channel.flatMap atoms

theorem owing_eq {pc : Pc} (hpc : n.reactor.pc = pc) (h : pc.completing = false) :
    n.owing = (n.reactor.commands.flatMap atoms).drop n.reactor.written := by
  unfold owing
  rw [hpc]
  cases pc with
  | complete event => cases h
  | _ => rfl

theorem owing_calm (h : n.reactor.pc.calm = true) :
    n.owing = (n.reactor.commands.flatMap atoms).drop n.reactor.written :=
  owing_eq rfl (Pc.completing_calm h)

end NativePort

/-- A control operation the device still has to do is that of an ordered command on its way. -/
theorem mem_owed {c : Command} (h : .control c ∈ n.owed) : c.id ∈ n.queued := by
  unfold NativePort.owed at h
  unfold NativePort.queued
  rcases List.mem_append.1 h with h | h
  · have hmem : .control c ∈ n.reactor.commands.flatMap atoms := by
      unfold NativePort.owing at h
      split at h
      · obtain ⟨c', hc', hatom⟩ := List.mem_flatMap.1 h
        exact List.mem_flatMap.2 ⟨c', List.mem_of_mem_tail hc', hatom⟩
      · exact List.mem_of_mem_drop h
    obtain ⟨c', hc', hatom⟩ := List.mem_flatMap.1 hmem
    obtain ⟨rfl, -⟩ := mem_atoms_control hatom
    exact List.mem_append_left _ (List.mem_map_of_mem hc')
  · obtain ⟨c', hc', hatom⟩ := List.mem_flatMap.1 h
    obtain ⟨rfl, -⟩ := mem_atoms_control hatom
    refine List.mem_append_right _ (List.mem_filterMap.2 ⟨c', hc', ?_⟩)
    unfold Command.ordered?
    split
    · rfl
    · rename_i hordered
      rw [atoms_unordered (by simpa using hordered)] at hatom
      cases hatom

theorem frontLength_le (commands : List Command) : frontLength commands ≤ (commands.flatMap atoms).length := by
  cases commands with
  | nil => exact le_refl 0
  | cons command rest =>
    obtain ⟨id, operation⟩ := command
    cases operation with
    | write data =>
      show data.length ≤ (bytes data ++ rest.flatMap atoms).length
      rw [List.length_append, bytes, List.length_map]
      exact Nat.le_add_right _ _
    | _ => exact Nat.zero_le _

namespace NativePort

theorem owed_same (before : n.reactor.pc.completing = false) (after : n'.reactor.pc.completing = false)
    (hcommands : n'.reactor.commands = n.reactor.commands) (hwritten : n'.reactor.written = n.reactor.written)
    (hchannel : n'.channel = n.channel) : n'.owed = n.owed := by
  rw [owed, owed, owing_eq rfl after, owing_eq rfl before, hcommands, hwritten, hchannel]

theorem owed_taken {c : Command} (before : n.reactor.pc.completing = false) (after : n'.reactor.pc.completing = false)
    (hcommands : n'.reactor.commands = n.reactor.commands) (hwritten : n'.reactor.written = n.reactor.written)
    (hchannel : n.channel = c :: n'.channel) (h : atoms c = []) : n'.owed = n.owed := by
  rw [owed, owed, owing_eq rfl after, owing_eq rfl before, hcommands, hwritten, hchannel, List.flatMap_cons, h]
  rfl

end NativePort

theorem Pc.completing_of {pc pc' : Pc} (hpc : pc = pc') (h : pc'.completing = false) : pc.completing = false := hpc ▸ h

theorem Kept.owed (k : Kept n n') (before : n.reactor.pc.completing = false) (after : n'.reactor.pc.calm = true) :
    n'.owed = n.owed :=
  NativePort.owed_same before (Pc.completing_calm after) k.commands k.written k.channel

theorem signalled_owed {event : NativeEvent} {pc : Pc}
    (hsignal : n.reactor.pc = .opened ∧ pc = .top ∧ event.kind = .opened ∨
      (∃ result, n.reactor.pc = .released result) ∧ pc = .reported ∧ event.kind = .closed) :
    ((n.push (.event event)).goto pc).owed = n.owed := by
  refine NativePort.owed_same ?_ ?_ rfl rfl rfl
  · rcases hsignal with ⟨hpc, -, -⟩ | ⟨⟨result, hpc⟩, -, -⟩ <;> exact Pc.completing_of hpc rfl
  · rcases hsignal with ⟨-, rfl, -⟩ | ⟨-, rfl, -⟩ <;> rfl

theorem executed_owed {command : Command} {rest : List Command} {event : NativeEvent} (hfits : Fits n)
    (before : n.reactor.pc.calm = true) (hcommands : n.reactor.commands = command :: rest)
    (hcontrol : command.control = true) : .control command :: (n.goto (.complete event)).owed = n.owed := by
  have hwritten : n.reactor.written = 0 := by
    have hle := hfits.written
    rw [hcommands] at hle
    obtain ⟨id, operation⟩ := command
    cases operation with
    | write => cases hcontrol
    | _ => exact Nat.le_zero.1 hle
  rw [NativePort.owed, NativePort.owed, NativePort.owing_calm before, hwritten, hcommands, List.drop_zero,
    List.flatMap_cons, atoms_control hcontrol]
  show [Atom.control command] ++ (n.reactor.commands.tail.flatMap atoms ++ n.channel.flatMap atoms) = _
  rw [hcommands]
  rfl

theorem written_owed {id : ℕ} {data : Buffer} {rest : List Command} {event : NativeEvent}
    (hpc : n.reactor.pc = .commands) (hcommands : n.reactor.commands = ⟨id, .write data⟩ :: rest)
    (hwritten : n.reactor.written = data.length) :
    NativePort.owed { n with reactor := { n.reactor with written := 0, pc := .complete event } } = n.owed := by
  rw [NativePort.owed, NativePort.owed, NativePort.owing_eq hpc rfl, hcommands, hwritten, List.flatMap_cons]
  show n.reactor.commands.tail.flatMap atoms ++ n.channel.flatMap atoms =
    (bytes data ++ rest.flatMap atoms).drop data.length ++ _
  rw [hcommands, List.drop_left' (by rw [bytes, List.length_map])]
  rfl

theorem popped_owed {event : NativeEvent} (hfits : Fits n) (hpc : n.reactor.pc = .complete event) :
    NativePort.owed { n with
      pendingOps := n.pendingOps - 1
      reactor := { n.reactor with commands := n.reactor.commands.tail, pc := .notify event } } = n.owed := by
  obtain ⟨-, hwritten, -⟩ := hfits.complete hpc
  show (n.reactor.commands.tail.flatMap atoms).drop n.reactor.written ++ n.channel.flatMap atoms = _
  rw [hwritten, NativePort.owed, NativePort.owing, hpc]
  rfl

theorem enlisted_owed {command : Command} {channel : List Command} (hfits : Fits n) (hpc : n.reactor.pc = .select)
    (hchannel : n.channel = command :: channel) :
    NativePort.owed { n with
      channel := channel
      reactor := { n.reactor with commands := n.reactor.commands ++ [command], pc := .top } } = n.owed := by
  have hwritten := hfits.written.trans (frontLength_le _)
  rw [NativePort.owed, NativePort.owed, NativePort.owing_eq hpc rfl, hchannel]
  show ((n.reactor.commands ++ [command]).flatMap atoms).drop n.reactor.written ++ channel.flatMap atoms = _
  rw [List.flatMap_append, List.drop_append_of_le_length hwritten, List.append_assoc]
  simp

theorem wrote_owed {id count : ℕ} {data : Buffer} {rest : List Command} {transfers : TransferPoller}
    (hpc : n.reactor.pc = .select) (hcommands : n.reactor.commands = ⟨id, .write data⟩ :: rest)
    (hcount : n.reactor.written + count ≤ data.length) :
    bytes ((data.drop n.reactor.written).take count) ++ NativePort.owed { n with reactor := { n.reactor with
      transfers := transfers
      written := n.reactor.written + count
      pc := .top } } = n.owed := by
  have hsplit : ∀ k ≤ data.length, (n.reactor.commands.flatMap atoms).drop k =
      bytes (data.drop k) ++ rest.flatMap atoms := by
    intro k hk
    rw [hcommands, List.flatMap_cons]
    show (bytes data ++ rest.flatMap atoms).drop k = _
    rw [List.drop_append_of_le_length (by rw [bytes, List.length_map]; exact hk), bytes, bytes, List.map_drop]
  have hbytes : bytes ((data.drop n.reactor.written).take count) ++ bytes (data.drop (n.reactor.written + count)) =
      bytes (data.drop n.reactor.written) := by
    rw [← bytes_append, ← List.drop_drop, List.take_append_drop]
  rw [NativePort.owed, NativePort.owed, NativePort.owing_eq hpc rfl]
  show bytes ((data.drop n.reactor.written).take count) ++
    ((n.reactor.commands.flatMap atoms).drop (n.reactor.written + count) ++ n.channel.flatMap atoms) = _
  rw [hsplit _ hcount, hsplit _ (by omega), ← List.append_assoc, ← List.append_assoc, hbytes]

/-- **What a transition does to the device**: what was owed is done, or still owed. -/
theorem Moves.owed (h : Moves n n' out) (hfits : Fits n) (hroom : n.Room) : log out ++ n'.owed = n.owed := by
  cases h with
  | calm k before after => exact k.owed (Pc.completing_calm before) after
  | refused k after full => exact absurd hroom full
  | signalled hsignal hdata => exact signalled_owed hsignal
  | executed before hended hcommands hcontrol => exact executed_owed hfits before hcommands hcontrol
  | written hat hcommands hwritten => exact written_owed hat hcommands hwritten
  | popped hat => exact popped_owed hfits hat
  | replied hat after =>
    refine NativePort.owed_same ?_ ?_ rfl rfl rfl
    · rcases hat with hat | hat <;> exact Pc.completing_of hat rfl
    · rcases after with rfl | rfl <;> rfl
  | busy hat hchannel hoperation =>
    refine NativePort.owed_taken (Pc.completing_of hat rfl) rfl rfl rfl hchannel ?_
    unfold atoms
    rw [hoperation]
  | reading hat hchannel | credited hat hchannel | overdrawn hat hchannel =>
    exact NativePort.owed_taken (Pc.completing_of hat rfl) rfl rfl rfl hchannel rfl
  | enlisted hat hchannel hordered => exact enlisted_owed hfits hat hchannel
  | wrote hat hcommands hcount =>
    rw [log, List.flatMap_singleton]
    exact wrote_owed hat hcommands hcount
  | chosen hat after =>
    refine NativePort.owed_same (Pc.completing_of hat rfl) ?_ rfl rfl rfl
    rcases after with rfl | rfl <;> rfl
  | sent hat after =>
    refine NativePort.owed_same ?_ ?_ rfl rfl rfl
    · rcases hat with hat | hat <;> exact Pc.completing_of hat rfl
    · rcases after with rfl | ⟨left, rfl⟩ <;> rfl
  | charged hat | answered hat | followed hat | collected hat =>
    exact NativePort.owed_same (Pc.completing_of hat rfl) rfl rfl rfl rfl
  | published hat hevent k after =>
    exact NativePort.owed_same (Pc.completing_of hat rfl) (Pc.completing_calm after) k.commands k.written k.channel
  | unpublished hat k after => exact k.owed (Pc.completing_of hat rfl) after

/-! ### Read credit -/

def Command.creditBytes (c : Command) : ℕ :=
  match c.operation with
  | .readCredit bytes _ => bytes
  | _ => 0

def Command.creditSlots (c : Command) : ℕ :=
  match c.operation with
  | .readCredit _ slots => slots
  | _ => 0

namespace NativePort

/-- The bytes of the credits in the channel. -/
def channelBytes (n : NativePort) : ℕ := (n.channel.map Command.creditBytes).sum

/-- The slots of the credits in the channel. -/
def channelSlots (n : NativePort) : ℕ := (n.channel.map Command.creditSlots).sum

/-- The buffers read for credit that JavaScript does not have. -/
def buffered (n : NativePort) : List Buffer := n.callbacks.flatMap CallbackEvent.chunks ++ n.charged

/-- The bytes of credit on the native side. -/
def creditBytes (n : NativePort) : ℕ := n.channelBytes + n.reactor.window.bytes + n.buffered.flatten.length

/-- The slots of credit on the native side. -/
def creditSlots (n : NativePort) : ℕ := n.channelSlots + n.reactor.window.slots + n.buffered.length

theorem charged_none {pc : Pc} (hpc : n.reactor.pc = pc) (h : pc.charging = false) : n.charged = [] := by
  unfold charged
  rw [hpc]
  cases pc with
  | filled | single | first | burst | publish => cases h
  | _ => rfl

end NativePort

theorem enlist_creditBytes (n : NativePort) (c : Command) (stage : Call) :
    (n.enlist c stage).creditBytes = n.creditBytes + c.creditBytes := by
  show ((n.channel ++ [c]).map Command.creditBytes).sum + n.reactor.window.bytes + n.buffered.flatten.length = _
  rw [List.map_append, List.sum_append, List.map_singleton, List.sum_singleton, NativePort.creditBytes,
    NativePort.channelBytes]
  omega

theorem enlist_creditSlots (n : NativePort) (c : Command) (stage : Call) :
    (n.enlist c stage).creditSlots = n.creditSlots + c.creditSlots := by
  show ((n.channel ++ [c]).map Command.creditSlots).sum + n.reactor.window.slots + n.buffered.length = _
  rw [List.map_append, List.sum_append, List.map_singleton, List.sum_singleton, NativePort.creditSlots,
    NativePort.channelSlots]
  omega

/-- **The way of a credit**: it stays where it is, joins the window, or is spent on a read. -/
inductive CreditFlow (n n' : NativePort) : Prop
  | same (buffered : n'.buffered = n.buffered) (bytes : n'.channelBytes = n.channelBytes)
      (slots : n'.channelSlots = n.channelSlots) (window : n'.reactor.window.bytes = n.reactor.window.bytes)
      (windowSlots : n'.reactor.window.slots = n.reactor.window.slots)
  | granted (bytes slots : ℕ) (buffered : n'.buffered = n.buffered) (hbytes : n.channelBytes = bytes + n'.channelBytes)
      (hslots : n.channelSlots = slots + n'.channelSlots)
      (window : n'.reactor.window.bytes = n.reactor.window.bytes + bytes)
      (windowSlots : n'.reactor.window.slots = n.reactor.window.slots + slots)
  | spent (data : Buffer) (hbytes : data.length ≤ n.reactor.window.bytes) (hslots : 0 < n.reactor.window.slots)
      (buffered : n'.buffered = n.buffered ++ [data]) (bytes : n'.channelBytes = n.channelBytes)
      (slots : n'.channelSlots = n.channelSlots)
      (window : n'.reactor.window.bytes = n.reactor.window.bytes - data.length)
      (windowSlots : n'.reactor.window.slots = n.reactor.window.slots - 1)

namespace NativePort

theorem buffered_idle (hcallbacks : n'.callbacks = n.callbacks) (before : n.charged = []) (after : n'.charged = []) :
    n'.buffered = n.buffered := by
  rw [buffered, buffered, hcallbacks, before, after]

theorem buffered_pushed {event : CallbackEvent} (hcallbacks : n'.callbacks = n.callbacks ++ [event])
    (h : event.chunks ++ n'.charged = n.charged) : n'.buffered = n.buffered := by
  rw [buffered, buffered, hcallbacks, List.flatMap_append, List.flatMap_singleton, List.append_assoc, h]

end NativePort

theorem CreditFlow.idle (buffered : n'.buffered = n.buffered) (hchannel : n'.channel = n.channel)
    (hwindow : n'.reactor.window = n.reactor.window) : CreditFlow n n' := by
  refine .same buffered ?_ ?_ (by rw [hwindow]) (by rw [hwindow])
  · rw [NativePort.channelBytes, NativePort.channelBytes, hchannel]
  · rw [NativePort.channelSlots, NativePort.channelSlots, hchannel]

theorem CreditFlow.kept (k : Kept n n') (before : n.charged = []) (after : n'.reactor.pc.calm = true) :
    CreditFlow n n' :=
  .idle (NativePort.buffered_idle k.callbacks before (NativePort.charged_calm after)) k.channel k.window

theorem CreditFlow.taken {c : Command} (buffered : n'.buffered = n.buffered) (hchannel : n.channel = c :: n'.channel)
    (hwindow : n'.reactor.window = n.reactor.window) (hbytes : c.creditBytes = 0) (hslots : c.creditSlots = 0) :
    CreditFlow n n' := by
  refine .same buffered ?_ ?_ (by rw [hwindow]) (by rw [hwindow])
  · rw [NativePort.channelBytes, NativePort.channelBytes, hchannel, List.map_cons, List.sum_cons, hbytes, Nat.zero_add]
  · rw [NativePort.channelSlots, NativePort.channelSlots, hchannel, List.map_cons, List.sum_cons, hslots, Nat.zero_add]

theorem CreditFlow.credited {id bytes slots : ℕ} (buffered : n'.buffered = n.buffered)
    (hchannel : n.channel = ⟨id, .readCredit bytes slots⟩ :: n'.channel)
    (window : n'.reactor.window.bytes = n.reactor.window.bytes + bytes)
    (windowSlots : n'.reactor.window.slots = n.reactor.window.slots + slots) : CreditFlow n n' := by
  refine .granted bytes slots buffered ?_ ?_ window windowSlots
  · rw [NativePort.channelBytes, hchannel]
    rfl
  · rw [NativePort.channelSlots, hchannel]
    rfl

theorem signalled_creditFlow {event : NativeEvent} {pc : Pc}
    (hsignal : n.reactor.pc = .opened ∧ pc = .top ∧ event.kind = .opened ∨
      (∃ result, n.reactor.pc = .released result) ∧ pc = .reported ∧ event.kind = .closed) :
    CreditFlow n ((n.push (.event event)).goto pc) := by
  have hbefore : n.charged = [] := by
    rcases hsignal with ⟨hpc, -, -⟩ | ⟨⟨result, hpc⟩, -, -⟩ <;> exact NativePort.charged_none hpc rfl
  refine .idle (NativePort.buffered_pushed rfl ?_) rfl rfl
  rw [hbefore]
  rcases hsignal with ⟨-, rfl, -⟩ | ⟨-, rfl, -⟩ <;> rfl

theorem replied_creditFlow {event : NativeEvent} {pc : Pc}
    (hpc : n.reactor.pc = .notify event ∨ n.reactor.pc = .reply event) (after : pc = .commands ∨ pc = .top) :
    CreditFlow n ((n.push (.event event)).goto pc) := by
  have hbefore : n.charged = [] := by rcases hpc with hpc | hpc <;> exact NativePort.charged_none hpc rfl
  refine .idle (NativePort.buffered_pushed rfl ?_) rfl rfl
  rw [hbefore]
  rcases after with rfl | rfl <;> rfl

theorem Command.ordered_credit {c : Command} (h : c.ordered = true) : c.creditBytes = 0 ∧ c.creditSlots = 0 := by
  obtain ⟨id, operation⟩ := c
  cases operation with
  | readCredit => cases h
  | _ => exact ⟨rfl, rfl⟩

theorem Command.read_credit {c : Command} {length : ℕ} (h : c.operation = .read length) :
    c.creditBytes = 0 ∧ c.creditSlots = 0 := by
  unfold Command.creditBytes Command.creditSlots
  rw [h]
  exact ⟨rfl, rfl⟩

theorem charged_creditFlow {data : Buffer} {size : ℕ} {full : Bool} {transfers : TransferPoller}
    (hpc : n.reactor.pc = .select) (hbytes : data.length ≤ n.reactor.window.bytes) (hslots : 0 < n.reactor.window.slots) :
    CreditFlow n { n with reactor := { n.reactor with
      transfers := transfers
      readBuffer := n.reactor.fill data
      window := n.reactor.window.charged data size
      pc := .filled data.length full } } := by
  refine .spent data hbytes hslots ?_ rfl rfl rfl rfl
  rw [NativePort.buffered, NativePort.buffered, NativePort.charged_none hpc rfl, List.append_nil]
  show _ ++ [(n.reactor.fill data).take data.length] = _
  rw [Reactor.fill_take]

theorem sent_creditFlow {length : ℕ} {pc : Pc} (hfits : Fits n)
    (hpc : n.reactor.pc = .single length ∨ n.reactor.pc = .first length)
    (after : pc = .top ∨ ∃ left, pc = .burst left none []) :
    CreditFlow n (({ n with reactor := { n.reactor with
      readBuffer := (CallbackEvent.ofRead n.reactor.readBuffer length).2 } }.push
        (CallbackEvent.ofRead n.reactor.readBuffer length).1).goto pc) := by
  have hbefore : n.charged = [n.reactor.readBuffer.take length] := by
    unfold NativePort.charged
    rcases hpc with hpc | hpc <;> rw [hpc]
  refine .idle (NativePort.buffered_pushed rfl ?_) rfl rfl
  rw [hbefore, CallbackEvent.ofRead_chunks (hfits.reading (.inr hpc)).2]
  rcases after with rfl | ⟨left, rfl⟩ <;> rfl

theorem published_creditFlow {result : Except IoError Unit} {first : Option Buffer} {batch : List Buffer}
    {event : CallbackEvent} (hfits : Fits n) (hpc : n.reactor.pc = .publish result first batch)
    (hevent : (∃ data, first = some data ∧ event = .read data) ∨ first = none ∧ batch ≠ [] ∧ event = .readBatch batch)
    (k : Kept (n.push event) n') (after : n'.reactor.pc.calm = true) : CreditFlow n n' := by
  refine .idle (NativePort.buffered_pushed k.callbacks ?_) k.channel k.window
  rw [NativePort.charged_calm after, NativePort.charged, hpc]
  rcases hevent with ⟨data, rfl, rfl⟩ | ⟨rfl, hbatch, rfl⟩
  · obtain rfl := (hfits.publish hpc).resolve_left nofun
    rfl
  · exact List.append_nil _

theorem Moves.creditFlow (h : Moves n n' out) (hfits : Fits n) (hroom : n.Room) : CreditFlow n n' := by
  cases h with
  | calm k before after => exact .kept k (NativePort.charged_calm before) after
  | refused k after full => exact absurd hroom full
  | signalled hsignal hdata => exact signalled_creditFlow hsignal
  | executed before => exact .idle (NativePort.buffered_idle rfl (NativePort.charged_calm before) rfl) rfl rfl
  | replied hat after => exact replied_creditFlow hat after
  | busy hat hchannel hoperation =>
    obtain ⟨hbytes, hslots⟩ := Command.read_credit hoperation
    exact .taken (NativePort.buffered_idle rfl (NativePort.charged_none hat rfl) rfl) hchannel rfl hbytes hslots
  | reading hat hchannel =>
    exact .taken (NativePort.buffered_idle rfl (NativePort.charged_none hat rfl) rfl) hchannel rfl rfl rfl
  | credited hat hchannel | overdrawn hat hchannel =>
    exact .credited (NativePort.buffered_idle rfl (NativePort.charged_none hat rfl) rfl) hchannel rfl rfl
  | enlisted hat hchannel hordered =>
    obtain ⟨hbytes, hslots⟩ := Command.ordered_credit hordered
    exact .taken (NativePort.buffered_idle rfl (NativePort.charged_none hat rfl) rfl) hchannel rfl hbytes hslots
  | charged hat hread hdata hbytes hslots => exact charged_creditFlow hat hbytes hslots
  | answered hat hread hdata =>
    exact .same (NativePort.buffered_idle rfl (NativePort.charged_none hat rfl) rfl) rfl rfl rfl rfl
  | written hat | popped hat | wrote hat =>
    exact .idle (NativePort.buffered_idle rfl (NativePort.charged_none hat rfl) rfl) rfl rfl
  | chosen hat after =>
    refine .idle ?_ rfl rfl
    rw [NativePort.buffered, NativePort.buffered, NativePort.charged, NativePort.charged, hat]
    rcases after with rfl | rfl <;> rfl
  | sent hat after => exact sent_creditFlow hfits hat after
  | followed hat hdata hbytes hslots =>
    rename_i left size first batch data
    refine .spent data hbytes hslots ?_ rfl rfl rfl rfl
    rw [NativePort.buffered, NativePort.buffered, NativePort.charged, NativePort.charged, hat, List.append_assoc,
      ← collect_append (hfits.burst hat) data]
  | collected hat =>
    refine .idle ?_ rfl rfl
    rw [NativePort.buffered, NativePort.buffered, NativePort.charged, NativePort.charged, hat]
  | published hat hevent k after => exact published_creditFlow hfits hat hevent k after
  | unpublished hat k after =>
    refine .kept k ?_ after
    rw [NativePort.charged, hat]
    rfl

/-- **The reactor conserves credit.** -/
theorem Moves.credit (h : Moves n n' out) (hfits : Fits n) (hroom : n.Room) :
    n'.creditBytes = n.creditBytes ∧ n'.creditSlots = n.creditSlots := by
  unfold NativePort.creditBytes NativePort.creditSlots
  cases h.creditFlow hfits hroom with
  | same buffered bytes slots window windowSlots => simp only [buffered, bytes, slots, window, windowSlots, and_self]
  | granted bytes slots buffered hbytes hslots window windowSlots =>
    rw [buffered, window, windowSlots, hbytes, hslots]
    omega
  | spent data hbytes hslots buffered bytes slots window windowSlots =>
    rw [buffered, window, windowSlots, bytes, slots, List.flatten_append, List.length_append, List.length_append,
      List.flatten_singleton, List.length_singleton]
    omega

/-- **A command that arrives** ends the connection only where its credit is too large, or an explicit read is open. -/
theorem stepReceived_valid (hread : n.reactor.read = none)
    (hbytes : n.channelBytes + n.reactor.window.bytes ≤ chunkSize)
    (hslots : n.channelSlots + n.reactor.window.slots ≤ readSlots) (hstep : n.stepReceived = some n') :
    n'.reactor.pc.ended = false := by
  unfold NativePort.stepReceived at hstep
  split at hstep
  · cases hstep
  · rename_i command channel hchannel
    obtain ⟨id, operation⟩ := command
    rw [NativePort.channelBytes, hchannel, List.map_cons, List.sum_cons] at hbytes
    rw [NativePort.channelSlots, hchannel, List.map_cons, List.sum_cons] at hslots
    dsimp only at hstep
    split at hstep
    · split at hstep <;> cases hstep <;> rfl
    · rename_i bytes slots
      change bytes + _ + _ ≤ _ at hbytes
      change slots + _ + _ ≤ _ at hslots
      split at hstep
      · rename_i hinvalid
        simp only [hread, Option.isSome_none, Bool.false_or, Bool.or_eq_true, decide_eq_true_eq] at hinvalid
        omega
      · cases hstep
        rfl
    · cases hstep
      rfl

end NodeSerialport.Native
